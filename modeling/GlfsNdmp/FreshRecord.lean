import GlfsNdmp.Closing

/-!
# The record a new connection starts with

The first job of a connection is its accept job; `add_job_to_session` looks the session up by the
descriptor, and whatever record it finds there is the new connection's. `usesFresh_of_run` says
when that is a record as `get_session_info` creates it: `accept` returns a number only when nothing
is left of its last session, or when the record is marked and one job, which takes it away, is still
to be done; and the session of a connection is terminated only after its accept job has been added
to it.
-/

namespace GlfsNdmp

namespace WorkerPc

/-- The job `add_job_to_session` is about to add. -/
def adding : WorkerPc → Option Job
  | .find .add job | .insert .add job | .push _ job => some job
  | _ => none

/-- The job `add_job_to_session` looks up the session for. -/
def lookingUp : WorkerPc → Option Job
  | .find .add job | .insert .add job => some job
  | _ => none

theorem adding_of_lookingUp {pc : WorkerPc} {job : Job} (h : pc.lookingUp = some job) :
    pc.adding = some job ∧ pc.fd = some job.fd := by
  cases pc with
  | find purpose | insert purpose =>
    cases purpose <;> cases h
    exact ⟨rfl, rfl⟩
  | _ => cases h

end WorkerPc

/-- The steps of `add_job_to_session`. -/
theorem adding_of_sessionStep {st st' : Store} {pc pc' : WorkerPc} {job : Job}
    (h : sessionStep st pc = some (st', pc')) (hadding : pc'.adding = some job) :
    pc.lookingUp = some job ∧
      ((∃ a, pc' = .push a job ∧ st.find job.fd = some a ∧ st' = st.scan job.fd) ∨
        pc' = .push st.nextAddress job ∧ st' = st.insert job.fd ∨
        pc' = .insert .add job ∧ st' = st.scan job.fd) := by
  cases handlingStep_of_sessionStep h with
  | @found purpose _ a hfind =>
    cases purpose <;> cases hadding
    exact ⟨rfl, Or.inl ⟨a, rfl, hfind, rfl⟩⟩
  | @missing purpose =>
    cases purpose <;> cases hadding
    exact ⟨rfl, Or.inr (Or.inr ⟨rfl, rfl⟩)⟩
  | @insert purpose =>
    cases purpose <;> cases hadding
    exact ⟨rfl, Or.inr (Or.inl ⟨rfl, rfl⟩)⟩
  | push =>
    unfold afterPush at hadding
    split at hadding <;> cases hadding
  | @access _ _ next => cases next <;> cases hadding
  | _ => cases hadding

namespace Pipeline

/-- The jobs that have not been added to their session. -/
def State.waiting (s : State Unit) : List Job := (s.workers ()).adding.toList ++ s.requestJobs

/-- `add_job_to_session` adds an accept job to a record as `get_session_info` creates it. -/
def UsesFresh (s : State Unit) : Prop :=
  ∀ a job, s.workers () = .push a job → job.isTcpConnect = true →
    s.store.memory a = SessionInfo.fresh job.fd

/-- `terminate_session` is about to look the session up. -/
def MainPc.finding : MainPc → Option Nat
  | .find fd _ => some fd
  | _ => none

/-- A number of which nothing is left in the registry and in the queue, or a marked record with one
job still to be done. -/
def State.Vacant (s : State Unit) (fd : Nat) : Prop :=
  s.store.find fd = none ∧ s.unfinished fd = [] ∨
    ∃ a ∈ s.store.find fd, s.LastJob fd a ∧ (s.store.memory a).isTerminated = true

/-- The number of a session is taken up again when it is vacant, and a session is terminated after
its accept job was added to it. -/
def FreshNumber (s : State Unit) : Action Unit → Prop
  | .accept fd => s.Vacant fd
  | .main => ∀ fd ∈ s.main.finding, ∀ job ∈ s.waiting, job.isTcpConnect = true → job.fd ≠ fd
  | _ => True

/-- A vacant number is one whose jobs leave no record. -/
theorem State.Vacant.outlook {s : State Unit} {fd : Nat} (h : s.Vacant fd) (hbase : Base s) :
    s.Tidy fd ∧ (s.outlook fd s.nextConn).record = none := by
  rcases h with ⟨hfind, hdone⟩ | ⟨a, -, hlast, hterm⟩
  · refine ⟨tidy_of_gone hbase.points.sound hfind hdone, ?_⟩
    rw [outlook_of_done hdone]
    exact Store.record_eq_none hfind
  · have hdoomed := hlast.doomed hterm (requestJobs_lt hbase.ordered)
    exact ⟨hdoomed.tidy, hdoomed.record⟩

/-! ## Steps -/

/-- A job that waits after another was put on `request_jobs`. -/
theorem State.mem_waiting_concat {s : State Unit} {job new : Job}
    (h : job ∈ (s.workers ()).adding.toList ++ (s.requestJobs ++ [new])) :
    job ∈ s.waiting ∨ job = new := by
  rw [← List.append_assoc, List.mem_append, List.mem_singleton] at h
  exact h

theorem waiting_of_step {s s' : State Unit} {a : Action Unit} (hconn : Connections s)
    (h : Step s a s') {job : Job} (hjob : job ∈ s'.waiting) :
    job ∈ s.waiting ∨ s'.kernel job.fd = some job.conn ∧ s'.main.ended = none := by
  cases h with
  | @request fd conn request locals failed hmain hopen hfd =>
    rcases State.mem_waiting_concat (s := s) hjob with hjob | rfl
    · exact Or.inl hjob
    · exact Or.inr ⟨hopen, congrArg MainPc.ended hmain⟩
  | @connect fd conn hmain =>
    rcases State.mem_waiting_concat (s := s) hjob with hjob | rfl
    · exact Or.inl hjob
    · exact Or.inr ⟨hconn.opened fd conn (by rw [hmain]; rfl), rfl⟩
  | @take i head jobs hpc hjobs =>
    left
    rw [State.waiting, State.goto_workers_self] at hjob
    rw [State.waiting, hpc, hjobs]
    exact hjob
  | put =>
    left
    rw [State.waiting, State.goto_workers_self] at hjob
    exact List.mem_append_right _ hjob
  | handle hstep =>
    left
    rw [State.waiting, State.goto_workers_self] at hjob
    rcases List.mem_append.1 hjob with hjob | hjob
    · have hadding := (adding_of_sessionStep hstep (Option.mem_toList.1 hjob)).1
      have hold := (WorkerPc.adding_of_lookingUp hadding).1
      exact List.mem_append_left _ (Option.mem_toList.2 hold)
    · exact List.mem_append_right _ hjob
  | _ => exact Or.inl hjob

/-- `terminate_session` goes on, or it has looked the session up. -/
theorem terminating_of_step {s s' : State Unit} {a : Action Unit} (h : Step s a s') {fd : Nat}
    (hterm : s'.main.terminating = some fd) :
    s.main.terminating = some fd ∨ a = .main ∧ s.main.finding = some fd := by
  cases h with
  | hit hmain | miss hmain =>
    cases hterm
    exact Or.inr ⟨rfl, by rw [hmain]; rfl⟩
  | insert hmain =>
    cases hterm
    exact Or.inl (by rw [hmain]; rfl)
  | accept | hangup | announce | connect | close | forget | mark => cases hterm
  | _ => exact Or.inl hterm

/-! ## Runs -/

/-- What is expected of the records of connections whose accept job is pending. -/
structure Expects (s : State Unit) : Prop where
  base : Base s
  live : ∀ job ∈ s.waiting, job.isTcpConnect = true →
    s.Current job.fd job.conn ∧ s.main.terminating ≠ some job.fd
  awaited : ∀ fd conn, s.Awaits fd conn → s.Tidy fd ∧ (s.outlook fd conn).record = none
  lookedUp : ∀ job, (s.workers ()).lookingUp = some job → job.isTcpConnect = true →
    s.Tidy job.fd ∧ s.store.find job.fd = none
  usesFresh : UsesFresh s

theorem expects_start : Expects start where
  base := base_start
  live _ h := by cases h
  awaited _ _ h := by rcases h with h | ⟨_, h, -⟩ <;> cases h
  lookedUp _ h := by cases h
  usesFresh _ _ h := by cases h

namespace Expects

variable {s s' : State Unit} {a : Action Unit}

/-- A connection whose accept job is pending is current, and its session not about to be marked. -/
theorem current (h : Expects s) {fd conn : Nat} (hawaits : s.Awaits fd conn) :
    s.Current fd conn ∧ s.main.terminating ≠ some fd := by
  rcases hawaits with hannouncing | ⟨job, hjob, hfirst, rfl, rfl⟩
  · cases hmain : s.main with
    | accepted fd' conn' | announced fd' conn' =>
      rw [hmain] at hannouncing
      cases hannouncing
      refine ⟨Or.inl (h.base.connections.opened fd conn (by rw [hmain]; rfl)), ?_⟩
      simp [MainPc.terminating]
    | _ =>
      rw [hmain] at hannouncing
      cases hannouncing
  · exact h.live job (List.mem_append_right _ hjob) hfirst

theorem live_of_adding (h : Expects s) {job : Job}
    (hadding : (s.workers ()).adding = some job) (hfirst : job.isTcpConnect = true) :
    s.main.terminating ≠ some job.fd :=
  (h.live job (List.mem_append_left _ (Option.mem_toList.2 hadding)) hfirst).2

theorem step_live (h : Expects s) (hok : FreshNumber s a) (hstep : Step s a s') {job : Job}
    (hjob : job ∈ s'.waiting) (hfirst : job.isTcpConnect = true) :
    s'.Current job.fd job.conn ∧ s'.main.terminating ≠ some job.fd := by
  rcases waiting_of_step h.base.connections hstep hjob with hjob | ⟨hopen, hended⟩
  · obtain ⟨hc, hterm⟩ := h.live job hjob hfirst
    have hc' : s'.Current job.fd job.conn := by
      rcases h.base.connections.current_or_mark hstep hc with hc' | ⟨-, x, hmain⟩
      · exact hc'
      · exact absurd (by rw [hmain]; rfl) hterm
    refine ⟨hc', fun hterm' => ?_⟩
    rcases terminating_of_step hstep hterm' with hold | ⟨rfl, hfinding⟩
    · exact hterm hold
    · exact hok job.fd hfinding job hjob hfirst rfl
  · refine ⟨Or.inl hopen, fun hterm => ?_⟩
    obtain ⟨conn, hc⟩ := MainPc.ended_of_terminating hterm
    cases hended.symm.trans hc

theorem step_awaited (h : Expects s) (hok : FreshNumber s a) (hstep : Step s a s') {fd conn : Nat}
    (hawaits : s'.Awaits fd conn) : s'.Tidy fd ∧ (s'.outlook fd conn).record = none := by
  rcases awaits_of_step hstep hawaits with hold | ⟨rfl, rfl⟩
  · obtain ⟨htidy, hrecord⟩ := h.awaited fd conn hold
    obtain ⟨hc, hterm⟩ := h.current hold
    have hopen : ∀ conn', s.kernel fd = some conn' → conn ≤ conn' := fun conn' hk =>
      Nat.le_of_eq (h.base.connections.current_unique hc (Or.inl hk))
    have hcont := outlook_of_step h.base hstep htidy (fun _ => hterm) hopen
      (next_of_awaits h.base.ordered hstep hold hawaits)
    exact ⟨hcont.tidy, by rw [hcont.record, hrecord]⟩
  · have hvacant : s.Tidy fd ∧ (s.outlook fd s.nextConn).record = none := hok.outlook h.base
    cases hstep
    exact hvacant

/-- The worker takes an accept job: no older job of its descriptor is left. -/
theorem take (h : Expects s) {job : Job} {jobs : List Job} (hpc : s.workers () = .idle)
    (hjobs : s.requestJobs = job :: jobs) (hfirst : job.isTcpConnect = true) :
    s.Tidy job.fd ∧ s.store.find job.fd = none := by
  have hawaits : s.Awaits job.fd job.conn :=
    Or.inr ⟨job, by simp [hjobs], hfirst, rfl, rfl⟩
  obtain ⟨htidy, hrecord⟩ := h.awaited job.fd job.conn hawaits
  rw [outlook_next h.base.ordered hpc hjobs] at hrecord
  exact ⟨htidy, Store.find_eq_none hrecord⟩

theorem step_lookedUp (h : Expects s) (hstep : Step s a s') {job : Job}
    (hlooking : (s'.workers ()).lookingUp = some job) (hfirst : job.isTcpConnect = true) :
    s'.Tidy job.fd ∧ s'.store.find job.fd = none := by
  by_cases ha : a = .worker ()
  · subst ha
    have htidy : s.Tidy job.fd → s'.Tidy job.fd := fun htidy =>
      tidy_of_step h.base hstep htidy (by simp)
    cases hstep with
    | take hpc hjobs =>
      rw [State.goto_workers_self] at hlooking
      cases hlooking
      exact (h.take hpc hjobs hfirst).imp_left htidy
    | put =>
      rw [State.goto_workers_self] at hlooking
      cases hlooking
    | handle hsession =>
      rw [State.goto_workers_self] at hlooking
      have hadding := (WorkerPc.adding_of_lookingUp hlooking).1
      obtain ⟨hold, hpc⟩ := adding_of_sessionStep hsession hadding
      obtain ⟨hbefore, hfind⟩ := h.lookedUp job hold hfirst
      rcases hpc with ⟨x, rfl, -⟩ | ⟨rfl, -⟩ | ⟨rfl, rfl⟩
      · cases hlooking
      · cases hlooking
      · exact ⟨htidy hbefore, hfind⟩
  · have hold : (s.workers ()).lookingUp = some job := by rwa [← workers_of_step hstep ha]
    obtain ⟨htidy, hfind⟩ := h.lookedUp job hold hfirst
    have hadding := (WorkerPc.adding_of_lookingUp hold).1
    have hterm : s.main.terminating ≠ some job.fd := h.live_of_adding hadding hfirst
    refine ⟨tidy_of_step h.base hstep htidy fun _ => hterm, ?_⟩
    rw [(h.base.frame hstep ha fun _ => hterm).1.find, hfind]

theorem step_usesFresh (h : Expects s) (hstep : Step s a s') : UsesFresh s' := by
  intro x job hpush hfirst
  by_cases ha : a = .worker ()
  · subst ha
    cases hstep with
    | take | put =>
      rw [State.goto_workers_self] at hpush
      cases hpush
    | @handle _ store pc hsession =>
      rw [State.goto_workers_self] at hpush
      subst hpush
      obtain ⟨hold, hpc⟩ := adding_of_sessionStep hsession rfl
      obtain ⟨-, hnone⟩ := h.lookedUp job hold hfirst
      rcases hpc with ⟨y, ⟨⟩, hfind, rfl⟩ | ⟨⟨⟩, rfl⟩ | ⟨⟨⟩, -⟩
      · cases hnone.symm.trans hfind
      · exact Store.memory_insert_self s.store job.fd
  · have hpush' : s.workers () = .push x job := by rwa [← workers_of_step hstep ha]
    have hadding : (s.workers ()).adding = some job := by rw [hpush']; rfl
    obtain ⟨hframe, -⟩ := h.base.frame hstep ha fun _ => h.live_of_adding hadding hfirst
    obtain ⟨hlt, hid⟩ := h.base.points.sound.pointer x (by rw [hpush']; rfl)
    rw [hpush'] at hid
    rw [hframe.memory x hlt (Option.some.inj hid).symm]
    exact h.usesFresh x job hpush' hfirst

theorem step (h : Expects s) (hok : FreshNumber s a) (hstep : Step s a s') : Expects s' where
  base := h.base.step hstep
  live _ hjob hfirst := h.step_live hok hstep hjob hfirst
  awaited _ _ hawaits := h.step_awaited hok hstep hawaits
  lookedUp _ hlooking hfirst := h.step_lookedUp hstep hlooking hfirst
  usesFresh := h.step_usesFresh hstep

end Expects

/-- **A new connection starts with a record of its own.** With one worker and any schedule whose
steps meet `FreshNumber`. -/
theorem usesFresh_of_run {as : List (Action Unit)} {s : State Unit}
    (run : Lts.Run exec FreshNumber start as s) : UsesFresh s :=
  (run.invariant (fun h hok hstep => h.step hok (step_of_exec hstep)) expects_start).usesFresh

instance (s : State Unit) (fd : Nat) : Decidable (s.Vacant fd) :=
  inferInstanceAs (Decidable (_ ∨ ∃ a ∈ s.store.find fd, _ ∧ _))

instance (s : State Unit) : ∀ a, Decidable (FreshNumber s a)
  | .accept fd => inferInstanceAs (Decidable (s.Vacant fd))
  | .main => inferInstanceAs (Decidable (∀ fd ∈ s.main.finding,
      ∀ job ∈ s.waiting, job.isTcpConnect = true → job.fd ≠ fd))
  | .request _ _ _ _ | .hangup _ | .worker _ | .responder => instDecidableTrue

/-- A client hangs up while a request of its is pending. The request is handled after the number
was taken up again, and takes the record with it. -/
def acceptAfterHangup : List (Action Unit) :=
  [.accept 4, .main, .main] ++ List.replicate 8 (.worker ()) ++
    .request 4 .dataGetState default false :: .hangup 4 :: List.replicate 4 .main ++
    [.accept 4, .main, .main] ++ List.replicate 12 (.worker ())

theorem usesFresh_acceptAfterHangup : ∃ s : State Unit,
    Lts.Run exec FreshNumber start acceptAfterHangup s ∧ (s.workers ()).session = some 1 ∧
      UsesFresh s := by
  have run : Lts.Run exec FreshNumber (start : State Unit) acceptAfterHangup _ :=
    Lts.Run.of_execWhile rfl
  exact ⟨_, run, rfl, usesFresh_of_run run⟩

/-- A client hangs up while nothing of it is pending, and its number is taken up again. -/
def acceptMarked : List (Action Unit) :=
  [.accept 4, .main, .main] ++ List.replicate 8 (.worker ()) ++
    .hangup 4 :: List.replicate 4 .main ++ [.accept 4, .main, .main] ++
    List.replicate 2 (.worker ())

/-- The new connection is given the marked record of the old one. -/
theorem not_usesFresh_acceptMarked : ∃ s : State Unit,
    Lts.Run exec (fun _ _ => True) start acceptMarked s ∧ ¬ UsesFresh s := by
  refine ⟨_, Lts.Run.of_execAll rfl, fun h => ?_⟩
  exact absurd (h 0 _ rfl rfl) (by decide)

end Pipeline

end GlfsNdmp
