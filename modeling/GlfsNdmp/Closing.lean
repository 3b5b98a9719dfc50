import GlfsNdmp.Backlog

/-!
# What is left of a closed connection

`terminate_session` marks the record of a session; the last job to be done takes the record out of
the registry. When no job of the session is pending, nobody does; when more than one is, the first
takes the record and the next is given a new, unmarked one. `closed_of_run` says that with exactly
one job pending all is well: no reply to a request of the connection is let through after the mark,
and once all jobs are done no record of a closed session is left.
-/

namespace GlfsNdmp

namespace WorkerPc

/-- The job a worker has in hand, up to the removal of the record. -/
def unfinished : WorkerPc → Option Job
  | .find _ job | .insert _ job | .push _ job | .access _ _ job | .pop _ job | .test _ job
  | .count _ job | .unqueue _ job => some job
  | .release _ _ | .idle | .reply _ => none

/-- What the worker's job adds to `session->jobs`. -/
def counted : WorkerPc → List Nat
  | .find .add _ | .insert .add _ => []
  | .find _ job | .insert _ job | .access _ _ job | .pop _ job => [job.address]
  | _ => []

/-- What the worker's job adds to the jobs of the session `d`. -/
def countedFor (pc : WorkerPc) (d : Nat) : List Nat := if pc.fd = some d then pc.counted else []

theorem handling_of_unfinished {pc : WorkerPc} {job : Job} (h : pc.unfinished = some job) :
    pc.handling = some job := by
  cases pc with
  | idle | release | reply => cases h
  | _ =>
    cases h
    rfl

theorem fd_of_unfinished {pc : WorkerPc} {job : Job} (h : pc.unfinished = some job) :
    pc.fd = some job.fd :=
  fd_of_handling (handling_of_unfinished h)

/-- A job at work on a marked record takes it out of the registry, if it is the only one. -/
theorem outcome_of_terminated {pc : WorkerPc} {job : Job} {r : SessionInfo}
    (h : pc.unfinished = some job) (hterm : r.isTerminated = true) (hjobs : r.jobs = pc.counted) :
    pc.outcome (some r) = ⟨none, []⟩ := by
  cases pc with
  | idle | release | reply => cases h
  | find purpose job | insert purpose job =>
    cases purpose with
    | add => exact job.add_of_terminated hterm hjobs
    | handle => exact job.handle_of_terminated hterm hjobs
    | clean => exact job.cleanup_of_terminated hterm hjobs
  | push a job => exact job.add_of_terminated hterm hjobs
  | access a prog job =>
    obtain ⟨-, hjobs', hterm'⟩ := prog.run_frame r
    exact job.cleanup_of_terminated (hterm'.trans hterm) (hjobs'.trans hjobs)
  | pop a job => exact job.cleanup_of_terminated hterm hjobs
  | test a job => exact job.finish_of_terminated hterm hjobs
  | count a job => exact congrArg (Outcome.mk · []) (if_pos hjobs)
  | unqueue => rfl

/-- A worker that has nothing left to do for `d` leaves its record, and counts nowhere. -/
theorem outcomeFor_of_finished {pc : WorkerPc} {d : Nat}
    (h : ∀ job, pc.unfinished = some job → job.fd ≠ d) (r : Option SessionInfo) :
    pc.outcomeFor d r = ⟨r, pc.replying.toList.filter (·.fd == d)⟩ ∧ pc.countedFor d = [] := by
  cases hunfinished : pc.unfinished with
  | some job =>
    have hd : pc.fd ≠ some d := by
      rw [fd_of_unfinished hunfinished]
      exact fun heq => h job hunfinished (Option.some.inj heq)
    have hreply := replying_of_handling (handling_of_unfinished hunfinished)
    rw [outcomeFor_other hd, hreply]
    exact ⟨rfl, if_neg hd⟩
  | none =>
    cases pc with
    | idle => exact ⟨rfl, rfl⟩
    | release a job =>
      unfold outcomeFor countedFor
      split <;> exact ⟨rfl, rfl⟩
    | reply job =>
      refine ⟨Pipeline.outcomeFor_reply job d r, ?_⟩
      unfold countedFor
      split <;> rfl
    | _ => cases hunfinished

end WorkerPc

namespace Pipeline

/-- The jobs of `d` that are still to be done. -/
def State.unfinished (s : State Unit) (d : Nat) : List Job :=
  ((s.workers ()).unfinished.toList ++ s.requestJobs).filter (·.fd == d)

theorem State.mem_unfinished {s : State Unit} {d : Nat} {job : Job} :
    job ∈ s.unfinished d ↔
      ((s.workers ()).unfinished = some job ∨ job ∈ s.requestJobs) ∧ job.fd = d := by
  simp [State.unfinished, or_and_right]

/-- At the record `a`, which is about to be marked, exactly one job is still to be done. -/
structure State.LastJob (s : State Unit) (d a : Nat) : Prop where
  tidy : s.Tidy d
  found : s.store.find d = some a
  counted : (s.store.memory a).jobs = (s.workers ()).countedFor d
  last : (s.unfinished d).length = 1

/-- The record `terminate_session` is about to mark. -/
def MainPc.marking : MainPc → Option (Nat × Nat)
  | .mark fd _ session => some (fd, session)
  | _ => none

/-- A record is marked while exactly one job of its session is still to be done. -/
def MarksLast (s : State Unit) : Action Unit → Prop
  | .main => ∀ p ∈ s.main.marking, s.LastJob p.1 p.2
  | _ => True

/-- Handling the jobs of `d` that are older than a connection leaves no record and lets no further
reply through. -/
structure State.Doomed (s : State Unit) (d conn : Nat) : Prop where
  tidy : s.Tidy d
  record : (s.outlook d conn).record = none
  replies : (s.outlook d conn).replies = s.replyFor d

/-! ## Doomed sessions -/

theorem State.Doomed.of_continues {s s' : State Unit} {d conn : Nat} (h : s.Doomed d conn)
    (hcont : s.Continues d conn s') : s'.Doomed d conn where
  tidy := hcont.tidy
  record := hcont.record.trans h.record
  replies := by
    rcases hcont.replies with ⟨heq, hnone | hsame⟩ | ⟨heq, hnone⟩
    · have hprefix := replyFor_prefix s' d conn
      rw [heq, h.replies, hnone] at hprefix ⊢
      exact (List.prefix_nil.1 hprefix).symm
    · rw [heq, hsame, h.replies]
    · rw [h.replies] at heq
      rw [hnone]
      exact List.self_eq_append_right.1 heq

/-- Younger jobs there are none of do not count. -/
theorem State.Doomed.mono {s : State Unit} {d conn conn' : Nat} (h : s.Doomed d conn)
    (hjobs : ∀ job ∈ s.requestJobs, job.conn < conn) (hle : conn ≤ conn') : s.Doomed d conn' := by
  have hbacklog : s.backlog d conn' = s.backlog d conn := by
    refine List.filter_congr fun job hjob => ?_
    have hlt := hjobs job hjob
    simp [older, hlt, Nat.lt_of_lt_of_le hlt hle]
  have houtlook : s.outlook d conn' = s.outlook d conn := by
    rw [State.outlook, State.outlook, hbacklog]
  exact ⟨h.tidy, by rw [houtlook, h.record], by rw [houtlook, h.replies]⟩

/-- The replies of doomed jobs are dropped at the test: the record is marked. -/
theorem State.Doomed.test {s : State Unit} {d conn a : Nat} {job : Job} (h : s.Doomed d conn)
    (hsound : s.store.Sound (s.workers ())) (hpc : s.workers () = .test a job) (hfd : job.fd = d)
    (hterm : (s.store.memory a).isTerminated = false) : job.replyEmpty = true := by
  have hprefix := test_prefix conn h.tidy hsound hpc hfd hterm
  rw [h.replies, State.replyFor, hpc] at hprefix
  by_contra hempty
  rw [if_neg hempty] at hprefix
  cases List.prefix_nil.1 hprefix

/-- Where there is no record of a doomed session, all its jobs are done. -/
theorem State.Doomed.finished {s : State Unit} {d conn : Nat} (h : s.Doomed d conn)
    (hsound : s.store.Sound (s.workers ())) (hfind : s.store.find d = none) {job : Job}
    (hjob : job ∈ s.unfinished d) : conn ≤ job.conn := by
  obtain ⟨hjob, hfd⟩ := State.mem_unfinished.1 hjob
  have hnone := Store.record_eq_none hfind
  have hrecord := h.record
  rw [State.outlook, hnone] at hrecord
  by_cases hpc : ∃ job', (s.workers ()).unfinished = some job' ∧ job'.fd = d
  · -- the worker has no record to point to, so it is looking one up, and will leave one
    exfalso
    obtain ⟨job', hunfinished, hfd'⟩ := hpc
    have hself : (s.workers ()).fd = some d := by
      rw [WorkerPc.fd_of_unfinished hunfinished, hfd']
    rw [WorkerPc.outcomeFor_self hself] at hrecord
    have hpointer : (s.workers ()).session = none := by
      cases hsession : (s.workers ()).session with
      | none => rfl
      | some a =>
        have hid := (hsound.pointer a hsession).2
        rw [hself] at hid
        have hrelease : (s.workers ()).releases = none := by
          cases hpc : s.workers () with
          | release =>
            rw [hpc] at hunfinished
            cases hunfinished
          | _ => rfl
        cases hfind.symm.trans (h.tidy.held a hsession hrelease (Option.some.inj hid).symm)
    cases hpc : s.workers () with
    | find purpose k | insert purpose k =>
      rw [hpc] at hrecord
      obtain ⟨⟨r, hr, hterm⟩, -⟩ :=
        k.afterLookup_lets purpose (k.found_not_terminated (r := none) (by simp))
      exact Outcome.settle_not_terminated hr hterm _ hrecord
    | idle | release | reply =>
      rw [hpc] at hunfinished
      cases hunfinished
    | _ =>
      rw [hpc] at hpointer
      cases hpointer
  · rcases hjob with hjob | hjob
    · exact absurd ⟨job, hjob, hfd⟩ hpc
    · have hfinished : ∀ job', (s.workers ()).unfinished = some job' → job'.fd ≠ d :=
        fun job' h hfd => hpc ⟨job', h, hfd⟩
      rw [(WorkerPc.outcomeFor_of_finished hfinished none).1] at hrecord
      have hbacklog := Outcome.settle_none rfl hrecord
      by_contra hlt
      have hmem : job ∈ s.backlog d conn :=
        List.mem_filter.2 ⟨hjob, older_iff.2 ⟨hfd, Nat.lt_of_not_le hlt⟩⟩
      rw [hbacklog] at hmem
      cases hmem

/-- **The last job of a marked record takes it away.** -/
theorem State.LastJob.doomed {s : State Unit} {d conn a : Nat} (h : s.LastJob d a)
    (hterm : (s.store.memory a).isTerminated = true)
    (hjobs : ∀ job ∈ s.requestJobs, job.conn < conn) : s.Doomed d conn := by
  have hbacklog : s.backlog d conn = s.requestJobs.filter (·.fd == d) := by
    refine List.filter_congr fun job hjob => ?_
    simp [older, hjobs job hjob]
  have hlast := h.last
  rw [State.unfinished, List.filter_append] at hlast
  suffices houtlook : s.outlook d conn = ⟨none, s.replyFor d⟩ from
    ⟨h.tidy, congrArg Outcome.record houtlook, congrArg Outcome.replies houtlook⟩
  rw [State.outlook, State.replyFor, hbacklog, Store.record_of_find h.found]
  by_cases hpc : ∃ job, (s.workers ()).unfinished = some job ∧ job.fd = d
  · -- the last job is the worker's
    obtain ⟨job, hunfinished, hfd⟩ := hpc
    have hself : (s.workers ()).fd = some d := by rw [WorkerPc.fd_of_unfinished hunfinished, hfd]
    have hcounted : (s.store.memory a).jobs = (s.workers ()).counted :=
      h.counted.trans (if_pos hself)
    have hqueue : s.requestJobs.filter (·.fd == d) = [] := by
      simpa [hunfinished, hfd] using hlast
    rw [hqueue, WorkerPc.outcomeFor_self hself,
      WorkerPc.outcome_of_terminated hunfinished hterm hcounted,
      WorkerPc.replying_of_handling (WorkerPc.handling_of_unfinished hunfinished)]
    rfl
  · -- the last job is in the queue
    have hfinished : ∀ job, (s.workers ()).unfinished = some job → job.fd ≠ d :=
      fun job h hfd => hpc ⟨job, h, hfd⟩
    obtain ⟨houtcome, hcounted⟩ :=
      WorkerPc.outcomeFor_of_finished hfinished (some (s.store.memory a))
    have hnone : (s.workers ()).unfinished.toList.filter (·.fd == d) = [] := by
      rw [List.filter_eq_nil_iff]
      intro job hjob
      simpa using hfinished job (Option.mem_toList.1 hjob)
    rw [hnone, List.nil_append] at hlast
    obtain ⟨job, hjob⟩ := List.length_eq_one_iff.1 hlast
    have hadd : job.outcome (some (s.store.memory a)) = ⟨none, []⟩ :=
      job.add_of_terminated hterm (h.counted.trans hcounted)
    rw [hjob, houtcome, Outcome.settle_mk, Outcome.settle_cons, Outcome.next, hadd]
    simp [Outcome.settle]

/-- `terminate_session` marks the record while one job is still to be done. -/
theorem State.LastJob.terminate {s s' : State Unit} {d conn a : Nat} (h : s.LastJob d a)
    (hjobs : ∀ job ∈ s.requestJobs, job.conn < conn)
    (hstore : s'.store = s.store.modify a SessionInfo.terminate) (hworkers : s'.workers = s.workers)
    (hrequests : s'.requestJobs = s.requestJobs) : s'.Doomed d conn := by
  have hworks := s.store.works_modify a fun r => (rfl : r.terminate.sessionId = r.sessionId)
  have hmemory : s'.store.memory a = (s.store.memory a).terminate := by
    rw [hstore, Store.memory_modify_self]
  have hlast : s'.LastJob d a := by
    refine ⟨?_, ?_, ?_, ?_⟩
    · rw [State.Tidy, hstore, hworkers]
      exact h.tidy.works hworks
    · rw [hstore, hworks.find, h.found]
    · rw [hmemory, hworkers]
      exact h.counted
    · rw [State.unfinished, hworkers, hrequests]
      exact h.last
  exact hlast.doomed (by rw [hmemory]; rfl) (hrequests ▸ hjobs)

/-- Where no job of a session is still to be done, its record is what will be left. -/
theorem outlook_of_done {s : State Unit} {d : Nat} (h : s.unfinished d = []) (conn : Nat) :
    s.outlook d conn = ⟨s.store.record d, s.replyFor d⟩ := by
  have hnot : ∀ job, (s.workers ()).unfinished = some job ∨ job ∈ s.requestJobs → job.fd ≠ d := by
    intro job hjob hfd
    have hmem : job ∈ s.unfinished d := State.mem_unfinished.2 ⟨hjob, hfd⟩
    rw [h] at hmem
    cases hmem
  have hbacklog : s.backlog d conn = [] := by
    refine List.filter_eq_nil_iff.2 fun job hjob hold => ?_
    exact hnot job (Or.inr hjob) (older_iff.1 hold).1
  rw [State.outlook, hbacklog,
    (WorkerPc.outcomeFor_of_finished (fun job hjob => hnot job (Or.inl hjob)) _).1]
  rfl

/-- A session of which nothing is left. -/
theorem tidy_of_gone {s : State Unit} {d : Nat} (hsound : s.store.Sound (s.workers ()))
    (hfind : s.store.find d = none) (hdone : s.unfinished d = []) : s.Tidy d where
  only a ha hid := by
    have hcompare := List.find?_eq_none.1 hfind a ha
    exact absurd (by simpa [Store.compare] using hid) hcompare
  held a ha hrelease hid := by
    exfalso
    have hfd := (hsound.pointer a ha).2
    rw [hid] at hfd
    obtain ⟨job, hjob⟩ : ∃ job, (s.workers ()).unfinished = some job := by
      cases hpc : s.workers () with
      | idle | find | insert | reply =>
        rw [hpc] at ha
        cases ha
      | release =>
        rw [hpc] at hrelease
        cases hrelease
      | _ => exact ⟨_, rfl⟩
    have hd : job.fd = d :=
      Option.some.inj ((WorkerPc.fd_of_unfinished hjob).symm.trans hfd)
    have hmem : job ∈ s.unfinished d := State.mem_unfinished.2 ⟨Or.inl hjob, hd⟩
    rw [hdone] at hmem
    cases hmem
  missed _ _ _ := hfind

/-! ## Steps -/

theorem unfinished_of_sessionStep {st st' : Store} {pc pc' : WorkerPc} {job : Job}
    (h : sessionStep st pc = some (st', pc')) (hunfinished : pc'.unfinished = some job) :
    pc.unfinished = some job := by
  obtain ⟨job', hjob', hpc'⟩ := sessionStep_cases h
  have hhandling := WorkerPc.handling_of_unfinished hunfinished
  rcases hpc' with hpc' | rfl | ⟨a, -, -, -, rfl⟩
  · cases hpc'.symm.trans hhandling
    cases pc with
    | idle | reply => cases h
    | release =>
      cases h
      cases hunfinished
    | _ => exact hjob'
  · cases hunfinished
  · cases hunfinished

/-- New jobs are of the connection that is open. -/
theorem unfinished_of_step {s s' : State Unit} {a : Action Unit} (hconn : Connections s)
    (h : Step s a s') {d : Nat} {job : Job} (hjob : job ∈ s'.unfinished d) :
    job ∈ s.unfinished d ∨ s.kernel d = some job.conn ∧ s.main.ended = none := by
  obtain ⟨hjob, hfd⟩ := State.mem_unfinished.1 hjob
  have hmem : (s.workers ()).unfinished = some job ∨ job ∈ s.requestJobs →
      job ∈ s.unfinished d ∨ s.kernel d = some job.conn ∧ s.main.ended = none :=
    fun h => Or.inl (State.mem_unfinished.2 ⟨h, hfd⟩)
  -- A step that only puts a job on `request_jobs`.
  have hput : ∀ {new : Job}, (s.workers ()).unfinished = some job ∨ job ∈ s.requestJobs ++ [new] →
      (job = new → s.kernel d = some job.conn ∧ s.main.ended = none) →
      job ∈ s.unfinished d ∨ s.kernel d = some job.conn ∧ s.main.ended = none := by
    intro new hjob hnew
    rw [List.mem_append, ← or_assoc, List.mem_singleton] at hjob
    rcases hjob with hjob | hjob
    · exact hmem hjob
    · exact Or.inr (hnew hjob)
  cases h with
  | request hmain hopen =>
    refine hput hjob fun hnew => ?_
    cases hnew
    exact ⟨hfd ▸ hopen, by rw [hmain]; rfl⟩
  | @connect fd conn hmain =>
    refine hput hjob fun hnew => ?_
    cases hnew
    exact ⟨hfd ▸ hconn.opened fd conn (by rw [hmain]; rfl), by rw [hmain]; rfl⟩
  | take hpc hjobs =>
    rw [State.goto_workers_self] at hjob
    refine hmem (Or.inr ?_)
    rw [hjobs]
    rcases hjob with hjob | hjob
    · cases hjob
      exact List.mem_cons_self
    · exact List.mem_cons_of_mem _ hjob
  | put =>
    rw [State.goto_workers_self] at hjob
    rcases hjob with ⟨⟨⟩⟩ | hjob
    exact hmem (Or.inr hjob)
  | handle hstep =>
    rw [State.goto_workers_self] at hjob
    exact hmem (hjob.imp_left (unfinished_of_sessionStep hstep))
  | _ => exact hmem hjob

theorem requestJobs_lt {s : State Unit} (h : Ordered s) :
    ∀ job ∈ s.requestJobs, job.conn < s.nextConn :=
  fun job hjob => h.conn_lt job (List.mem_append_right _ hjob)

theorem nextConn_or_requestJobs {s s' : State Unit} {a : Action Unit} (h : Step s a s') :
    s'.nextConn = s.nextConn ∨ s'.requestJobs = s.requestJobs := by
  cases h with
  | accept => exact Or.inr rfl
  | _ => exact Or.inl rfl

theorem accepted_of_step {s s' : State Unit} {a : Action Unit} (h : Step s a s') {d conn : Nat}
    (hmain : s'.main = .accepted d conn) :
    s.main = .accepted d conn ∨ a = .accept d ∧ conn = s.nextConn := by
  cases h with
  | accept =>
    cases hmain
    exact Or.inr ⟨rfl, rfl⟩
  | hangup | announce | connect | close | forget | hit | miss | insert | mark => cases hmain
  | _ => exact Or.inl hmain

theorem insert_of_step {s s' : State Unit} {a : Action Unit} (h : Step s a s') {d conn : Nat}
    (hmain : s'.main = .insert d conn) :
    s.main = .insert d conn ∨ s.main = .find d conn ∧ s.store.find d = none ∧
      s'.unfinished d = s.unfinished d := by
  cases h with
  | miss hfinding hfind =>
    cases hmain
    exact Or.inr ⟨hfinding, hfind, rfl⟩
  | accept | hangup | announce | connect | close | forget | hit | insert | mark => cases hmain
  | _ => exact Or.inl hmain

/-! ## Runs -/

/-- What holds of closed sessions and of jobs that have outlived their connection. -/
structure Closes (s : State Unit) : Prop where
  base : Base s
  gone : ∀ d, (∀ conn, ¬ s.Current d conn) → s.Doomed d s.nextConn
  accepted : ∀ d conn, s.main = .accepted d conn → s.Doomed d conn
  stale : ∀ d conn, s.Current d conn → ∀ job ∈ s.unfinished d, job.conn < conn → s.Doomed d conn
  inserting : ∀ d conn, s.main = .insert d conn → ∀ job ∈ s.unfinished d, conn ≤ job.conn

theorem closes_start : Closes start where
  base := base_start
  gone _ _ := ⟨⟨fun _ h => (by cases h), fun _ h => (by cases h), fun _ h => by cases h⟩, rfl, rfl⟩
  accepted _ _ h := by cases h
  stale _ _ _ _ h := by cases h
  inserting _ _ h := by cases h

namespace Closes

variable {s s' : State Unit} {a : Action Unit}

theorem step_gone (h : Closes s) (hok : MarksLast s a) (hstep : Step s a s') {d : Nat}
    (hd : ∀ conn, ¬ s'.Current d conn) : s'.Doomed d s'.nextConn := by
  by_cases hcurrent : ∃ conn, s.Current d conn
  · obtain ⟨conn, hc⟩ := hcurrent
    rcases h.base.connections.current_or_mark hstep hc with hc | ⟨rfl, x, hmain⟩
    · exact absurd hc (hd conn)
    · have hlast : s.LastJob d x := hok (d, x) (by rw [hmain]; rfl)
      cases hstep with
      | mark hmain' =>
        cases hmain.symm.trans hmain'
        exact hlast.terminate (requestJobs_lt h.base.ordered) rfl rfl rfl
      | announce hmain' | connect hmain' | close hmain' | forget hmain' | hit hmain'
      | miss hmain' | insert hmain' => cases hmain.symm.trans hmain'
  · have hgone : ∀ conn, ¬ s.Current d conn := fun conn hc => hcurrent ⟨conn, hc⟩
    have hdoomed := h.gone d hgone
    have hterm : s.main.terminating ≠ some d := fun hterm =>
      let ⟨conn, hended⟩ := MainPc.ended_of_terminating hterm
      hgone conn (Or.inr hended)
    have hcont := outlook_of_step h.base hstep hdoomed.tidy (fun _ => hterm)
      (fun conn hopen => absurd (Or.inl hopen) (hgone conn)) fun job jobs _ hjobs _ _ =>
        requestJobs_lt h.base.ordered job (hjobs ▸ List.mem_cons_self)
    have hdoomed' := hdoomed.of_continues hcont
    rcases nextConn_or_requestJobs hstep with hnext | hjobs
    · rwa [hnext]
    · refine hdoomed'.mono (fun job hjob => ?_) (nextConn_le hstep)
      exact requestJobs_lt h.base.ordered job (hjobs ▸ hjob)

/-- A number that is taken up again is one of a closed session. -/
theorem accept (h : Closes s) {d : Nat} (hstep : Step s (.accept d) s') :
    s'.Doomed d s.nextConn := by
  cases hstep with
  | accept hidle hfree =>
    have hdoomed : s.Doomed d s.nextConn := by
      refine h.gone d fun conn hc => ?_
      rcases hc with hc | hc
      · cases hfree.symm.trans hc
      · rw [hidle] at hc
        cases hc
    exact ⟨hdoomed.tidy, hdoomed.record, hdoomed.replies⟩

theorem step_accepted (h : Closes s) (hstep : Step s a s') {d conn : Nat}
    (hmain' : s'.main = .accepted d conn) : s'.Doomed d conn := by
  rcases accepted_of_step hstep hmain' with hmain | ⟨rfl, rfl⟩
  · have hdoomed := h.accepted d conn hmain
    have hannouncing : s.main.announcing = some (d, conn) := by rw [hmain]; rfl
    have hopen := h.base.connections.opened d conn (by rw [hmain]; rfl)
    refine hdoomed.of_continues (outlook_of_step h.base hstep hdoomed.tidy ?_ ?_ ?_)
    · intro _ hterm
      rw [hmain] at hterm
      cases hterm
    · intro conn' hopen'
      exact Nat.le_of_eq (Option.some.inj (hopen.symm.trans hopen'))
    · intro job jobs _ hjobs _ hfd
      refine h.base.ordered.announced d conn hannouncing job ?_ hfd
      exact List.mem_append_right _ (hjobs ▸ List.mem_cons_self)
  · exact h.accept hstep

/-- An older job is not taken after a younger one. -/
theorem next_older (h : Closes s) {d conn : Nat} (hc : s.Current d conn) {k : Job}
    (hk : k ∈ s'.unfinished d) (hlt : k.conn < conn) (hstep : Step s a s') :
    ∀ job jobs, s.workers () = .idle → s.requestJobs = job :: jobs → s'.requestJobs = jobs →
      job.fd = d → job.conn < conn := by
  intro job jobs hpc hjobs hjobs' hfd
  have hpending : s.pending = job :: jobs := by rw [State.pending, hpc, hjobs]; rfl
  have hle : job.conn ≤ conn := h.base.ordered.current job (by simp [hpending]) conn (hfd ▸ hc)
  obtain ⟨hk, hkfd⟩ := State.mem_unfinished.1 hk
  have hmem : k = job ∨ k ∈ jobs := by
    rcases hk with hk | hk
    · left
      cases hstep with
      | take hpc' htaken =>
        rw [State.goto_workers_self] at hk
        cases hk
        exact (List.cons.inj (htaken.symm.trans hjobs)).1
      | put hpc' => cases hpc.symm.trans hpc'
      | handle hstep =>
        rw [hpc] at hstep
        cases hstep
      | _ =>
        rw [hpc] at hk
        cases hk
    · exact Or.inr (hjobs' ▸ hk)
  rcases hmem with rfl | hmem
  · exact hlt
  · have hbefore := h.base.ordered.before
    rw [hpending] at hbefore
    rcases List.rel_of_pairwise_cons hbefore hmem (hfd.trans hkfd.symm) with hlt' | ⟨heq, -⟩
    · exact Nat.lt_trans hlt' hlt
    · exact heq ▸ hlt

theorem step_stale (h : Closes s) (hstep : Step s a s') {d conn : Nat} (hc : s'.Current d conn)
    {job : Job} (hjob : job ∈ s'.unfinished d) (hlt : job.conn < conn) : s'.Doomed d conn := by
  rcases h.base.connections.current_of_step hstep hc with hold | ⟨rfl, rfl⟩
  · have hjob' : job ∈ s.unfinished d := by
      rcases unfinished_of_step h.base.connections hstep hjob with hjob | ⟨hopen, -⟩
      · exact hjob
      · have heq := h.base.connections.current_unique hold (Or.inl hopen)
        exact absurd heq.symm (Nat.ne_of_lt hlt)
    have hdoomed := h.stale d conn hold job hjob' hlt
    refine hdoomed.of_continues (outlook_of_step h.base hstep hdoomed.tidy ?_ ?_ ?_)
    · rintro rfl hterm
      cases hmain : s.main with
      | insert fd conn' =>
        rw [hmain] at hterm
        cases hterm
        have heq := h.base.connections.current_unique hold (Or.inr (by rw [hmain]; rfl))
        exact Nat.not_lt.2 (h.inserting d conn' hmain job hjob') (heq ▸ hlt)
      | mark fd conn' x =>
        rw [hmain] at hterm
        cases hterm
        cases hstep with
        | mark hmain' =>
          rcases hc with hc | ⟨⟨⟩⟩
          cases (h.base.connections.ended d conn' (by rw [hmain]; rfl)).symm.trans hc
        | announce hmain' | connect hmain' | close hmain' | forget hmain' | hit hmain'
        | miss hmain' | insert hmain' => cases hmain.symm.trans hmain'
      | _ =>
        rw [hmain] at hterm
        cases hterm
    · intro conn' hopen
      exact Nat.le_of_eq (h.base.connections.current_unique hold (Or.inl hopen))
    · exact h.next_older hold hjob hlt hstep
  · exact h.accept hstep

theorem step_inserting (h : Closes s) (hstep : Step s a s') {d conn : Nat}
    (hmain' : s'.main = .insert d conn) {job : Job} (hjob : job ∈ s'.unfinished d) :
    conn ≤ job.conn := by
  by_contra hle
  have hlt := Nat.lt_of_not_le hle
  rcases insert_of_step hstep hmain' with hmain | ⟨hmain, hfind, hsame⟩
  · have hjob' : job ∈ s.unfinished d := by
      rcases unfinished_of_step h.base.connections hstep hjob with hjob | ⟨-, hended⟩
      · exact hjob
      · rw [hmain] at hended
        cases hended
    exact hle (h.inserting d conn hmain job hjob')
  · rw [hsame] at hjob
    have hc : s.Current d conn := Or.inr (by rw [hmain]; rfl)
    exact hle ((h.stale d conn hc job hjob hlt).finished h.base.points.sound hfind hjob)

theorem step (h : Closes s) (hok : MarksLast s a) (hstep : Step s a s') : Closes s' where
  base := h.base.step hstep
  gone _ hd := h.step_gone hok hstep hd
  accepted _ _ hmain := h.step_accepted hstep hmain
  stale _ _ hc _ hjob hlt := h.step_stale hstep hc hjob hlt
  inserting _ _ hmain _ hjob := h.step_inserting hstep hmain hjob

/-- No reply to a terminated connection is let through. -/
theorem test_terminated (h : Closes s) {x : Nat} {job : Job} (hpc : s.workers () = .test x job)
    (hterm : (s.store.memory x).isTerminated = false) (hempty : job.replyEmpty = false) :
    job.conn ∉ s.terminated := by
  intro hconn
  have hjob : (s.workers ()).unfinished = some job := by rw [hpc]; rfl
  have hdoomed : ∃ conn, s.Doomed job.fd conn := by
    by_cases hcurrent : ∃ conn, s.Current job.fd conn
    · obtain ⟨conn, hc⟩ := hcurrent
      have hpending : job ∈ s.pending :=
        List.mem_append_left _ (Option.mem_toList.2 (WorkerPc.handling_of_unfinished hjob))
      have hle := h.base.ordered.current job hpending conn hc
      have hne : job.conn ≠ conn := fun heq =>
        (h.base.connections.terminated job.conn hconn).2 job.fd (heq ▸ hc)
      have hmem : job ∈ s.unfinished job.fd := State.mem_unfinished.2 ⟨Or.inl hjob, rfl⟩
      exact ⟨conn, h.stale job.fd conn hc job hmem (Nat.lt_of_le_of_ne hle hne)⟩
    · exact ⟨_, h.gone job.fd fun conn hc => hcurrent ⟨conn, hc⟩⟩
  obtain ⟨conn, hdoomed⟩ := hdoomed
  have hdropped := hdoomed.test h.base.points.sound hpc rfl hterm
  rw [hempty] at hdropped
  cases hdropped

end Closes

/-- The requests of a connection whose replies have been let through: they are on `reply_jobs`, or
were, or the worker is about to put them there. -/
def State.letThrough (s : State Unit) (conn : Nat) : List Job :=
  (s.replied ++ (s.workers ()).replying.toList).filter (·.conn == conn)

/-- From `s` to `t`, no reply to a connection whose session was terminated in `s` is let through. -/
def NoLateReply (s t : State Unit) : Prop :=
  ∀ conn ∈ s.terminated, t.letThrough conn = s.letThrough conn

/-- `terminate_session` is running. -/
def MainPc.inTerminate : MainPc → Option Nat
  | .find fd _ | .insert fd _ | .mark fd _ _ => some fd
  | _ => none

/-- When no request waits and none is handled, the registry holds records of the sessions in
`ctx->sessions` only, and of the one that is being terminated. -/
def NoneLeft (s : State Unit) : Prop :=
  s.requestJobs = [] → (s.workers ()).handling = none → ∀ a ∈ s.store.registry,
    (s.store.memory a).sessionId ∈ s.sessions ∨
      s.main.inTerminate = some (s.store.memory a).sessionId

theorem terminated_mono {s s' : State Unit} {a : Action Unit} (h : Step s a s') :
    s.terminated ⊆ s'.terminated := by
  cases h with
  | mark => exact List.subset_append_left _ _
  | _ => exact List.Subset.refl _

theorem Closes.letThrough {s s' : State Unit} {a : Action Unit} (h : Closes s)
    (hstep : Step s a s') {conn : Nat} (hconn : conn ∈ s.terminated) :
    s'.letThrough conn = s.letThrough conn := by
  cases hstep with
  | take hpc =>
    rw [State.letThrough, State.letThrough, State.goto_workers_self, hpc]
    rfl
  | put hpc =>
    rw [State.letThrough, State.letThrough, State.goto_workers_self, hpc]
    exact congrArg (List.filter _) (List.append_nil _)
  | handle hsession =>
    obtain ⟨job, hjob, hpc⟩ := sessionStep_cases hsession
    rw [State.letThrough, State.letThrough, State.goto_workers_self,
      WorkerPc.replying_of_handling hjob]
    rcases hpc with hpc | rfl | ⟨x, htest, hterm, hempty, rfl⟩
    · rw [WorkerPc.replying_of_handling hpc]
      rfl
    · rfl
    · have hne : job.conn ≠ conn := fun heq =>
        h.test_terminated htest hterm hempty (heq ▸ hconn)
      simp [WorkerPc.replying, State.goto, hne]
  | _ => rfl

theorem Closes.noneLeft {s : State Unit} (h : Closes s) : NoneLeft s := by
  intro hjobs hhandling a ha
  by_contra hnot
  obtain ⟨hsession, hterminate⟩ := not_or.1 hnot
  have hdoomed : ∃ conn, s.Doomed (s.store.memory a).sessionId conn := by
    by_cases hcurrent : ∃ conn, s.Current (s.store.memory a).sessionId conn
    · obtain ⟨conn, hc | hc⟩ := hcurrent
      · rcases h.base.connections.mem_sessions _ conn hc with hmain | hmem
        · exact ⟨conn, h.accepted _ conn hmain⟩
        · exact absurd hmem hsession
      · cases hmain : s.main with
        | closed fd conn' =>
          rw [hmain] at hc
          cases hc
          exact absurd (h.base.connections.closed _ conn hmain) hsession
        | find | insert | mark =>
          rw [hmain] at hc hterminate
          cases hc
          exact absurd rfl hterminate
        | _ =>
          rw [hmain] at hc
          cases hc
    · exact ⟨_, h.gone _ fun conn hc => hcurrent ⟨conn, hc⟩⟩
  obtain ⟨conn, hdoomed⟩ := hdoomed
  have hfinished : ∀ job, (s.workers ()).unfinished = some job →
      job.fd ≠ (s.store.memory a).sessionId := by
    intro job hjob
    cases hhandling.symm.trans (WorkerPc.handling_of_unfinished hjob)
  have hrecord := hdoomed.record
  rw [State.outlook, State.backlog, hjobs, (WorkerPc.outcomeFor_of_finished hfinished _).1]
    at hrecord
  cases (Store.find_eq_none hrecord).symm.trans (hdoomed.tidy.only a ha rfl)

/-- What holds after a state in which some sessions have been terminated. -/
structure ClosesSince (s t : State Unit) : Prop where
  closes : Closes t
  terminated : s.terminated ⊆ t.terminated
  noLateReply : NoLateReply s t

theorem ClosesSince.step {s t t' : State Unit} {a : Action Unit} (h : ClosesSince s t)
    (hok : MarksLast t a) (hstep : Step t a t') : ClosesSince s t' where
  closes := h.closes.step hok hstep
  terminated := List.Subset.trans h.terminated (terminated_mono hstep)
  noLateReply conn hconn :=
    (h.closes.letThrough hstep (h.terminated hconn)).trans (h.noLateReply conn hconn)

/-- **A closed connection leaves nothing behind.** With one worker and any schedule whose steps meet
`MarksLast`: after the session of a connection has been terminated no reply to it is let through,
and no record of a closed session is left when all jobs are done. -/
theorem closed_of_run {as bs : List (Action Unit)} {s t : State Unit}
    (run : Lts.Run exec MarksLast start as s) (run' : Lts.Run exec MarksLast s bs t) :
    NoLateReply s t ∧ NoneLeft t := by
  have hs : Closes s :=
    run.invariant (fun h hok hstep => h.step hok (step_of_exec hstep)) closes_start
  have ht : ClosesSince s t :=
    run'.invariant (fun h hok hstep => h.step hok (step_of_exec hstep))
      ⟨hs, List.Subset.refl _, fun _ _ => rfl⟩
  exact ⟨ht.noLateReply, ht.closes.noneLeft⟩

theorem State.lastJob_iff {s : State Unit} {d a : Nat} :
    s.LastJob d a ↔ s.Tidy d ∧ s.store.find d = some a ∧
      (s.store.memory a).jobs = (s.workers ()).countedFor d ∧ (s.unfinished d).length = 1 :=
  ⟨fun h => ⟨h.tidy, h.found, h.counted, h.last⟩, fun h => ⟨h.1, h.2.1, h.2.2.1, h.2.2.2⟩⟩

instance (s : State Unit) (d a : Nat) : Decidable (s.LastJob d a) :=
  decidable_of_iff' _ State.lastJob_iff

instance (s : State Unit) : ∀ a, Decidable (MarksLast s a)
  | .main => inferInstanceAs (Decidable (∀ p ∈ s.main.marking, s.LastJob p.1 p.2))
  | .accept _ | .request _ _ _ _ | .hangup _ | .worker _ | .responder => instDecidableTrue

/-- A client hangs up while a request of its waits. -/
def hangupBeforeRequest : List (Action Unit) :=
  [.accept 4, .main, .main] ++ List.replicate 8 (.worker ()) ++
    .request 4 .dataAbort default false :: .hangup 4 :: List.replicate 4 .main

/-- The state in which the session has just been terminated. -/
def requestWaits : State Unit := (Lts.execAll exec start hangupBeforeRequest).getD start

/-- The state in which the request is done. -/
def requestDone : State Unit :=
  (Lts.execAll exec requestWaits (List.replicate 15 (.worker ()))).getD start

theorem closed_hangupBeforeRequest : requestWaits.terminated = [0] ∧
    requestDone.store.freed = [0] ∧ NoLateReply requestWaits requestDone ∧
      NoneLeft requestDone := by
  have run : Lts.Run exec MarksLast start hangupBeforeRequest requestWaits :=
    Lts.Run.of_execWhile rfl
  have run' : Lts.Run exec MarksLast requestWaits (List.replicate 15 (.worker ())) requestDone :=
    Lts.Run.of_execWhile rfl
  exact ⟨rfl, rfl, closed_of_run run run'⟩

/-- A client hangs up while two requests of its wait. -/
def hangupBeforeRequests : List (Action Unit) :=
  [.accept 4, .main, .main] ++ List.replicate 8 (.worker ()) ++
    .request 4 .dataAbort default false :: .request 4 .dataAbort default false :: .hangup 4 ::
    List.replicate 4 .main

/-- The first request takes the marked record with it. The second is given a new one, is answered,
and leaves its record behind. -/
theorem not_closed_hangupBeforeRequests : ∃ s t : State Unit,
    Lts.Run exec (fun _ _ => True) start hangupBeforeRequests s ∧
      Lts.Run exec (fun _ _ => True) s (List.replicate 28 (.worker ())) t ∧
        ¬ NoLateReply s t ∧ ¬ NoneLeft t := by
  refine ⟨_, _, Lts.Run.of_execAll rfl, Lts.Run.of_execAll rfl, fun h => ?_, fun h => ?_⟩
  · exact absurd (congrArg List.length (h 0 List.mem_cons_self)) (by decide)
  · exact absurd (h rfl rfl 1 List.mem_cons_self) (by decide)

end Pipeline

end GlfsNdmp
