import GlfsNdmp.LockOrder
import GlfsNdmp.Ownership
import GlfsNdmp.Reclaim
import GlfsNdmp.Records

/-!
# The server gets its work done

The workers poll `request_jobs`, the responder polls `reply_jobs`, and in between a worker may have
to wait for the mutex of a session. `drains_of_run`: in whatever state the loop leaves them, and
however they are scheduled, the workers and the responder do not block each other for good, and
after at most `State.work` steps both queues are empty and nobody has anything in hand. That is said
of runs in which no record is freed that another thread can reach: a worker that gives back the
mutex of a freed record may leave its own locked.
-/

namespace GlfsNdmp

/-! ## How long handling takes -/

/-- A program makes at most so many accesses, whatever it reads. -/
def Prog.Within : Prog → Nat → Prop
  | .done, _ => True
  | .enter next, n + 1 | .exit next, n + 1 | .write _ _ next, n + 1 => next.Within n
  | .read _ next, n + 1 => ∀ word, (next word).Within n
  | _, 0 => False

theorem Prog.Within.mono {prog : Prog} {m n : Nat} (h : prog.Within m) (hmn : m ≤ n) :
    prog.Within n := by
  induction prog generalizing m n with
  | done => trivial
  | enter next ih | exit next ih | write _ _ next ih =>
    cases m with
    | zero => cases h
    | succ m =>
      obtain ⟨k, rfl⟩ := Nat.exists_eq_add_of_le' hmn
      exact ih h (Nat.le_add_left m k)
  | read field next ih =>
    cases m with
    | zero => cases h
    | succ m =>
      obtain ⟨k, rfl⟩ := Nat.exists_eq_add_of_le' hmn
      exact fun word => ih word (h word) (Nat.le_add_left m k)

theorem Prog.within_ite {n : Nat} {c : Prop} [Decidable c] {prog prog' : Prog}
    (h : prog.Within n) (h' : prog'.Within n) : (if c then prog else prog').Within n := by
  split
  · exact h
  · exact h'

/-- No handler makes more than six accesses. -/
theorem NdmpRequest.prog_within {request : NdmpRequest} {locals : Locals} {failed : Bool}
    {prog : Prog} (h : request.prog locals failed = some prog) : prog.Within 6 := by
  cases request <;> cases h
  case connectOpen => exact fun word => Prog.within_ite trivial trivial
  case connectClose => trivial
  case dataStartBackup | dataStartRecover =>
    refine fun word => Prog.within_ite ?_ ?_ <;> cases failed <;> trivial
  case dataAbort =>
    refine fun word => Prog.within_ite (fun _ => trivial) fun word => ?_
    exact Prog.within_ite (fun _ => trivial) fun _ => trivial
  case dataGetEnv => exact fun word => Prog.within_ite trivial fun _ => trivial
  case dataStop => exact fun word => Prog.within_ite (fun _ => trivial) fun _ => trivial
  case dataListen | dataConnect => exact fun word => Prog.within_ite trivial trivial

/-- A handler gets to its end. -/
theorem Job.prog_ne_done (job : Job) : job.prog ≠ some .done := by
  intro h
  unfold Job.prog at h
  cases hrequest : job.request <;> rw [hrequest] at h <;> cases h

namespace WorkerPc

/-- A worker is in the handler of its request only if there is one that uses the session, and
between two accesses of it. -/
def Regular : WorkerPc → Prop
  | .find .handle job | .insert .handle job => job.prog.isSome
  | .access _ prog _ => prog ≠ .done ∧ prog.Within 6 ∧ ∃ held, prog.Balanced held
  | _ => True

/-- The steps until the transaction is freed, those of the responder included, at most. -/
def work : WorkerPc → Nat
  | .idle => 0
  | .release _ _ => 1
  | .unqueue _ _ => 2
  | .count _ _ => 3
  | .reply _ => 4
  | .test _ _ => 5
  | .pop _ _ => 6
  | .insert .clean _ => 7
  | .find .clean _ => 8
  | .access _ _ _ => 14
  | .insert .handle _ => 15
  | .find .handle _ => 16
  | .push _ _ => 17
  | .insert .add _ => 18
  | .find .add _ => 19

/-- In a handler the accesses that are left count, and the eight steps behind it. -/
def Within : WorkerPc → Nat → Prop
  | .access _ prog _, n => ∃ k, prog.Within k ∧ k + 8 ≤ n
  | pc, n => pc.work ≤ n

theorem Regular.within_work {pc : WorkerPc} (h : pc.Regular) : pc.Within pc.work := by
  cases pc with
  | access session prog job => exact ⟨6, h.2.1, Nat.le_refl _⟩
  | _ => exact Nat.le_refl _

theorem regular_afterAccess {session : Nat} {prog : Prog} {job : Job} (hwithin : prog.Within 6)
    {held : Bool} (hbalanced : prog.Balanced held) : (afterAccess session prog job).Regular := by
  cases prog with
  | done => trivial
  | enter | exit | read | write => exact ⟨by simp, hwithin, held, hbalanced⟩

theorem regular_afterLookup {purpose : Purpose} {session : Nat} {job : Job}
    (h : (find purpose job).Regular) : (afterLookup purpose session job).Regular := by
  cases purpose with
  | add | clean => trivial
  | handle =>
    obtain ⟨prog, hprog⟩ := Option.isSome_iff_exists.1 h
    have hne := job.prog_ne_done
    rw [hprog] at hne
    show Regular (.access session (job.prog.getD .done) job)
    rw [hprog]
    exact ⟨fun heq => hne (congrArg some heq), NdmpRequest.prog_within hprog, false,
      NdmpRequest.prog_balanced hprog⟩

/-- An access leaves a program that is balanced and one access shorter. -/
theorem next_of_access {st st' : Store} {session : Nat} {prog next : Prog}
    (h : st.access session prog = some (st', next)) {k : Nat} (hwithin : prog.Within k)
    {held : Bool} (hbalanced : prog.Balanced held) :
    ∃ m held, k = m + 1 ∧ next.Within m ∧ next.Balanced held := by
  cases k with
  | zero =>
    cases prog with
    | done => cases h
    | _ => cases hwithin
  | succ m =>
    cases prog with
    | done => cases h
    | enter =>
      simp only [Store.access] at h
      split at h <;> cases h
      exact ⟨m, true, rfl, hwithin, hbalanced.2⟩
    | exit =>
      cases h
      exact ⟨m, false, rfl, hwithin, hbalanced.2⟩
    | read field next =>
      cases h
      exact ⟨m, held, rfl, hwithin _, hbalanced _⟩
    | write =>
      cases h
      exact ⟨m, held, rfl, hwithin, hbalanced⟩

theorem Regular.step {st st' : Store} {pc pc' : WorkerPc}
    (h : sessionStep st pc = some (st', pc')) (hpc : pc.Regular) : pc'.Regular := by
  cases handlingStep_of_sessionStep h with
  | found => exact regular_afterLookup hpc
  | @missing purpose job => cases purpose <;> exact hpc
  | @insert purpose job => exact regular_afterLookup (by cases purpose <;> exact hpc)
  | @push session job =>
    unfold afterPush
    split
    · rename_i hprog
      exact hprog
    · trivial
  | access haccess =>
    obtain ⟨-, hwithin, held, hbalanced⟩ := hpc
    obtain ⟨m, held', heq, hnext, hbalanced'⟩ := next_of_access haccess hwithin hbalanced
    exact regular_afterAccess (hnext.mono (by omega)) hbalanced'
  | _ => trivial

/-- What a look-up, the session's queue and the tests lead to takes less time. -/
theorem work_afterLookup (purpose : Purpose) (session : Nat) (job : Job) :
    (afterLookup purpose session job).work < (insert purpose job).work := by
  cases purpose <;> simp [afterLookup, work]

/-- **Every step of handling brings the transaction closer to its end.** -/
theorem Within.step {st st' : Store} {pc pc' : WorkerPc} {n : Nat}
    (h : sessionStep st pc = some (st', pc')) (hpc : pc.Regular) (hn : pc.Within n) :
    ∃ m < n, pc'.Within m := by
  -- Outside of a handler the kind of step decides.
  have hkind : pc.work ≤ n → pc'.work < pc.work → ∃ m < n, pc'.Within m := fun hle hlt =>
    ⟨pc'.work, Nat.lt_of_lt_of_le hlt hle, (hpc.step h).within_work⟩
  cases handlingStep_of_sessionStep h with
  | @found purpose job session hfind =>
    refine hkind hn ((work_afterLookup purpose session job).trans ?_)
    cases purpose <;> simp [work]
  | @missing purpose job => exact hkind hn (by cases purpose <;> simp [work])
  | @insert purpose job => exact hkind hn (work_afterLookup purpose _ job)
  | @push session job =>
    refine hkind hn ?_
    unfold afterPush
    split <;> simp [work]
  | @access session prog next job st' haccess =>
    obtain ⟨k, hwithin, hk⟩ := hn
    obtain ⟨-, -, held, hbalanced⟩ := hpc
    obtain ⟨m, -, rfl, hnext, -⟩ := next_of_access haccess hwithin hbalanced
    refine ⟨m + 8, by omega, ?_⟩
    cases next with
    | done => exact Nat.le_add_left 8 m
    | _ => exact ⟨m, hnext, Nat.le_refl _⟩
  | pop | terminated | drop | keep | last | others | unqueue | release =>
    exact hkind hn (by simp [work])

end WorkerPc

/-! ## Who holds a mutex -/

namespace Store

/-- The mutex of a record is taken. -/
def Locked (st : Store) (a : Nat) : Prop := (st.memory a).sLock = true

theorem locked_modify {st : Store} {f : SessionInfo → SessionInfo}
    (hf : ∀ r, (f r).sLock = r.sLock) (b : Nat) {a : Nat} (h : (st.modify b f).Locked a) :
    st.Locked a := by
  by_cases hab : a = b
  · subst hab
    rw [Locked, memory_modify_self, hf] at h
    exact h
  · exact (congrArg SessionInfo.sLock (Function.update_of_ne hab _ st.memory)).symm.trans h

/-- The mutex of a new record is free. -/
theorem locked_insert {st : Store} {id a : Nat} (h : (st.insert id).Locked a) : st.Locked a := by
  by_cases ha : a = st.nextAddress
  · subst ha
    rw [Locked, memory_insert_self] at h
    cases h
  · rwa [Locked, memory_insert_other st id ha] at h

end Store

/-- A worker is between `enter_critical_section` and `exit_critical_section` on a record. -/
def WorkerPc.Holds (a : Nat) : WorkerPc → Prop
  | .access session prog _ => session = a ∧ prog.Balanced true
  | _ => False

theorem WorkerPc.Holds.session {a : Nat} {pc : WorkerPc} (h : pc.Holds a) :
    pc.session = some a := by
  cases pc with
  | access session prog job => exact congrArg some h.1
  | _ => cases h

/-- What holds a mutex goes on. -/
theorem WorkerPc.holds_afterAccess {a session : Nat} {prog : Prog} {job : Job}
    (h : (access session prog job).Holds a) : (afterAccess session prog job).Holds a := by
  cases prog with
  | done => cases h.2
  | _ => exact h

/-- A mutex is taken by the worker that then holds it, and given back by one that did. -/
theorem locked_of_sessionStep {st st' : Store} {pc pc' : WorkerPc}
    (h : sessionStep st pc = some (st', pc')) (hpc : pc.Regular) {a : Nat} (ha : st'.Locked a) :
    pc'.Holds a ∨ st.Locked a ∧ ¬ pc.Holds a := by
  have hkeep : st.Locked a → ¬ pc.Holds a → pc'.Holds a ∨ st.Locked a ∧ ¬ pc.Holds a :=
    fun hlocked hnot => Or.inr ⟨hlocked, hnot⟩
  cases handlingStep_of_sessionStep h with
  | found | missing | terminated | drop | keep | last | others | unqueue | release =>
    exact hkeep ha fun hholds => hholds
  | insert => exact hkeep (Store.locked_insert ha) fun hholds => hholds
  | push | pop =>
    exact hkeep (Store.locked_modify (by exact fun _ => rfl) _ ha) fun hholds => hholds
  | @access session prog next job st' haccess =>
    obtain ⟨-, -, held, hbalanced⟩ := hpc
    by_cases hsession : session = a
    · subst hsession
      cases prog with
      | done => cases haccess
      | enter next =>
        simp only [Store.access] at haccess
        split at haccess <;> cases haccess
        exact Or.inl (WorkerPc.holds_afterAccess ⟨rfl, hbalanced.2⟩)
      | exit next =>
        cases haccess
        rw [Store.Locked, Store.memory_modify_self] at ha
        cases ha
      | read field next =>
        cases haccess
        by_cases hholds : WorkerPc.Holds session (.access session (.read field next) job)
        · exact Or.inl (WorkerPc.holds_afterAccess ⟨rfl, hholds.2 _⟩)
        · exact hkeep ha hholds
      | write field value next =>
        cases haccess
        by_cases hholds : WorkerPc.Holds session (.access session (.write field value next) job)
        · exact Or.inl (WorkerPc.holds_afterAccess ⟨rfl, hholds.2⟩)
        · exact hkeep (Store.locked_modify (fun r => by cases field <;> rfl) _ ha) hholds
    · refine hkeep ?_ fun hholds => hsession hholds.1
      have hother : ∀ f, (st.modify session f).Locked a → st.Locked a := fun f hf =>
        (congrArg SessionInfo.sLock
          (Function.update_of_ne (Ne.symm hsession) _ st.memory)).symm.trans hf
      cases prog with
      | done => cases haccess
      | enter next =>
        simp only [Store.access] at haccess
        split at haccess <;> cases haccess
        exact hother _ ha
      | exit | write =>
        cases haccess
        exact hother _ ha
      | read =>
        cases haccess
        exact ha

/-- A worker that holds a mutex is not stopped by another. -/
theorem sessionStep_of_holds (st : Store) {pc : WorkerPc} {a : Nat} (h : pc.Holds a) :
    (sessionStep st pc).isSome := by
  cases pc with
  | access session prog job =>
    cases prog with
    | done => cases h.2
    | enter => cases h.2.1
    | _ => rfl
  | _ => cases h

/-- A worker is stopped only by a mutex that is taken. -/
theorem locked_of_sessionStep_none {st : Store} {pc : WorkerPc} {job : Job} (hpc : pc.Regular)
    (hjob : pc.handling = some job) (h : sessionStep st pc = none) : ∃ a, st.Locked a := by
  cases pc with
  | access session prog job' =>
    cases prog with
    | done => exact absurd rfl hpc.1
    | enter next =>
      refine ⟨session, ?_⟩
      simp only [sessionStep, Store.access] at h
      split at h
      · assumption
      · cases h
    | _ => cases h
  | find purpose job' =>
    simp only [sessionStep] at h
    split at h <;> cases h
  | idle | reply => cases hjob
  | _ => cases h

namespace Pipeline

variable {ι : Type*}

/-! ## What is left to do -/

/-- The steps of the workers and the responder. -/
def Serves (_ : State ι) : Action ι → Prop
  | .worker _ | .responder => True
  | .accept _ | .request _ _ _ _ | .hangup _ | .main => False

/-- Those that free no record another thread can reach. -/
def ServesSole (s : State ι) (a : Action ι) : Prop := Serves s a ∧ FreesSole s a

def ResponderPc.work : ResponderPc → Nat
  | .idle => 0
  | .check _ => 2
  | .send _ => 1

namespace State

/-- Nobody has anything to do. -/
structure Drained (s : State ι) : Prop where
  requestJobs : s.requestJobs = []
  workers : ∀ i, s.workers i = .idle
  replyJobs : s.replyJobs = []
  responder : s.responder = .idle

def Regular (s : State ι) : Prop := ∀ i, (s.workers i).Regular

/-- A mutex that is taken is held by a worker. -/
def LocksHeld (s : State ι) : Prop := ∀ a, s.store.Locked a → ∃ i, (s.workers i).Holds a

/-- The steps that are left if the workers have `w` left. -/
def total (s : State ι) (w : Nat) : Nat :=
  20 * s.requestJobs.length + w + 3 * s.replyJobs.length + s.responder.work

variable [Fintype ι]

/-- The steps that are left at most, if the loop adds nothing. -/
def work (s : State ι) : Nat := s.total (∑ i, (s.workers i).work)

/-- `n` steps are enough. -/
def Within (s : State ι) (n : Nat) : Prop :=
  s.Regular ∧ ∃ w : ι → Nat, (∀ i, (s.workers i).Within (w i)) ∧ s.total (∑ i, w i) ≤ n

theorem Regular.within_work {s : State ι} (h : s.Regular) : s.Within s.work :=
  ⟨h, fun i => (s.workers i).work, fun i => (h i).within_work, Nat.le_refl _⟩

end State

variable [DecidableEq ι]

theorem regular_goto {s : State ι} (h : s.Regular) {i : ι} {pc : WorkerPc} (hpc : pc.Regular) :
    (s.goto i pc).Regular := by
  intro j
  by_cases hj : j = i
  · subst hj
    rwa [State.goto_workers_self]
  · rw [State.goto_workers_other s pc hj]
    exact h j

theorem State.Regular.step {s s' : State ι} {a : Action ι} (h : s.Regular) (hstep : Step s a s') :
    s'.Regular := by
  cases hstep with
  | @take i job jobs => exact regular_goto (s := { s with requestJobs := jobs }) h trivial
  | @put i job =>
    exact regular_goto (s := { s with
      replyJobs := s.replyJobs ++ [job]
      replied := s.replied ++ [job] }) h trivial
  | @handle i store pc hstep =>
    exact regular_goto (s := { s with store := store }) h ((h i).step hstep)
  | _ => exact h

/-- A worker's part of the total. -/
theorem within_goto {s : State ι} {w : ι → Nat} (h : ∀ j, (s.workers j).Within (w j)) {i : ι}
    {pc : WorkerPc} {m : Nat} (hpc : pc.Within m) (j : ι) :
    ((s.goto i pc).workers j).Within (Function.update w i m j) := by
  by_cases hj : j = i
  · subst hj
    rwa [State.goto_workers_self, Function.update_self]
  · rw [State.goto_workers_other s pc hj, Function.update_of_ne hj]
    exact h j

variable [Fintype ι]

/-- **Every step of a worker or the responder leaves less to do.** -/
theorem lowers_within : Lts.Lowers exec Serves (State.Within : State ι → Nat → Prop) := by
  intro s a s' n hwithin hserves hexec
  obtain ⟨hregular, w, hw, htotal⟩ := hwithin
  have hstep := step_of_exec hexec
  have hregular' := hregular.step hstep
  have hsum : ∀ i m, ∑ j, Function.update w i m j + w i = ∑ j, w j + m := sum_update id w
  unfold State.total at htotal
  cases hstep with
  | @take i job jobs hpc hjobs =>
    have hmoved := within_goto (s := { s with requestJobs := jobs }) hw (i := i)
      (show (WorkerPc.find .add job).Within 19 from Nat.le_refl _)
    refine ⟨_, ?_, hregular', _, hmoved, Nat.le_refl _⟩
    have hw' := hsum i 19
    rw [hjobs, List.length_cons] at htotal
    show 20 * jobs.length + _ + 3 * s.replyJobs.length + s.responder.work < n
    omega
  | @put i job hpc =>
    have hmoved := within_goto (s := { s with
      replyJobs := s.replyJobs ++ [job]
      replied := s.replied ++ [job] }) hw (i := i)
      (show WorkerPc.idle.Within 0 from Nat.le_refl _)
    refine ⟨_, ?_, hregular', _, hmoved, Nat.le_refl _⟩
    have hw' := hsum i 0
    have hfour : 4 ≤ w i := by
      have hi := hw i
      rwa [hpc] at hi
    show 20 * s.requestJobs.length + _ + 3 * (s.replyJobs ++ [job]).length + s.responder.work < n
    rw [List.length_append, List.length_singleton]
    omega
  | @handle i store pc hstep =>
    obtain ⟨m, hm, hpc⟩ := (hw i).step hstep (hregular i)
    have hmoved := within_goto (s := { s with store := store }) hw (i := i) hpc
    refine ⟨_, ?_, hregular', _, hmoved, Nat.le_refl _⟩
    have hw' := hsum i m
    show 20 * s.requestJobs.length + _ + 3 * s.replyJobs.length + s.responder.work < n
    omega
  | @receive job jobs hresponder hjobs =>
    refine ⟨_, ?_, hregular', w, hw, Nat.le_refl _⟩
    rw [hjobs, hresponder, List.length_cons] at htotal
    show 20 * s.requestJobs.length + ∑ i, w i + 3 * jobs.length + 2 < n
    omega
  | @check job hresponder =>
    refine ⟨_, ?_, hregular', w, hw, Nat.le_refl _⟩
    have hone : (if job.fd ∈ s.sessions then ResponderPc.send job else .idle).work ≤ 1 := by
      split <;> simp [ResponderPc.work]
    rw [hresponder] at htotal
    have htwo : (ResponderPc.check job).work = 2 := rfl
    show 20 * s.requestJobs.length + ∑ i, w i + 3 * s.replyJobs.length +
      (if job.fd ∈ s.sessions then ResponderPc.send job else .idle).work < n
    omega
  | @send job hresponder =>
    refine ⟨_, ?_, hregular', w, hw, Nat.le_refl _⟩
    rw [hresponder] at htotal
    exact htotal
  | _ => cases hserves

/-! ## Nobody is stopped for good -/

omit [Fintype ι] in
/-- A worker with no record in hand moves. -/
theorem locksHeld_goto {s : State ι} (h : s.LocksHeld) {i : ι}
    (hsession : (s.workers i).session = none) (pc : WorkerPc) : (s.goto i pc).LocksHeld := by
  intro a ha
  obtain ⟨j, hj⟩ := h a ha
  have hji : j ≠ i := by
    rintro rfl
    cases hsession.symm.trans hj.session
  exact ⟨j, by rwa [State.goto_workers_other s pc hji]⟩

omit [Fintype ι] in
theorem locksHeld_of_step {s s' : State ι} {a : Action ι} (h : s.LocksHeld) (hregular : s.Regular)
    (hstep : Step s a s') : s'.LocksHeld := by
  cases hstep with
  | insert => exact fun b hb => h b (Store.locked_insert hb)
  | mark => exact fun b hb => h b (Store.locked_modify (by exact fun _ => rfl) _ hb)
  | @take i job jobs hpc hjobs =>
    exact locksHeld_goto (s := { s with requestJobs := jobs }) h (congrArg WorkerPc.session hpc) _
  | @put i job hpc =>
    exact locksHeld_goto (s := { s with
      replyJobs := s.replyJobs ++ [job]
      replied := s.replied ++ [job] }) h (congrArg WorkerPc.session hpc) _
  | @handle i store pc hstep =>
    intro b hb
    rcases locked_of_sessionStep hstep (hregular i) hb with hholds | ⟨hlocked, hnot⟩
    · exact ⟨i, by rwa [State.goto_workers_self]⟩
    · obtain ⟨j, hj⟩ := h b hlocked
      have hji : j ≠ i := by
        rintro rfl
        exact hnot hj
      exact ⟨j, by rwa [State.goto_workers_other _ pc hji]⟩
  | _ => exact h

omit [Fintype ι] in
theorem regular_and_locksHeld_of_run {as : List (Action ι)} {s : State ι}
    (run : Lts.Run exec (fun _ _ => True) start as s) : s.Regular ∧ s.LocksHeld := by
  induction run with
  | nil => exact ⟨fun _ => trivial, fun a ha => by cases ha⟩
  | concat _ _ hexec ih =>
    have hstep := step_of_exec hexec
    exact ⟨ih.1.step hstep, locksHeld_of_step ih.2 ih.1 hstep⟩

omit [Fintype ι] in
/-- A worker that handles a transaction moves when the handling does. -/
theorem sessionStep_none_of_exec {s : State ι} {i : ι} {job : Job}
    (hjob : (s.workers i).handling = some job) (h : exec s (.worker i) = none) :
    sessionStep s.store (s.workers i) = none := by
  simp only [exec, State.workerStep] at h
  split at h
  · rename_i hpc
    rw [hpc] at hjob
    cases hjob
  · rename_i hpc
    rw [hpc] at hjob
    cases hjob
  · exact Option.map_eq_none_iff.1 h

omit [Fintype ι] in
/-- **When neither a worker nor the responder can move, there is nothing left to do**: a worker
that waits for a mutex waits for one that can move. -/
theorem drained_of_stuck [Nonempty ι] {s : State ι} (hregular : s.Regular) (hlocks : s.LocksHeld)
    (hstuck : ∀ a, Serves s a → exec s a = none) : s.Drained := by
  have hworkers : ∀ i, s.workers i = .idle := by
    intro i
    cases hjob : (s.workers i).handling with
    | none =>
      cases hpc : s.workers i with
      | idle => rfl
      | reply job =>
        have hnone := hstuck (.worker i) trivial
        simp only [exec, State.workerStep, hpc] at hnone
        cases hnone
      | _ =>
        rw [hpc] at hjob
        cases hjob
    | some job =>
      have hnone := sessionStep_none_of_exec hjob (hstuck (.worker i) trivial)
      obtain ⟨a, ha⟩ := locked_of_sessionStep_none (hregular i) hjob hnone
      obtain ⟨j, hj⟩ := hlocks a ha
      have hsome := sessionStep_of_holds s.store hj
      have hhandling : ∃ job, (s.workers j).handling = some job := by
        obtain ⟨⟨st, pc⟩, hstep⟩ := Option.isSome_iff_exists.1 hsome
        obtain ⟨job, hjob, -⟩ := sessionStep_cases hstep
        exact ⟨job, hjob⟩
      obtain ⟨job', hjob'⟩ := hhandling
      rw [sessionStep_none_of_exec hjob' (hstuck (.worker j) trivial)] at hsome
      cases hsome
  have hrequests : s.requestJobs = [] := by
    obtain ⟨i⟩ := ‹Nonempty ι›
    have hnone := hstuck (.worker i) trivial
    simp only [exec, State.workerStep, hworkers i] at hnone
    cases hjobs : s.requestJobs with
    | nil => rfl
    | cons job jobs =>
      rw [hjobs] at hnone
      cases hnone
  have hnone := hstuck .responder trivial
  simp only [exec, State.responderStep] at hnone
  cases hresponder : s.responder with
  | idle =>
    cases hjobs : s.replyJobs with
    | nil => exact ⟨hrequests, hworkers, hjobs, hresponder⟩
    | cons job jobs =>
      rw [hresponder, hjobs] at hnone
      cases hnone
  | check | send =>
    rw [hresponder] at hnone
    cases hnone

omit [Fintype ι] in
theorem stuck_of_drained {s : State ι} (h : s.Drained) (a : Action ι) (ha : Serves s a) :
    exec s a = none := by
  cases a with
  | worker i => simp only [exec, State.workerStep, h.workers i, h.requestJobs]
  | responder => simp only [exec, State.responderStep, h.responder, h.replyJobs]
  | _ => cases ha

omit [DecidableEq ι] in
/-- Then nobody holds a transaction. -/
theorem State.Drained.held {s : State ι} (h : s.Drained) : s.held = 0 := by
  simp [State.held, h.requestJobs, h.workers, h.replyJobs, h.responder, ResponderPc.job]

/-- **The server gets its work done.** From every state a run reaches, for any number of workers, as
long as no record is freed that another thread can reach: the workers and the responder go on until
nothing is left to do or such a record is about to be freed. They make at most `State.work` steps
before the loop has to add something and touch no freed record; they come to a stop only when there
is nothing left to do, and then every transaction that was ever allocated has been freed once. -/
theorem drains_of_run [Nonempty ι] {as : List (Action ι)} {s : State ι}
    (run : Lts.Run exec FreesSole start as s) :
    (∃ bs t, Lts.Run exec ServesSole s bs t ∧
      (t.Drained ∨ ∃ a, Serves t a ∧ exec t a ≠ none ∧ ¬ FreesSole t a)) ∧
    ∀ {bs : List (Action ι)} {t : State ι}, Lts.Run exec ServesSole s bs t →
      bs.length ≤ s.work ∧ t.store.useAfterFree = false ∧
      ((∀ a, Serves t a → exec t a = none) ↔ t.Drained) ∧
      (t.Drained → List.Perm (Lts.log exec State.frees start (as ++ bs))
        (Lts.log exec State.allocates start (as ++ bs))) := by
  have hafter : ∀ {bs : List (Action ι)} {t : State ι}, Lts.Run exec ServesSole s bs t →
      Lts.Run exec FreesSole start (as ++ bs) t := fun serve =>
    run.append (serve.mono fun _ _ hok => hok.2)
  have hany : ∀ {bs : List (Action ι)} {t : State ι}, Lts.Run exec ServesSole s bs t →
      Lts.Run exec (fun _ _ => True) start (as ++ bs) t := fun serve =>
    (hafter serve).mono fun _ _ _ => trivial
  have hstuck : ∀ {bs : List (Action ι)} {t : State ι}, Lts.Run exec ServesSole s bs t →
      ((∀ a, Serves t a → exec t a = none) ↔ t.Drained) := by
    intro bs t serve
    obtain ⟨hregular, hlocks⟩ := regular_and_locksHeld_of_run (hany serve)
    exact ⟨drained_of_stuck hregular hlocks, stuck_of_drained⟩
  have hwithin : s.Within s.work :=
    (regular_and_locksHeld_of_run (run.mono fun _ _ _ => trivial)).1.within_work
  have hlowers : Lts.Lowers exec ServesSole (State.Within : State ι → Nat → Prop) :=
    fun hw hok hexec => lowers_within hw hok.1 hexec
  refine ⟨?_, fun {bs t} serve => ⟨?_, ?_, hstuck serve, fun hdrained => ?_⟩⟩
  · obtain ⟨bs, t, serve, hend⟩ := Lts.exists_stuck hlowers hwithin
    refine ⟨bs, t, serve, or_iff_not_imp_right.2 fun hfree => (hstuck serve).1 fun a ha => ?_⟩
    by_contra hmoves
    by_cases hsole : FreesSole t a
    · exact hmoves (hend a ⟨ha, hsole⟩)
    · exact hfree ⟨a, ha, hmoves, hsole⟩
  · obtain ⟨m, hm, -⟩ := serve.length_le hlowers hwithin
    omega
  · have hreclaims : Reclaims t :=
      (hafter serve).invariant (fun h hok hexec => h.step hok (step_of_exec hexec)) reclaims_start
    exact hreclaims.store.noUseAfterFree
  · have hconserved := conserved_of_run (hany serve)
    rw [hdrained.held, zero_add] at hconserved
    exact (Multiset.coe_eq_coe.1 hconserved).symm

/-- A client asks for two things at once. One worker is in the handler of the first request, the
other waits for the mutex of the session. -/
def oneWaits : List (Action Bool) :=
  [.accept 4, .main, .main] ++ List.replicate 8 (.worker true) ++
    List.replicate 2 (.request 4 .dataStop default false) ++ List.replicate 5 (.worker true) ++
    List.replicate 4 (.worker false)

theorem drains_oneWaits : ∃ s : State Bool, Lts.Run exec FreesSole start oneWaits s ∧
    exec s (.worker false) = none ∧ s.work = 31 ∧ ∃ bs t, Lts.Run exec ServesSole s bs t ∧
      (t.Drained ∨ ∃ a, Serves t a ∧ exec t a ≠ none ∧ ¬ FreesSole t a) := by
  have run : Lts.Run exec FreesSole (start : State Bool) oneWaits _ :=
    Lts.Run.of_execWhile rfl
  exact ⟨_, run, rfl, rfl, (drains_of_run run).1⟩

end Pipeline

end GlfsNdmp
