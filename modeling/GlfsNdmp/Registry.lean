import GlfsNdmp.Lib.Fifo
import GlfsNdmp.Lib.Lts
import Mathlib.Data.Fintype.Basic
import Mathlib.Data.List.Nodup
import Mathlib.Logic.Function.Basic

/-!
# The session registry under concurrent look-ups

`get_session_info` and `get_session_queue`, taken apart into the steps between which other threads
can run: each lock acquisition and release and each locked queue operation is one. Both functions
call `get_lock` for the lock they take, so every call locks a mutex of its own
(`lock_free_at_enter`), and the look-up and the insertion that may follow it are not one step.

`unique_of_run`: the registry holds one record for each id, and all look-ups of a living record
find it, in every run in which no look-up misses an id that another thread is about to insert and
no thread sees the queue missing that another is about to make.
-/

namespace GlfsNdmp.Registry

/-! ## Threads -/

/-- A `struct ndmp_session_info`, as far as the registry looks at it. -/
structure Record where
  address : Nat
  sessionId : Nat
  deriving DecidableEq, Repr

/-- The two callers of `get_session_queue`. -/
inductive Caller
  /-- `get_session_info(id)`, which holds its `s_lock`. -/
  | getSessionInfo (id sLock : Nat)
  /-- `cleanup_session`, about to remove the record of `id`. -/
  | cleanupSession (id : Nat)
  deriving DecidableEq, Repr

/-- What a thread does next. -/
inductive Pc
  | idle
  /-- `enter_critical_section(s_lock)` in `get_session_info`. -/
  | enter (id sLock : Nat)
  /-- `enter_critical_section(s_lock)` in `get_session_queue`. -/
  | queueEnter (caller : Caller) (sLock : Nat)
  /-- `if (session_info_queue == NULL)` -/
  | queueTest (caller : Caller) (sLock : Nat)
  /-- `session_info_queue = init_queue()` -/
  | queueInit (caller : Caller) (sLock : Nat)
  /-- `exit_critical_section(s_lock)` in `get_session_queue`. -/
  | queueExit (caller : Caller) (sLock : Nat)
  /-- `return session_info_queue` -/
  | queueReturn (caller : Caller)
  /-- `get_elem(session_queue, &session_id, session_info_cmp)` -/
  | find (id sLock queue : Nat)
  /-- `enqueue(session_queue, retval)` -/
  | insert (id sLock queue : Nat)
  /-- `exit_critical_section(s_lock)` in `get_session_info`. -/
  | exit (sLock : Nat) (retval : Record)
  /-- `remove_elem(session_queue, &session->session_id, session_info_cmp)` -/
  | remove (id queue : Nat)
  deriving DecidableEq, Repr

/-- The lock a thread is about to take. -/
def Pc.enters : Pc → Option Nat
  | .enter _ sLock | .queueEnter _ sLock => some sLock
  | _ => none

/-- The thread is about to make the queue. -/
def Pc.inits : Pc → Bool
  | .queueInit _ _ => true
  | _ => false

/-- The id of the record the thread is about to insert. -/
def Pc.inserts : Pc → Option Nat
  | .insert id _ _ => some id
  | _ => none

/-- The queue a thread works on, once it has it. -/
def Pc.queue : Pc → Option Nat
  | .find _ _ queue | .insert _ _ queue | .remove _ queue => some queue
  | _ => none

/-- The thread has passed the test for a missing queue. -/
def Pc.tested : Pc → Bool
  | .queueExit _ _ | .queueReturn _ => true
  | _ => false

/-! ## The system -/

variable {τ : Type*}

/-- Mutexes, queues and records are numbered as they are allocated. `returned` and `removed` are
the history: what the look-ups so far have yielded, and which records have left the registry. -/
structure State (τ : Type*) where
  pc : τ → Pc
  owner : Nat → Option τ
  nextLock : Nat
  sessionInfoQueue : Option Nat
  queues : Nat → List Record
  nextQueue : Nat
  nextAddress : Nat
  returned : List Record
  removed : List Nat

def start : State τ where
  pc _ := .idle
  owner _ := none
  nextLock := 0
  sessionInfoQueue := none
  queues _ := []
  nextQueue := 0
  nextAddress := 0
  returned := []
  removed := []

/-- The records of the registry. -/
def State.registry (s : State τ) : List Record :=
  match s.sessionInfoQueue with
  | some queue => s.queues queue
  | none => []

theorem registry_eq {s : State τ} {queue : Nat} (h : s.sessionInfoQueue = some queue) :
    s.registry = s.queues queue := by
  rw [State.registry, h]

/-- `session_info_cmp`. -/
def sessionInfoCmp (id : Nat) (r : Record) : Bool := r.sessionId == id

inductive Action (τ : Type*)
  /-- A thread calls `get_session_info`. -/
  | getSessionInfo (t : τ) (id : Nat)
  /-- A thread comes to the removal in `cleanup_session`. -/
  | cleanupSession (t : τ) (id : Nat)
  /-- A thread takes its next step. -/
  | step (t : τ)

variable [DecidableEq τ]

def State.goto (s : State τ) (t : τ) (pc : Pc) : State τ :=
  { s with pc := Function.update s.pc t pc }

/-- `enter_critical_section`: it waits while another thread owns the mutex. -/
def State.enter (s : State τ) (t : τ) (lock : Nat) : Option (State τ) :=
  match s.owner lock with
  | none => some { s with owner := Function.update s.owner lock (some t) }
  | some _ => none

/-- `exit_critical_section`. -/
def State.exit (s : State τ) (lock : Nat) : State τ :=
  { s with owner := Function.update s.owner lock none }

/-- `get_lock` in `get_session_queue`. -/
def State.callQueue (s : State τ) (t : τ) (caller : Caller) : State τ :=
  { s with nextLock := s.nextLock + 1 }.goto t (.queueEnter caller s.nextLock)

/-- One step of thread `t`. -/
def State.step (s : State τ) (t : τ) : Option (State τ) :=
  match s.pc t with
  | .idle => none
  | .enter id sLock => (s.enter t sLock).map (·.callQueue t (.getSessionInfo id sLock))
  | .queueEnter caller sLock => (s.enter t sLock).map (·.goto t (.queueTest caller sLock))
  | .queueTest caller sLock =>
    match s.sessionInfoQueue with
    | none => some (s.goto t (.queueInit caller sLock))
    | some _ => some (s.goto t (.queueExit caller sLock))
  | .queueInit caller sLock =>
    some <| { s with
      sessionInfoQueue := some s.nextQueue
      queues := Function.update s.queues s.nextQueue []
      nextQueue := s.nextQueue + 1 }.goto t (.queueExit caller sLock)
  | .queueExit caller sLock => some ((s.exit sLock).goto t (.queueReturn caller))
  | .queueReturn caller =>
    s.sessionInfoQueue.map fun queue =>
      match caller with
      | .getSessionInfo id sLock => s.goto t (.find id sLock queue)
      | .cleanupSession id => s.goto t (.remove id queue)
  | .find id sLock queue =>
    match (s.queues queue).find? (sessionInfoCmp id) with
    | some r => some ({ s with returned := s.returned ++ [r] }.goto t (.exit sLock r))
    | none => some (s.goto t (.insert id sLock queue))
  | .insert id sLock queue =>
    let r : Record := ⟨s.nextAddress, id⟩
    some <| { s with
      queues := Function.update s.queues queue (s.queues queue ++ [r])
      nextAddress := s.nextAddress + 1
      returned := s.returned ++ [r] }.goto t (.exit sLock r)
  | .exit sLock _ => some ((s.exit sLock).goto t .idle)
  | .remove id queue =>
    some <| { s with
      queues := Function.update s.queues queue ((s.queues queue).eraseP (sessionInfoCmp id))
      removed := s.removed ++
        (((s.queues queue).find? (sessionInfoCmp id)).map Record.address).toList }.goto t .idle

def exec (s : State τ) : Action τ → Option (State τ)
  | .getSessionInfo t id =>
    match s.pc t with
    | .idle => some ({ s with nextLock := s.nextLock + 1 }.goto t (.enter id s.nextLock))
    | _ => none
  | .cleanupSession t id =>
    match s.pc t with
    | .idle => some (s.callQueue t (.cleanupSession id))
    | _ => none
  | .step t => s.step t

@[simp] theorem State.goto_pc_self (s : State τ) (t : τ) (pc : Pc) : (s.goto t pc).pc t = pc := by
  simp [State.goto]

theorem State.goto_pc_other (s : State τ) {t t' : τ} (pc : Pc) (h : t' ≠ t) :
    (s.goto t pc).pc t' = s.pc t' := by
  simp [State.goto, h]

omit [DecidableEq τ] in
/-- `enter_critical_section` succeeds exactly on a free mutex. -/
theorem State.enter_eq_some {s s' : State τ} {t : τ} {lock : Nat} (h : s.enter t lock = some s') :
    s.owner lock = none ∧ s' = { s with owner := Function.update s.owner lock (some t) } := by
  unfold State.enter at h
  cases howner : s.owner lock with
  | some _ => rw [howner] at h; cases h
  | none =>
    rw [howner] at h
    exact ⟨rfl, (Option.some.inj h).symm⟩

/-! ## All steps -/

/-- What a step can do, case by case. -/
inductive Step (s : State τ) : Action τ → State τ → Prop
  | getSessionInfo {t : τ} {id : Nat} (hpc : s.pc t = .idle) :
    Step s (.getSessionInfo t id)
      ({ s with nextLock := s.nextLock + 1 }.goto t (.enter id s.nextLock))
  | cleanupSession {t : τ} {id : Nat} (hpc : s.pc t = .idle) :
    Step s (.cleanupSession t id) (s.callQueue t (.cleanupSession id))
  | enter {t : τ} {id sLock : Nat} (hpc : s.pc t = .enter id sLock)
    (hfree : s.owner sLock = none) :
    Step s (.step t) ({ s with owner := Function.update s.owner sLock (some t) }.callQueue t
      (.getSessionInfo id sLock))
  | queueEnter {t : τ} {caller : Caller} {sLock : Nat} (hpc : s.pc t = .queueEnter caller sLock)
    (hfree : s.owner sLock = none) :
    Step s (.step t) ({ s with owner := Function.update s.owner sLock (some t) }.goto t
      (.queueTest caller sLock))
  | queueNull {t : τ} {caller : Caller} {sLock : Nat} (hpc : s.pc t = .queueTest caller sLock)
    (hqueue : s.sessionInfoQueue = none) : Step s (.step t) (s.goto t (.queueInit caller sLock))
  | queueThere {t : τ} {caller : Caller} {sLock queue : Nat}
    (hpc : s.pc t = .queueTest caller sLock) (hqueue : s.sessionInfoQueue = some queue) :
    Step s (.step t) (s.goto t (.queueExit caller sLock))
  | queueInit {t : τ} {caller : Caller} {sLock : Nat} (hpc : s.pc t = .queueInit caller sLock) :
    Step s (.step t) ({ s with
      sessionInfoQueue := some s.nextQueue
      queues := Function.update s.queues s.nextQueue []
      nextQueue := s.nextQueue + 1 }.goto t (.queueExit caller sLock))
  | queueExit {t : τ} {caller : Caller} {sLock : Nat} (hpc : s.pc t = .queueExit caller sLock) :
    Step s (.step t) ((s.exit sLock).goto t (.queueReturn caller))
  | lookup {t : τ} {id sLock queue : Nat}
    (hpc : s.pc t = .queueReturn (.getSessionInfo id sLock))
    (hqueue : s.sessionInfoQueue = some queue) :
    Step s (.step t) (s.goto t (.find id sLock queue))
  | cleanup {t : τ} {id queue : Nat} (hpc : s.pc t = .queueReturn (.cleanupSession id))
    (hqueue : s.sessionInfoQueue = some queue) : Step s (.step t) (s.goto t (.remove id queue))
  | hit {t : τ} {id sLock queue : Nat} {r : Record} (hpc : s.pc t = .find id sLock queue)
    (hfind : (s.queues queue).find? (sessionInfoCmp id) = some r) :
    Step s (.step t) ({ s with returned := s.returned ++ [r] }.goto t (.exit sLock r))
  | miss {t : τ} {id sLock queue : Nat} (hpc : s.pc t = .find id sLock queue)
    (hfind : (s.queues queue).find? (sessionInfoCmp id) = none) :
    Step s (.step t) (s.goto t (.insert id sLock queue))
  | insert {t : τ} {id sLock queue : Nat} (hpc : s.pc t = .insert id sLock queue) :
    Step s (.step t) ({ s with
      queues := Function.update s.queues queue (s.queues queue ++ [Record.mk s.nextAddress id])
      nextAddress := s.nextAddress + 1
      returned := s.returned ++ [Record.mk s.nextAddress id] }.goto t
        (.exit sLock ⟨s.nextAddress, id⟩))
  | exit {t : τ} {sLock : Nat} {retval : Record} (hpc : s.pc t = .exit sLock retval) :
    Step s (.step t) ((s.exit sLock).goto t .idle)
  | remove {t : τ} {id queue : Nat} (hpc : s.pc t = .remove id queue) :
    Step s (.step t) ({ s with
      queues := Function.update s.queues queue ((s.queues queue).eraseP (sessionInfoCmp id))
      removed := s.removed ++ (((s.queues queue).find? (sessionInfoCmp id)).map
        Record.address).toList }.goto t .idle)

theorem step_of_step {s s' : State τ} {t : τ} (h : s.step t = some s') : Step s (.step t) s' := by
  unfold State.step at h
  split at h
  · cases h
  · rename_i hpc
    obtain ⟨s₁, hs₁, rfl⟩ := Option.map_eq_some_iff.1 h
    obtain ⟨hfree, rfl⟩ := State.enter_eq_some hs₁
    exact .enter hpc hfree
  · rename_i hpc
    obtain ⟨s₁, hs₁, rfl⟩ := Option.map_eq_some_iff.1 h
    obtain ⟨hfree, rfl⟩ := State.enter_eq_some hs₁
    exact .queueEnter hpc hfree
  · rename_i hpc
    split at h <;> rename_i hqueue <;> cases h
    · exact .queueNull hpc hqueue
    · exact .queueThere hpc hqueue
  · rename_i hpc
    cases h
    exact .queueInit hpc
  · rename_i hpc
    cases h
    exact .queueExit hpc
  · rename_i caller hpc
    obtain ⟨queue, hqueue, rfl⟩ := Option.map_eq_some_iff.1 h
    cases caller with
    | getSessionInfo id sLock => exact .lookup hpc hqueue
    | cleanupSession id => exact .cleanup hpc hqueue
  · rename_i hpc
    split at h <;> rename_i hfind <;> cases h
    · exact .hit hpc hfind
    · exact .miss hpc hfind
  · rename_i hpc
    cases h
    exact .insert hpc
  · rename_i hpc
    cases h
    exact .exit hpc
  · rename_i hpc
    cases h
    exact .remove hpc

theorem step_of_exec {s s' : State τ} {a : Action τ} (h : exec s a = some s') : Step s a s' := by
  cases a with
  | getSessionInfo t id | cleanupSession t id =>
    simp only [exec] at h
    split at h
    · rename_i hpc
      cases h
      constructor
      exact hpc
    · cases h
  | step t => exact step_of_step h

/-! ## The locks exclude nobody -/

/-- Mutexes that are still to be taken are new: nobody has taken them, and no two threads are about
to take the same one. -/
structure LocksFresh (s : State τ) : Prop where
  free : ∀ t lock, (s.pc t).enters = some lock → s.owner lock = none
  lt : ∀ t lock, (s.pc t).enters = some lock → lock < s.nextLock
  unused : ∀ lock, s.nextLock ≤ lock → s.owner lock = none
  apart : ∀ t t' lock, (s.pc t).enters = some lock → (s.pc t').enters = some lock → t = t'

/-- A thread that goes on to something else than taking a mutex. -/
theorem LocksFresh.goto {s : State τ} (h : LocksFresh s) (t : τ) (pc : Pc)
    (hpc : pc.enters = none) : LocksFresh (s.goto t pc) := by
  have hother : ∀ {t' lock}, ((s.goto t pc).pc t').enters = some lock →
      (s.pc t').enters = some lock := by
    intro t' lock henter
    by_cases ht : t' = t
    · subst ht
      rw [State.goto_pc_self, hpc] at henter
      cases henter
    · rwa [State.goto_pc_other s pc ht] at henter
  exact {
    free := fun t' lock ht' => h.free t' lock (hother ht')
    lt := fun t' lock ht' => h.lt t' lock (hother ht')
    unused := h.unused
    apart := fun t' t'' lock ht' ht'' => h.apart t' t'' lock (hother ht') (hother ht'') }

/-- A thread that goes on to take a mutex it has just made. -/
theorem LocksFresh.goto_new {s : State τ} (h : LocksFresh s) (t : τ) (pc : Pc)
    (hpc : pc.enters = some s.nextLock) :
    LocksFresh ({ s with nextLock := s.nextLock + 1 }.goto t pc) := by
  set s' : State τ := { s with nextLock := s.nextLock + 1 }
  have hcase : ∀ {t' lock}, ((s'.goto t pc).pc t').enters = some lock →
      t' = t ∧ lock = s.nextLock ∨ t' ≠ t ∧ (s.pc t').enters = some lock := by
    intro t' lock henter
    by_cases ht : t' = t
    · subst ht
      rw [State.goto_pc_self, hpc, Option.some.injEq] at henter
      exact Or.inl ⟨rfl, henter.symm⟩
    · rw [State.goto_pc_other s' pc ht] at henter
      exact Or.inr ⟨ht, henter⟩
  refine ⟨fun t' lock ht' => ?_, fun t' lock ht' => ?_, fun lock hlock => ?_,
    fun t' t'' lock ht' ht'' => ?_⟩
  · rcases hcase ht' with ⟨-, rfl⟩ | ⟨-, henter⟩
    · exact h.unused _ (Nat.le_refl _)
    · exact h.free t' lock henter
  · rcases hcase ht' with ⟨-, rfl⟩ | ⟨-, henter⟩
    · exact Nat.lt_succ_self _
    · exact Nat.lt_succ_of_lt (h.lt t' lock henter)
  · exact h.unused lock (Nat.le_of_succ_le hlock)
  · rcases hcase ht' with ⟨rfl, rfl⟩ | ⟨-, henter⟩
    · rcases hcase ht'' with ⟨rfl, -⟩ | ⟨-, henter'⟩
      · rfl
      · exact absurd (h.lt t'' _ henter') (Nat.lt_irrefl _)
    · rcases hcase ht'' with ⟨-, rfl⟩ | ⟨-, henter'⟩
      · exact absurd (h.lt t' _ henter) (Nat.lt_irrefl _)
      · exact h.apart t' t'' lock henter henter'

/-- Taking the mutex at which the thread stands. -/
theorem LocksFresh.enter {s : State τ} (h : LocksFresh s) {t : τ} {lock : Nat}
    (hpc : (s.pc t).enters = some lock) (pc : Pc) (hnone : pc.enters = none) :
    LocksFresh ({ s with owner := Function.update s.owner lock (some t) }.goto t pc) := by
  have hgoto := h.goto t pc hnone
  refine { hgoto with free := fun t' lock' ht' => ?_, unused := fun lock' hlock' => ?_ }
  · by_cases ht : t' = t
    · subst ht
      rw [State.goto_pc_self, hnone] at ht'
      cases ht'
    · rw [State.goto_pc_other _ pc ht] at ht'
      have hne : lock' ≠ lock := by
        rintro rfl
        exact ht (h.apart t' t lock' ht' hpc)
      exact (Function.update_of_ne hne _ _).trans (h.free t' lock' ht')
  · have hne : lock' ≠ lock := by
      rintro rfl
      exact absurd (h.lt t lock' hpc) (Nat.not_lt.2 hlock')
    exact (Function.update_of_ne hne _ _).trans (h.unused lock' hlock')

omit [DecidableEq τ] in
/-- Releasing a mutex frees it. -/
theorem LocksFresh.exit {s : State τ} (h : LocksFresh s) (lock : Nat) :
    LocksFresh (s.exit lock) := by
  have hfree : ∀ lock', s.owner lock' = none → (s.exit lock).owner lock' = none := by
    intro lock' hnone
    by_cases hl : lock' = lock
    · subst hl
      exact Function.update_self _ _ _
    · exact (Function.update_of_ne hl _ _).trans hnone
  exact { h with
    free := fun t lock' ht => hfree _ (h.free t lock' ht)
    unused := fun lock' hlock' => hfree _ (h.unused lock' hlock') }

omit [DecidableEq τ] in
theorem locksFresh_start : LocksFresh (start : State τ) where
  free _ _ h := by cases h
  lt _ _ h := by cases h
  unused _ _ := rfl
  apart _ _ _ h := by cases h

omit [DecidableEq τ] in
/-- The locks depend on the threads, the owners and the allocation only. -/
theorem LocksFresh.congr {s s' : State τ} (h : LocksFresh s) (hpc : s'.pc = s.pc)
    (howner : s'.owner = s.owner) (hnext : s'.nextLock = s.nextLock) : LocksFresh s' where
  free t lock := by rw [hpc, howner]; exact h.free t lock
  lt t lock := by rw [hpc, hnext]; exact h.lt t lock
  unused lock := by rw [hnext, howner]; exact h.unused lock
  apart t t' lock := by rw [hpc]; exact h.apart t t' lock

theorem LocksFresh.step {s s' : State τ} (h : LocksFresh s) {a : Action τ}
    (hstep : Step s a s') : LocksFresh s' := by
  cases hstep with
  | getSessionInfo | cleanupSession => exact h.goto_new _ _ rfl
  | @enter t id sLock hpc =>
    have hnext := (h.enter (by rw [hpc]; rfl) .idle rfl).goto_new t
      (.queueEnter (.getSessionInfo id sLock) s.nextLock) rfl
    exact hnext.congr (by simp [State.callQueue, State.goto]) rfl rfl
  | queueEnter hpc => exact h.enter (by rw [hpc]; rfl) _ rfl
  | queueNull | queueThere | lookup | cleanup | miss => exact h.goto _ _ rfl
  | queueExit | exit => exact (h.exit _).goto _ _ rfl
  | @queueInit t caller sLock => exact (h.goto t (.queueExit caller sLock) rfl).congr rfl rfl rfl
  | @hit t _ sLock _ r => exact (h.goto t (.exit sLock r) rfl).congr rfl rfl rfl
  | @insert t id sLock =>
    exact (h.goto t (.exit sLock ⟨s.nextAddress, id⟩) rfl).congr rfl rfl rfl
  | @remove t => exact (h.goto t .idle rfl).congr rfl rfl rfl

/-- **The locks exclude nobody.** In every run, a thread that comes to one of the two
`enter_critical_section`s finds the mutex free. -/
theorem lock_free_at_enter {as : List (Action τ)} {s : State τ}
    (run : Lts.Run exec (fun _ _ => True) start as s) {t : τ} {lock : Nat}
    (h : (s.pc t).enters = some lock) : s.owner lock = none :=
  (run.invariant (fun h _ hstep => h.step (step_of_exec hstep)) locksFresh_start).free t lock h

/-! ## Races -/

/-- One record for each id, and all look-ups of a record that is still there have found it. -/
structure Unique (s : State τ) : Prop where
  registry : (s.registry.map Record.sessionId).Nodup
  lookups : ∀ r ∈ s.returned, ∀ r' ∈ s.returned, r.sessionId = r'.sessionId →
    r.address ∉ s.removed → r'.address ∉ s.removed → r = r'

/-- A thread's next step does not race: it sees no queue only if no other thread is about to make
it, and misses an id only if no other thread is about to insert it. -/
def NoRaceAt (s : State τ) (t : τ) : Pc → Prop
  | .queueTest _ _ => s.sessionInfoQueue = none → ∀ t', t' ≠ t → (s.pc t').inits = false
  | .find id _ queue => (s.queues queue).find? (sessionInfoCmp id) = none →
      ∀ t', t' ≠ t → (s.pc t').inserts ≠ some id
  | _ => True

def NoRace (s : State τ) : Action τ → Prop
  | .step t => NoRaceAt s t (s.pc t)
  | _ => True

instance [Fintype τ] (s : State τ) (t : τ) : ∀ pc, Decidable (NoRaceAt s t pc)
  | .queueTest _ _ => inferInstanceAs (Decidable (_ → ∀ t', t' ≠ t → (s.pc t').inits = false))
  | .find _ _ _ => inferInstanceAs (Decidable (_ → ∀ t', t' ≠ t → (s.pc t').inserts ≠ _))
  | .idle | .enter _ _ | .queueEnter _ _ | .queueInit _ _ | .queueExit _ _ | .queueReturn _
  | .insert _ _ _ | .exit _ _ | .remove _ _ => instDecidableTrue

instance [Fintype τ] (s : State τ) : ∀ a, Decidable (NoRace s a)
  | .step t => inferInstanceAs (Decidable (NoRaceAt s t (s.pc t)))
  | .getSessionInfo _ _ | .cleanupSession _ _ => instDecidableTrue

/-- The invariant of the runs without a race. -/
structure Inv (s : State τ) : Prop where
  nodup : (s.registry.map Record.sessionId).Nodup
  queue : ∀ t queue, (s.pc t).queue = some queue → s.sessionInfoQueue = some queue
  tested : ∀ t, (s.pc t).tested → s.sessionInfoQueue ≠ none
  init : ∀ t, (s.pc t).inits → s.sessionInfoQueue = none
  initOne : ∀ t t', (s.pc t).inits → (s.pc t').inits → t = t'
  absent : ∀ t id, (s.pc t).inserts = some id → ∀ r ∈ s.registry, r.sessionId ≠ id
  insertOne : ∀ t t' id, (s.pc t).inserts = some id → (s.pc t').inserts = some id → t = t'
  kept : ∀ r ∈ s.returned, r.address ∉ s.removed → r ∈ s.registry

omit [DecidableEq τ] in
theorem Inv.unique {s : State τ} (h : Inv s) : Unique s where
  registry := h.nodup
  lookups r hr r' hr' hid hrem hrem' :=
    List.inj_on_of_nodup_map h.nodup (h.kept r hr hrem) (h.kept r' hr' hrem') hid

omit [DecidableEq τ] in
theorem inv_start : Inv (start : State τ) where
  nodup := List.nodup_nil
  queue _ _ h := by cases h
  tested _ h := by cases h
  init _ h := by cases h
  initOne _ _ h := by cases h
  absent _ _ h := by cases h
  insertOne _ _ _ h := by cases h
  kept _ h := by cases h

omit [DecidableEq τ] in
/-- Allocating, taking and releasing mutexes has no part in the invariant. -/
theorem Inv.locks {s : State τ} (h : Inv s) (owner : Nat → Option τ) (nextLock : Nat) :
    Inv { s with owner := owner, nextLock := nextLock } :=
  { h with }

/-- A thread may go on to a step if what the step relies on is there. -/
theorem Inv.goto {s : State τ} (h : Inv s) (t : τ) (pc : Pc)
    (hqueue : ∀ queue, pc.queue = some queue → s.sessionInfoQueue = some queue)
    (htested : pc.tested → s.sessionInfoQueue ≠ none)
    (hinit : pc.inits → s.sessionInfoQueue = none ∧ ∀ t', t' ≠ t → (s.pc t').inits = false)
    (hinsert : ∀ id, pc.inserts = some id →
      (∀ r ∈ s.registry, r.sessionId ≠ id) ∧ ∀ t', t' ≠ t → (s.pc t').inserts ≠ some id) :
    Inv (s.goto t pc) := by
  have hcase : ∀ t', t' = t ∧ (s.goto t pc).pc t' = pc ∨
      t' ≠ t ∧ (s.goto t pc).pc t' = s.pc t' := by
    intro t'
    by_cases ht : t' = t
    · subst ht
      exact Or.inl ⟨rfl, s.goto_pc_self t' pc⟩
    · exact Or.inr ⟨ht, s.goto_pc_other pc ht⟩
  refine { h with
    queue := fun t' queue => ?_
    tested := fun t' => ?_
    init := fun t' => ?_
    initOne := fun t' t'' => ?_
    absent := fun t' id => ?_
    insertOne := fun t' t'' id => ?_ }
  · rcases hcase t' with ⟨-, hpc⟩ | ⟨-, hpc⟩ <;> rw [hpc]
    · exact hqueue queue
    · exact h.queue t' queue
  · rcases hcase t' with ⟨-, hpc⟩ | ⟨-, hpc⟩ <;> rw [hpc]
    · exact htested
    · exact h.tested t'
  · rcases hcase t' with ⟨-, hpc⟩ | ⟨-, hpc⟩ <;> rw [hpc]
    · exact fun hi => (hinit hi).1
    · exact h.init t'
  · rcases hcase t' with ⟨ht', hpc⟩ | ⟨ht', hpc⟩ <;>
      rcases hcase t'' with ⟨ht'', hpc'⟩ | ⟨ht'', hpc'⟩ <;> rw [hpc, hpc']
    · exact fun _ _ => ht'.trans ht''.symm
    · exact fun hi hi' => absurd hi' (by rw [(hinit hi).2 t'' ht'']; decide)
    · exact fun hi hi' => absurd hi (by rw [(hinit hi').2 t' ht']; decide)
    · exact h.initOne t' t''
  · rcases hcase t' with ⟨-, hpc⟩ | ⟨-, hpc⟩ <;> rw [hpc]
    · exact fun hi => (hinsert id hi).1
    · exact h.absent t' id
  · rcases hcase t' with ⟨ht', hpc⟩ | ⟨ht', hpc⟩ <;>
      rcases hcase t'' with ⟨ht'', hpc'⟩ | ⟨ht'', hpc'⟩ <;> rw [hpc, hpc']
    · exact fun _ _ => ht'.trans ht''.symm
    · exact fun hi hi' => absurd hi' ((hinsert id hi).2 t'' ht'')
    · exact fun hi hi' => absurd hi ((hinsert id hi').2 t' ht')
    · exact h.insertOne t' t'' id

/-- A thread may always go on to a step that relies on nothing. -/
theorem Inv.goto_free {s : State τ} (h : Inv s) (t : τ) (pc : Pc) (hqueue : pc.queue = none)
    (htested : pc.tested = false) (hinit : pc.inits = false) (hinsert : pc.inserts = none) :
    Inv (s.goto t pc) := by
  refine h.goto t pc ?_ ?_ ?_ ?_
  · rw [hqueue]
    rintro _ ⟨⟩
  · rw [htested]
    rintro ⟨⟩
  · rw [hinit]
    rintro ⟨⟩
  · rw [hinsert]
    rintro _ ⟨⟩

omit [DecidableEq τ] in
/-- The queue is made by the one thread that saw it missing. -/
theorem Inv.initQueue {s : State τ} (h : Inv s) (hnone : s.sessionInfoQueue = none)
    (hinits : ∀ t, (s.pc t).inits = false) :
    Inv { s with
      sessionInfoQueue := some s.nextQueue
      queues := Function.update s.queues s.nextQueue []
      nextQueue := s.nextQueue + 1 } := by
  have hempty : s.registry = [] := by rw [State.registry, hnone]
  refine ⟨?_, fun t queue hq => ?_, fun _ _ => Option.some_ne_none _, fun t hi => ?_,
    h.initOne, fun t id hi r hr => ?_, h.insertOne, fun r hr hrem => ?_⟩
  · simp [State.registry]
  · exact absurd (h.queue t queue hq) (by simp [hnone])
  · exact absurd hi (by simp [hinits t])
  · simp [State.registry] at hr
  · exact absurd (h.kept r hr hrem) (by simp [hempty])

omit [DecidableEq τ] in
/-- A record is inserted by the one thread that missed its id. -/
theorem Inv.insertRecord {s : State τ} (h : Inv s) {queue id : Nat}
    (hqueue : s.sessionInfoQueue = some queue) (habsent : ∀ r ∈ s.registry, r.sessionId ≠ id)
    (hinserts : ∀ t, (s.pc t).inserts ≠ some id) :
    Inv { s with
      queues := Function.update s.queues queue (s.queues queue ++ [⟨s.nextAddress, id⟩])
      nextAddress := s.nextAddress + 1
      returned := s.returned ++ [⟨s.nextAddress, id⟩] } := by
  set s' : State τ := { s with
    queues := Function.update s.queues queue (s.queues queue ++ [⟨s.nextAddress, id⟩])
    nextAddress := s.nextAddress + 1
    returned := s.returned ++ [⟨s.nextAddress, id⟩] }
  have hregistry : s'.registry = s.registry ++ [⟨s.nextAddress, id⟩] := by
    simp [s', State.registry, hqueue]
  refine ⟨?_, h.queue, h.tested, h.init, h.initOne, fun t id' hi r hr => ?_, h.insertOne,
    fun r hr hrem => ?_⟩
  · rw [hregistry, List.map_append, List.nodup_append]
    refine ⟨h.nodup, List.nodup_singleton _, fun a ha b hb => ?_⟩
    obtain ⟨r, hr, rfl⟩ := List.mem_map.1 ha
    rw [List.map_singleton, List.mem_singleton] at hb
    subst hb
    exact habsent r hr
  · rw [hregistry] at hr
    rcases List.mem_append.1 hr with hr | hr
    · exact h.absent t id' hi r hr
    · rw [List.mem_singleton.1 hr]
      rintro rfl
      exact hinserts t hi
  · rw [hregistry]
    rcases List.mem_append.1 hr with hr | hr
    · exact List.mem_append_left _ (h.kept r hr hrem)
    · exact List.mem_append_right _ hr

omit [DecidableEq τ] in
/-- Removing a record takes it out of the registry, and no other. -/
theorem Inv.removeRecord {s : State τ} (h : Inv s) {queue : Nat} (id : Nat)
    (hqueue : s.sessionInfoQueue = some queue) :
    Inv { s with
      queues := Function.update s.queues queue ((s.queues queue).eraseP (sessionInfoCmp id))
      removed := s.removed ++
        (((s.queues queue).find? (sessionInfoCmp id)).map Record.address).toList } := by
  set s' : State τ := { s with
    queues := Function.update s.queues queue ((s.queues queue).eraseP (sessionInfoCmp id))
    removed := s.removed ++
      (((s.queues queue).find? (sessionInfoCmp id)).map Record.address).toList }
  have hregistry : s'.registry = s.registry.eraseP (sessionInfoCmp id) := by
    simp [s', State.registry, hqueue]
  refine ⟨?_, h.queue, h.tested, h.init, h.initOne, fun t id' hi r hr => ?_, h.insertOne,
    fun r hr hrem => ?_⟩
  · rw [hregistry]
    exact h.nodup.sublist (List.eraseP_sublist.map _)
  · rw [hregistry] at hr
    exact h.absent t id' hi r (List.mem_of_mem_eraseP hr)
  · rw [hregistry]
    rw [List.mem_append, not_or] at hrem
    refine Fifo.mem_eraseP_of_find?_ne (h.kept r hr hrem.1) fun y hy => ?_
    rintro rfl
    rw [← registry_eq hqueue, hy] at hrem
    exact hrem.2 (List.mem_singleton_self _)

omit [DecidableEq τ] in
/-- A look-up that finds a record yields one of the registry. -/
theorem Inv.returnRecord {s : State τ} (h : Inv s) {r : Record} (hr : r ∈ s.registry) :
    Inv { s with returned := s.returned ++ [r] } := by
  refine { h with kept := fun r' hr' hrem => ?_ }
  rcases List.mem_append.1 hr' with hr' | hr'
  · exact h.kept r' hr' hrem
  · rw [List.mem_singleton.1 hr']
    exact hr

/-- Once the thread that makes the queue has gone on, no thread is about to make it. -/
theorem Inv.inits_goto {s : State τ} (h : Inv s) {t : τ} (hinits : (s.pc t).inits) {pc : Pc}
    (hpc : pc.inits = false) (t' : τ) : ((s.goto t pc).pc t').inits = false := by
  by_cases ht : t' = t
  · subst ht
    rwa [State.goto_pc_self]
  · rw [State.goto_pc_other s _ ht]
    by_contra hi
    exact ht (h.initOne t' t (by simpa using hi) hinits)

/-- Once the thread that inserts an id has gone on, no thread is about to insert it. -/
theorem Inv.inserts_goto {s : State τ} (h : Inv s) {t : τ} {id : Nat}
    (hinserts : (s.pc t).inserts = some id) {pc : Pc} (hpc : pc.inserts = none) (t' : τ) :
    ((s.goto t pc).pc t').inserts ≠ some id := by
  intro hi
  by_cases ht : t' = t
  · subst ht
    rw [State.goto_pc_self, hpc] at hi
    cases hi
  · rw [State.goto_pc_other s _ ht] at hi
    exact ht (h.insertOne t' t id hi hinserts)

/-- **Steps without a race keep the invariant.** -/
theorem Inv.step {s s' : State τ} (h : Inv s) {a : Action τ} (hok : NoRace s a)
    (hstep : Step s a s') : Inv s' := by
  cases hstep with
  | getSessionInfo | cleanupSession | enter =>
    exact (h.locks _ _).goto_free _ _ rfl rfl rfl rfl
  | queueEnter | exit => exact (h.locks _ s.nextLock).goto_free _ _ rfl rfl rfl rfl
  | @queueNull t caller sLock hpc hqueue =>
    have hrace : NoRaceAt s t (s.pc t) := hok
    rw [hpc] at hrace
    refine h.goto t _ ?_ ?_ (fun _ => ⟨hqueue, hrace hqueue⟩) ?_
    · rintro _ ⟨⟩
    · rintro ⟨⟩
    · rintro _ ⟨⟩
  | queueThere hpc hqueue =>
    refine h.goto _ _ ?_ (fun _ => by simp [hqueue]) ?_ ?_
    · rintro _ ⟨⟩
    · rintro ⟨⟩
    · rintro _ ⟨⟩
  | @queueInit t caller sLock hpc =>
    have hinits : (s.pc t).inits := by rw [hpc]; rfl
    have hmade := (h.goto_free t .idle rfl rfl rfl rfl).initQueue (h.init t hinits)
      (h.inits_goto hinits rfl)
    have hnext := hmade.goto t (.queueExit caller sLock) (by rintro _ ⟨⟩)
      (fun _ => Option.some_ne_none _) (by rintro ⟨⟩) (by rintro _ ⟨⟩)
    simpa [State.goto] using hnext
  | queueExit hpc =>
    have htested : s.sessionInfoQueue ≠ none := h.tested _ (by rw [hpc]; rfl)
    refine (h.locks _ s.nextLock).goto _ _ ?_ (fun _ => htested) ?_ ?_
    · rintro _ ⟨⟩
    · rintro ⟨⟩
    · rintro _ ⟨⟩
  | lookup hpc hqueue | cleanup hpc hqueue =>
    refine h.goto _ _ ?_ ?_ ?_ ?_
    · rintro _ ⟨⟩
      exact hqueue
    · rintro ⟨⟩
    · rintro ⟨⟩
    · rintro _ ⟨⟩
  | hit hpc hfind =>
    have hqueue := h.queue _ _ (by rw [hpc]; rfl)
    have hmem : _ ∈ s.registry := registry_eq hqueue ▸ List.mem_of_find?_eq_some hfind
    exact (h.returnRecord hmem).goto_free _ _ rfl rfl rfl rfl
  | @miss t id sLock queue hpc hfind =>
    have hqueue := h.queue t queue (by rw [hpc]; rfl)
    have hrace : NoRaceAt s t (s.pc t) := hok
    rw [hpc] at hrace
    refine h.goto t _ ?_ ?_ ?_ ?_
    · rintro _ ⟨⟩
      exact hqueue
    · rintro ⟨⟩
    · rintro ⟨⟩
    · rintro _ ⟨⟩
      refine ⟨fun r hr => ?_, hrace hfind⟩
      rw [registry_eq hqueue] at hr
      simpa [sessionInfoCmp] using List.find?_eq_none.1 hfind r hr
  | @insert t id sLock queue hpc =>
    have hinserts : (s.pc t).inserts = some id := by rw [hpc]; rfl
    have hqueue := h.queue t queue (by rw [hpc]; rfl)
    exact (h.goto_free t (.exit sLock ⟨s.nextAddress, id⟩) rfl rfl rfl rfl).insertRecord hqueue
      (h.absent t id hinserts) (h.inserts_goto hinserts rfl)
  | remove hpc =>
    have hqueue := h.queue _ _ (by rw [hpc]; rfl)
    exact (h.goto_free _ .idle rfl rfl rfl rfl).removeRecord _ hqueue

/-- **One record for each id.** For any number of threads, any ids and any schedule whose steps do
not race, every state that is reached has a registry without duplicates, and all look-ups of an id
have found the same record as long as it was there. -/
theorem unique_of_run {as : List (Action τ)} {s : State τ} (run : Lts.Run exec NoRace start as s) :
    Unique s :=
  (run.invariant (fun h hok hstep => h.step hok (step_of_exec hstep)) inv_start).unique

/-- Two threads look up one id, one after the other. -/
def lookupAfterLookup : List (Action Bool) :=
  .getSessionInfo false 4 :: List.replicate 9 (.step false) ++
    .getSessionInfo true 4 :: List.replicate 7 (.step true)

theorem unique_lookupAfterLookup : ∃ s : State Bool,
    Lts.Run exec NoRace start lookupAfterLookup s ∧ s.returned.length = 2 ∧ Unique s := by
  have run : Lts.Run exec NoRace start lookupAfterLookup _ := Lts.Run.of_execWhile rfl
  exact ⟨_, run, rfl, unique_of_run run⟩

/-- Two threads look up one id, each up to the point where it has missed it, and insert it. -/
def twoLookups : List (Action Bool) :=
  [.getSessionInfo false 4, .getSessionInfo true 4,
    .step false, .step false, .step false, .step false, .step false, .step false, .step false,
    .step true, .step true, .step true, .step true, .step true, .step true,
    .step false, .step true]

/-- Both insert a record, and the two look-ups yield different records. -/
theorem not_unique_twoLookups : ∃ s : State Bool,
    Lts.Run exec (fun _ _ => True) start twoLookups s ∧ ¬ Unique s := by
  refine ⟨_, Lts.Run.of_execAll rfl, fun h => ?_⟩
  have hnodup := h.registry
  revert hnodup
  decide

end GlfsNdmp.Registry
