import GlfsNdmp.Lib.Lts
import Mathlib.Data.List.Nodup
import Mathlib.Logic.Function.Basic
import Mathlib.Logic.Relation

/-!
# Threads that share locks

Threads run sequential code over a shared memory and take and release mutexes by hand. A mutex is
not recursive: whoever enters waits while it is owned, its owner too. A call opens a frame, in
which the locks it takes itself are noted; nothing reads the frames.

`Safe` is what one wants of such a system: no thread enters a lock it owns, a call releases its own
locks and all of them before it returns, and no threads wait for one another in a circle.

The proof rule (`safe_of_run`): give the locks ranks, and let each piece of code, read on its own,
take locks in rising order and return with what it took released (`Disciplined`). What the code
reads on the way to a lock may be assumed to be good, as long as every access keeps it good.
-/

namespace Locking

universe u v

/-- Sequential code, one constructor for each kind of step. An access may be illegal, like one to
memory that has been freed. -/
inductive Code (σ : Type u) (ℓ : Type v)
  | done
  /-- A function is called. -/
  | call (next : Code σ ℓ)
  /-- The function that was called last returns. -/
  | ret (next : Code σ ℓ)
  | enter (lock : ℓ) (next : Code σ ℓ)
  | exit (lock : ℓ) (next : Code σ ℓ)
  | access (legal : σ → Bool) (update : σ → σ) (next : σ → Code σ ℓ)

variable {τ σ ℓ κ ε : Type*}

/-! ## States -/

/-- The threads with the code they have left, the owners of the locks, for each thread the locks
its calls in progress have taken themselves, innermost call first, and the memory. -/
structure State (τ σ ℓ : Type*) where
  code : τ → Code σ ℓ
  owner : ℓ → Option τ
  frames : τ → List (List ℓ)
  memory : σ

def start (memory : σ) : State τ σ ℓ where
  code _ := .done
  owner _ := none
  frames _ := []
  memory := memory

/-- A thread waits for a lock another owns. -/
def WaitsFor (s : State τ σ ℓ) (t t' : τ) : Prop :=
  ∃ lock next, s.code t = .enter lock next ∧ s.owner lock = some t'

/-- No thread is about to break the rules, and no threads wait in a circle. -/
structure Safe (s : State τ σ ℓ) : Prop where
  /-- No thread enters a lock it owns. -/
  entersOther : ∀ t lock next, s.code t = .enter lock next → s.owner lock ≠ some t
  /-- A call releases only what it has taken itself, and still owns. -/
  releasesOwn : ∀ t lock next, s.code t = .exit lock next →
    s.owner lock = some t ∧ ∃ frame ∈ (s.frames t).head?, lock ∈ frame
  /-- A call that returns has released all of it. -/
  returnsFree : ∀ t next, s.code t = .ret next → (s.frames t).head? = some []
  acyclic : ∀ t, ¬ Relation.TransGen (WaitsFor s) t t

/-! ## Steps -/

/-- What a thread may turn to when it is done, and what else may happen to the memory. -/
structure System (τ σ ℓ κ ε : Type*) where
  task : τ → κ → Option (Code σ ℓ)
  outside : σ → ε → Option σ

inductive Action (τ κ ε : Type*)
  | begin (t : τ) (task : κ)
  | step (t : τ)
  | outside (event : ε)

/-- The step is no illegal access. -/
def Legal (s : State τ σ ℓ) : Action τ κ ε → Prop
  | .step t => ∀ legal update next, s.code t = .access legal update next → legal s.memory
  | _ => True

instance Legal.decidable (s : State τ σ ℓ) : (a : Action τ κ ε) → Decidable (Legal s a)
  | .begin _ _ | .outside _ => .isTrue trivial
  | .step t =>
    match hcode : s.code t with
    | .access legal update next =>
      decidable_of_iff (legal s.memory = true)
        ⟨fun hlegal _ _ _ hcode' => by cases hcode.symm.trans hcode'; exact hlegal,
          fun hlegal => hlegal _ _ _ hcode⟩
    | .done | .call _ | .ret _ | .enter _ _ | .exit _ _ =>
      .isTrue fun _ _ _ hcode' => by cases hcode.symm.trans hcode'

/-- The innermost call takes a lock. -/
def take (lock : ℓ) : List (List ℓ) → List (List ℓ)
  | [] => []
  | frame :: frames => (lock :: frame) :: frames

/-- The innermost call releases a lock. -/
def release [DecidableEq ℓ] (lock : ℓ) : List (List ℓ) → List (List ℓ)
  | [] => []
  | frame :: frames => frame.erase lock :: frames

/-- Thread `t` goes on to `code`, with these frames. -/
def State.goto [DecidableEq τ] (s : State τ σ ℓ) (t : τ) (code : Code σ ℓ)
    (frames : List (List ℓ)) : State τ σ ℓ :=
  { s with code := Function.update s.code t code, frames := Function.update s.frames t frames }

/-- One step of thread `t`; it waits for a lock that is owned. -/
def State.step [DecidableEq τ] [DecidableEq ℓ] (s : State τ σ ℓ) (t : τ) :
    Option (State τ σ ℓ) :=
  match s.code t with
  | .done => none
  | .call next => some (s.goto t next ([] :: s.frames t))
  | .ret next => some (s.goto t next (s.frames t).tail)
  | .enter lock next =>
    match s.owner lock with
    | none =>
      some ({ s with owner := Function.update s.owner lock (some t) }.goto t next
        (take lock (s.frames t)))
    | some _ => none
  | .exit lock next =>
    some ({ s with owner := Function.update s.owner lock none }.goto t next
      (release lock (s.frames t)))
  | .access _ update next =>
    some ({ s with memory := update s.memory }.goto t (next s.memory) (s.frames t))

def System.exec [DecidableEq τ] [DecidableEq ℓ] (sys : System τ σ ℓ κ ε) (s : State τ σ ℓ) :
    Action τ κ ε → Option (State τ σ ℓ)
  | .begin t task =>
    match s.code t with
    | .done => (sys.task t task).map fun code => s.goto t code (s.frames t)
    | _ => none
  | .step t => s.step t
  | .outside event => (sys.outside s.memory event).map fun memory => { s with memory := memory }

/-! ## Discipline -/

variable (rank : ℓ → Nat) (Good : σ → Prop)

/-- Code that has taken the locks of `frames` takes further ones in rising order, returns with its
own released, and keeps the memory good, if it finds it good. -/
def Disciplined : Code σ ℓ → List (List ℓ) → Prop
  | .done, frames => frames = []
  | .call next, frames => Disciplined next ([] :: frames)
  | .ret next, frames => ∃ rest, frames = [] :: rest ∧ Disciplined next rest
  | .enter lock next, frames =>
    frames ≠ [] ∧ (∀ held ∈ frames.flatten, rank held < rank lock) ∧
      Disciplined next (take lock frames)
  | .exit lock next, frames =>
    ∃ frame rest, frames = (lock :: frame) :: rest ∧ Disciplined next (frame :: rest)
  | .access legal update next, frames =>
    ∀ memory, Good memory → legal memory → Good (update memory) ∧ Disciplined (next memory) frames

/-- Every task is disciplined, and the memory stays good whatever else happens to it. -/
structure System.Disciplined (sys : System τ σ ℓ κ ε) : Prop where
  task : ∀ t task code, sys.task t task = some code → Locking.Disciplined rank Good code []
  outside : ∀ memory event memory', Good memory → sys.outside memory event = some memory' →
    Good memory'

/-- In the middle of a run: what each thread has left is disciplined, and the frames say who owns
what. -/
structure Inv (s : State τ σ ℓ) : Prop where
  good : Good s.memory
  disciplined : ∀ t, Disciplined rank Good (s.code t) (s.frames t)
  owner : ∀ t lock, s.owner lock = some t ↔ lock ∈ (s.frames t).flatten
  nodup : ∀ t, (s.frames t).flatten.Nodup

variable {rank Good} {s s' : State τ σ ℓ} {t : τ}

theorem flatten_take {lock : ℓ} {frames : List (List ℓ)} (h : frames ≠ []) :
    (take lock frames).flatten = lock :: frames.flatten := by
  cases frames with
  | nil => exact absurd rfl h
  | cons frame frames => rfl

theorem inv_start {memory : σ} (h : Good memory) :
    Inv rank Good (start memory : State τ σ ℓ) where
  good := h
  disciplined _ := rfl
  owner _ _ := by simp [start]
  nodup _ := List.nodup_nil

variable [DecidableEq τ]

@[simp] theorem State.goto_frames_self (s : State τ σ ℓ) (t : τ) (code : Code σ ℓ)
    (frames : List (List ℓ)) : (s.goto t code frames).frames t = frames :=
  Function.update_self _ _ _

theorem State.goto_frames_other (s : State τ σ ℓ) {t t' : τ} (code : Code σ ℓ)
    (frames : List (List ℓ)) (h : t' ≠ t) : (s.goto t code frames).frames t' = s.frames t' :=
  Function.update_of_ne h _ _

/-- A step of one thread leaves the code of the others as disciplined as it was. -/
theorem Inv.disciplined_goto (h : Inv rank Good s) {code : Code σ ℓ} {frames : List (List ℓ)}
    (hcode : Disciplined rank Good code frames) (t' : τ) :
    Disciplined rank Good ((s.goto t code frames).code t') ((s.goto t code frames).frames t') := by
  by_cases ht : t' = t
  · subst ht
    rw [State.goto_frames_self]
    show Disciplined rank Good (Function.update s.code t' code t') frames
    rwa [Function.update_self]
  · rw [State.goto_frames_other _ _ _ ht]
    show Disciplined rank Good (Function.update s.code t code t') _
    rw [Function.update_of_ne ht]
    exact h.disciplined t'

/-- A step of one thread keeps the invariant if its frames still say what it owns, and it leaves
the others what they own. -/
theorem Inv.move (h : Inv rank Good s) {owner : ℓ → Option τ} {code : Code σ ℓ}
    {frames : List (List ℓ)} (hcode : Disciplined rank Good code frames)
    (hself : ∀ lock, owner lock = some t ↔ lock ∈ frames.flatten)
    (hother : ∀ t' lock, t' ≠ t → (owner lock = some t' ↔ s.owner lock = some t'))
    (hnodup : frames.flatten.Nodup) :
    Inv rank Good ({ s with owner := owner }.goto t code frames) where
  good := h.good
  disciplined := h.disciplined_goto hcode
  owner t' lock := by
    by_cases ht : t' = t
    · subst ht
      rw [State.goto_frames_self]
      exact hself lock
    · rw [State.goto_frames_other _ _ _ ht]
      exact (hother t' lock ht).trans (h.owner t' lock)
  nodup t' := by
    by_cases ht : t' = t
    · subst ht
      rwa [State.goto_frames_self]
    · rw [State.goto_frames_other _ _ _ ht]
      exact h.nodup t'

/-- A step that moves no lock from one call to another and touches no memory. -/
theorem Inv.goto (h : Inv rank Good s) {code : Code σ ℓ} {frames : List (List ℓ)}
    (hcode : Disciplined rank Good code frames)
    (hframes : frames.flatten = (s.frames t).flatten) :
    Inv rank Good (s.goto t code frames) := by
  refine h.move hcode (fun lock => ?_) (fun _ _ _ => Iff.rfl) ?_
  · rw [hframes]
    exact h.owner t lock
  · rw [hframes]
    exact h.nodup t

variable [DecidableEq ℓ]

/-- A free lock is taken. -/
theorem Inv.enter (h : Inv rank Good s) {lock : ℓ} {next : Code σ ℓ}
    (hcode : s.code t = .enter lock next) (hfree : s.owner lock = none) :
    Inv rank Good ({ s with owner := Function.update s.owner lock (some t) }.goto t next
      (take lock (s.frames t))) := by
  have hdisciplined := h.disciplined t
  rw [hcode] at hdisciplined
  obtain ⟨hne, -, hnext⟩ := hdisciplined
  have hheld : lock ∉ (s.frames t).flatten := by
    intro hlock
    rw [← h.owner, hfree] at hlock
    cases hlock
  refine h.move hnext (fun lock' => ?_) (fun t' lock' ht => ?_) ?_
  · rw [flatten_take hne, List.mem_cons, ← h.owner]
    by_cases hlock : lock' = lock
    · simp [hlock]
    · simp [hlock]
  · by_cases hlock : lock' = lock
    · subst hlock
      rw [Function.update_self, hfree]
      exact iff_of_false (fun heq => ht (Option.some.inj heq).symm) (fun heq => by cases heq)
    · rw [Function.update_of_ne hlock]
  · rw [flatten_take hne]
    exact List.nodup_cons.2 ⟨hheld, h.nodup t⟩

/-- A lock is released by the call that took it. -/
theorem Inv.exit (h : Inv rank Good s) {lock : ℓ} {next : Code σ ℓ}
    (hcode : s.code t = .exit lock next) :
    Inv rank Good ({ s with owner := Function.update s.owner lock none }.goto t next
      (release lock (s.frames t))) := by
  have hdisciplined := h.disciplined t
  rw [hcode] at hdisciplined
  obtain ⟨frame, rest, hframes, hnext⟩ := hdisciplined
  have hrelease : release lock (s.frames t) = frame :: rest := by
    rw [hframes, release, List.erase_cons_head]
  have howner : s.owner lock = some t := (h.owner t lock).2 (by rw [hframes]; simp)
  have hnodup := h.nodup t
  rw [hframes, List.flatten_cons, List.cons_append, List.nodup_cons] at hnodup
  rw [hrelease]
  refine h.move hnext (fun lock' => ?_) (fun t' lock' ht => ?_) hnodup.2
  · by_cases hlock : lock' = lock
    · subst hlock
      rw [Function.update_self]
      exact iff_of_false (fun heq => by cases heq) hnodup.1
    · rw [Function.update_of_ne hlock, h.owner, hframes]
      simp [hlock]
  · by_cases hlock : lock' = lock
    · subst hlock
      rw [Function.update_self, howner]
      exact iff_of_false (fun heq => by cases heq) (fun heq => ht (Option.some.inj heq).symm)
    · rw [Function.update_of_ne hlock]

/-- Every step that is no illegal access keeps the invariant. -/
theorem Inv.exec {sys : System τ σ ℓ κ ε} (hsys : sys.Disciplined rank Good)
    {a : Action τ κ ε} (h : Inv rank Good s) (hlegal : Legal s a) (hstep : sys.exec s a = some s') :
    Inv rank Good s' := by
  cases a with
  | begin t task =>
    simp only [System.exec] at hstep
    split at hstep
    case h_1 hdone =>
      obtain ⟨code, htask, rfl⟩ := Option.map_eq_some_iff.1 hstep
      have hframes := h.disciplined t
      rw [hdone] at hframes
      refine h.goto ?_ rfl
      rw [show s.frames t = [] from hframes]
      exact hsys.task t task code htask
    case h_2 => cases hstep
  | outside event =>
    obtain ⟨memory, hmemory, rfl⟩ := Option.map_eq_some_iff.1 hstep
    exact { h with good := hsys.outside _ _ _ h.good hmemory }
  | step t =>
    have hdisciplined := h.disciplined t
    change s.step t = some s' at hstep
    unfold State.step at hstep
    cases hcode : s.code t with
    | done =>
      rw [hcode] at hstep
      cases hstep
    | call next =>
      rw [hcode] at hstep hdisciplined
      cases hstep
      exact h.goto hdisciplined rfl
    | ret next =>
      rw [hcode] at hstep hdisciplined
      cases hstep
      obtain ⟨rest, hframes, hnext⟩ := hdisciplined
      rw [hframes]
      exact h.goto hnext (by rw [hframes]; rfl)
    | enter lock next =>
      simp only [hcode] at hstep
      cases howner : s.owner lock with
      | none =>
        rw [howner] at hstep
        cases hstep
        exact h.enter hcode howner
      | some t' =>
        rw [howner] at hstep
        cases hstep
    | exit lock next =>
      rw [hcode] at hstep
      cases hstep
      exact h.exit hcode
    | access legal update next =>
      rw [hcode] at hstep hdisciplined
      cases hstep
      obtain ⟨hgood, hnext⟩ := hdisciplined _ h.good (hlegal _ _ _ hcode)
      have hinv : Inv rank Good { s with memory := update s.memory } := { h with good := hgood }
      exact hinv.goto hnext rfl

/-! ## Why it is safe -/

omit [DecidableEq τ] [DecidableEq ℓ]

/-- Whoever waits for the owner of a lock wants a lock of lower rank than the owner, if it waits
too. -/
theorem Inv.rank_lt (h : Inv rank Good s) {t t' : τ} (hwaits : WaitsFor s t t')
    {lock lock' : ℓ} {next next' : Code σ ℓ} (hcode : s.code t = .enter lock next)
    (hcode' : s.code t' = .enter lock' next') : rank lock < rank lock' := by
  obtain ⟨_, _, hcode₂, howner⟩ := hwaits
  cases hcode.symm.trans hcode₂
  have hdisciplined := h.disciplined t'
  rw [hcode'] at hdisciplined
  exact hdisciplined.2.1 lock ((h.owner t' lock).1 howner)

/-- Along a chain of threads that wait for one another the ranks rise. -/
theorem Inv.rank_lt_of_transGen (h : Inv rank Good s) {t t' : τ}
    (hwaits : Relation.TransGen (WaitsFor s) t t') {lock lock' : ℓ} {next next' : Code σ ℓ}
    (hcode : s.code t = .enter lock next) (hcode' : s.code t' = .enter lock' next') :
    rank lock < rank lock' := by
  induction hwaits generalizing lock' next' with
  | single hwaits => exact h.rank_lt hwaits hcode hcode'
  | tail _ hwaits ih =>
    have ⟨lock₁, next₁, hcode₁, _⟩ := hwaits
    exact Nat.lt_trans (ih hcode₁) (h.rank_lt hwaits hcode₁ hcode')

theorem Inv.safe (h : Inv rank Good s) : Safe s where
  entersOther t lock next hcode howner := by
    have hdisciplined := h.disciplined t
    rw [hcode] at hdisciplined
    exact absurd (hdisciplined.2.1 lock ((h.owner t lock).1 howner)) (Nat.lt_irrefl _)
  releasesOwn t lock next hcode := by
    have hdisciplined := h.disciplined t
    rw [hcode] at hdisciplined
    obtain ⟨frame, rest, hframes, -⟩ := hdisciplined
    refine ⟨(h.owner t lock).2 (by rw [hframes]; simp), lock :: frame, ?_, List.mem_cons_self⟩
    rw [hframes]
    rfl
  returnsFree t next hcode := by
    have hdisciplined := h.disciplined t
    rw [hcode] at hdisciplined
    obtain ⟨rest, hframes, -⟩ := hdisciplined
    rw [hframes]
    rfl
  acyclic t hcycle := by
    obtain ⟨_, ⟨lock, next, hcode, -⟩, -⟩ := Relation.TransGen.head'_iff.1 hcycle
    exact Nat.lt_irrefl _ (h.rank_lt_of_transGen hcycle hcode hcode)

variable [DecidableEq τ] [DecidableEq ℓ]

/-- **The proof rule.** A disciplined system that starts good is safe in every state of every run
without an illegal access. -/
theorem safe_of_run {sys : System τ σ ℓ κ ε} (hsys : sys.Disciplined rank Good) {memory : σ}
    (hgood : Good memory) {as : List (Action τ κ ε)}
    (run : Lts.Run sys.exec Legal (start memory) as s) : Safe s :=
  (run.invariant (fun h hlegal hstep => h.exec hsys hlegal hstep) (inv_start hgood)).safe

end Locking
