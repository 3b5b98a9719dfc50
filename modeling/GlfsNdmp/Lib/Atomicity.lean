import GlfsNdmp.Lib.Lts

/-!
# Critical sections as single steps

Threads share a memory and one mutex. What a thread does inside the mutex is code that other threads
come between instruction by instruction; what it does outside is a step of its own, which may come
at any time, also in the middle of another thread's section.

**Commits.** A section may have one instruction whose effect a step outside can notice, like the one
that frees a block. There it takes effect as a whole; a section without such an instruction takes
effect when the mutex is given back.

**Linearization.** `linearized` lists the calls at the instants at which they take effect, each of
which lies between the entry to the section and its exit.

**Soundness.** `Sound` is what has to be known of single instructions: one that does not commit
changes nothing that the steps outside depend on, and every instruction commutes with the effects of
the steps outside. Then every interleaving gives what the calls give one after another
(`linearized_of_run`).
-/

namespace Atomicity

universe u v w

/-- Code inside the mutex: an instruction, and what comes after each of its answers. -/
inductive Code (ι : Type u) (A : ι → Type v) (β : Type w)
  | done (result : β)
  | instr (i : ι) (next : A i → Code ι A β)
  /-- The fuel of a loop is used up. -/
  | cut

/-- A call: a section, or one step outside, with what it returns if it can be done, and what it does
to the memory. -/
inductive Call (σ : Type*) (ι : Type u) (A : ι → Type v) (β : Type w)
  | inside (code : Code ι A β)
  | outside (answer : σ → Option β) (effect : σ → σ)

/-- The instructions, with `none` where one goes wrong, and the calls, with what the callers
promise. -/
structure System (σ κ : Type*) (ι : Type u) (A : ι → Type v) (β : Type w) where
  instr : (i : ι) → σ → Option (σ × A i)
  commits : ι → Bool
  call : κ → Call σ ι A β
  permits : σ → κ → Prop

variable {τ σ κ : Type*} {ι : Type u} {A : ι → Type v} {β : Type w}

/-! ## Calls one after another -/

namespace System

variable (sys : System σ κ ι A β)

/-- A section from one end to the other. -/
def run : Code ι A β → σ → Option (σ × β)
  | .done r, m => some (m, r)
  | .instr i next, m => (sys.instr i m).bind fun x => run (next x.2) x.1
  | .cut, _ => none

/-- A call by itself. -/
def perform (m : σ) (op : κ) : Option (σ × β) :=
  match sys.call op with
  | .inside code => sys.run code m
  | .outside answer effect => (answer m).map fun r => (effect m, r)

theorem perform_inside {op : κ} {code : Code ι A β} (hcall : sys.call op = .inside code) (m : σ) :
    sys.perform m op = sys.run code m := by
  rw [perform, hcall]

theorem perform_outside {op : κ} {answer : σ → Option β} {effect : σ → σ} {m : σ} {r : β}
    (hcall : sys.call op = .outside answer effect) (hanswer : answer m = some r) :
    sys.perform m op = some (effect m, r) := by
  rw [perform, hcall]
  exact congrArg (Option.map fun r => (effect m, r)) hanswer

/-- Calls that are done one after another, with the threads that make them and what they return. -/
inductive Performs (m₀ : σ) : List (τ × κ × β) → σ → Prop
  | nil : Performs m₀ [] m₀
  | concat {calls : List (τ × κ × β)} {m m' : σ} {op : κ} {r : β} (h : Performs m₀ calls m)
      (hpermits : sys.permits m op) (hperform : sys.perform m op = some (m', r)) (t : τ) :
      Performs m₀ (calls ++ [(t, op, r)]) m'

end System

/-! ## Calls that are interleaved -/

/-- The thread that owns the mutex, its call, what is left of it, and whether it has taken
effect. -/
structure Inside (τ κ : Type*) (ι : Type u) (A : ι → Type v) (β : Type w) where
  thread : τ
  op : κ
  code : Code ι A β
  committed : Bool

structure State (τ σ κ : Type*) (ι : Type u) (A : ι → Type v) (β : Type w) where
  memory : σ
  inside : Option (Inside τ κ ι A β)

def start (memory : σ) : State τ σ κ ι A β := ⟨memory, none⟩

/-- A thread takes the mutex, the thread that owns it does an instruction or gives it back, or a
thread does something outside. -/
inductive Action (τ κ : Type*)
  | enter (t : τ) (op : κ)
  | step
  | exit
  | outside (t : τ) (op : κ)

namespace System

variable (sys : System σ κ ι A β)

def exec (s : State τ σ κ ι A β) : Action τ κ → Option (State τ σ κ ι A β)
  | .enter t op =>
    match s.inside, sys.call op with
    | none, .inside code => some { s with inside := some ⟨t, op, code, false⟩ }
    | _, _ => none
  | .step =>
    match s.inside with
    | some ⟨t, op, .instr i next, committed⟩ =>
      (sys.instr i s.memory).map fun x =>
        ⟨x.1, some ⟨t, op, next x.2, committed || sys.commits i⟩⟩
    | _ => none
  | .exit =>
    match s.inside with
    | some ⟨_, _, .done _, _⟩ => some { s with inside := none }
    | _ => none
  | .outside _ op =>
    match sys.call op with
    | .outside answer effect =>
      (answer s.memory).map fun _ => { s with memory := effect s.memory }
    | .inside _ => none

/-- The callers keep their promises, and a thread inside the mutex does nothing outside. -/
def Allowed (s : State τ σ κ ι A β) : Action τ κ → Prop
  | .enter _ op => sys.permits s.memory op
  | .outside t _ => ∀ x ∈ s.inside, x.thread ≠ t
  | _ => True

instance [DecidableEq τ] [∀ m, DecidablePred (sys.permits m)] (s : State τ σ κ ι A β) :
    DecidablePred (sys.Allowed s)
  | .enter _ op => inferInstanceAs (Decidable (sys.permits s.memory op))
  | .outside t _ =>
    match hinside : s.inside with
    | none => isTrue fun x hx => by rw [hinside] at hx; cases hx
    | some x =>
      decidable_of_iff (x.thread ≠ t)
        ⟨fun hne y hy => by rw [hinside] at hy; cases hy; exact hne,
          fun h => h x (by rw [hinside]; rfl)⟩
  | .step | .exit => isTrue trivial

/-- The call that takes effect in a step. At a commit it is known what the rest of the section will
return. -/
def linearizes (s : State τ σ κ ι A β) : Action τ κ → List (τ × κ × β)
  | .enter _ _ => []
  | .step =>
    match s.inside with
    | some ⟨t, op, .instr i next, false⟩ =>
      if sys.commits i then
        (sys.run (.instr i next) s.memory).toList.map fun x => (t, op, x.2)
      else []
    | _ => []
  | .exit =>
    match s.inside with
    | some ⟨t, op, .done r, false⟩ => [(t, op, r)]
    | _ => []
  | .outside t op =>
    match sys.call op with
    | .outside answer _ => (answer s.memory).toList.map fun r => (t, op, r)
    | .inside _ => []

/-- The call that returns in a step. -/
def returns (s : State τ σ κ ι A β) : Action τ κ → List (τ × κ × β)
  | .exit =>
    match s.inside with
    | some ⟨t, op, .done r, _⟩ => [(t, op, r)]
    | _ => []
  | .outside t op =>
    match sys.call op with
    | .outside answer _ => (answer s.memory).toList.map fun r => (t, op, r)
    | .inside _ => []
  | _ => []

/-- The calls of a run in the order in which they take effect. -/
def linearized (m₀ : σ) (as : List (Action τ κ)) : List (τ × κ × β) :=
  Lts.log sys.exec sys.linearizes (start m₀) as

theorem linearized_append (m₀ : σ) (as bs : List (Action τ κ)) :
    sys.linearized m₀ as <+: sys.linearized m₀ (as ++ bs) :=
  ⟨_, (Lts.log_append sys.linearizes (start m₀) as bs).symm⟩

/-- The calls of a run in the order in which they return. -/
def returned (m₀ : σ) (as : List (Action τ κ)) : List (τ × κ × β) :=
  Lts.log sys.exec sys.returns (start m₀) as

/-! ## What has to be known of the instructions -/

/-- Code that does not commit. -/
def Closed : Code ι A β → Prop
  | .done _ | .cut => True
  | .instr i next => sys.commits i = false ∧ ∀ a, Closed (next a)

/-- Code that commits at most once. -/
def Once : Code ι A β → Prop
  | .done _ | .cut => True
  | .instr i next => ∀ a, if sys.commits i then sys.Closed (next a) else Once (next a)

/-- `Apart op m`: what the step outside does in `m` is beside all that a section can reach. -/
structure Sound (Apart : κ → σ → Prop) : Prop where
  once : ∀ {op code}, sys.call op = .inside code → sys.Once code
  /-- A step outside that can be done is one that may be done, and is beside what a section
  reaches. -/
  answered : ∀ {op answer effect m r}, sys.call op = .outside answer effect → answer m = some r →
    sys.permits m op ∧ Apart op m
  /-- It does not break what a caller has promised. -/
  permits : ∀ {op answer effect m r op' code}, sys.call op = .outside answer effect →
    answer m = some r → sys.call op' = .inside code → sys.permits m op' →
    sys.permits (effect m) op'
  /-- An instruction that does not commit changes no answer. -/
  quiet : ∀ {op answer effect i m m' a}, sys.call op = .outside answer effect →
    sys.commits i = false → sys.instr i m = some (m', a) → answer m' = answer m
  commutes : ∀ {op answer effect i m m' a}, sys.call op = .outside answer effect → Apart op m →
    sys.instr i m = some (m', a) →
    sys.instr i (effect m) = some (effect m', a) ∧ Apart op m'

/-! ## Code that has not committed, or has nothing left to commit -/

/-- Instructions that do not commit lead from one piece of code to another. -/
inductive Quiet : Code ι A β → σ → Code ι A β → σ → Prop
  | refl (code : Code ι A β) (m : σ) : Quiet code m code m
  | step {i : ι} {next : A i → Code ι A β} {a : A i} {code : Code ι A β} {m m' m'' : σ}
      (hquiet : sys.commits i = false) (hinstr : sys.instr i m = some (m', a))
      (h : Quiet (next a) m' code m'') : Quiet (.instr i next) m code m''

end System

section

variable {sys : System σ κ ι A β} {code code' code'' : Code ι A β} {m m' m'' : σ} {r : β}

theorem System.Once.of_closed (h : sys.Closed code) : sys.Once code := by
  induction code with
  | done _ => trivial
  | instr i next ih =>
    intro a
    rw [h.1]
    exact ih a (h.2 a)
  | cut => trivial

theorem System.Once.step {i : ι} {next : A i → Code ι A β} (hcommits : sys.commits i = false)
    (h : ∀ a, sys.Once (next a)) : sys.Once (.instr i next) := by
  intro a
  rw [hcommits]
  exact h a

theorem System.Once.commit {i : ι} {next : A i → Code ι A β} (hcommits : sys.commits i = true)
    (h : ∀ a, sys.Closed (next a)) : sys.Once (.instr i next) := by
  intro a
  rw [hcommits]
  exact h a

theorem System.Quiet.trans (h : sys.Quiet code m code' m') (h' : sys.Quiet code' m' code'' m'') :
    sys.Quiet code m code'' m'' := by
  induction h with
  | refl => exact h'
  | step hquiet hinstr _ ih => exact .step hquiet hinstr (ih h')

theorem System.Quiet.run_eq (h : sys.Quiet code m code' m') :
    sys.run code m = sys.run code' m' := by
  induction h with
  | refl => rfl
  | step _ hinstr _ ih =>
    rw [System.run, hinstr, Option.bind_some]
    exact ih

theorem System.Quiet.of_closed (hclosed : sys.Closed code) (h : sys.run code m = some (m', r)) :
    sys.Quiet code m (.done r) m' := by
  induction code generalizing m with
  | done result =>
    cases h
    exact .refl _ _
  | instr i next ih =>
    obtain ⟨x, hinstr, hrun⟩ := Option.bind_eq_some_iff.1 h
    exact .step hclosed.1 hinstr (ih x.2 (hclosed.2 x.2) hrun)
  | cut => cases h

end

namespace System.Sound

variable {sys : System σ κ ι A β} {Apart : κ → σ → Prop} {code code' : Code ι A β} {m m' : σ}
  {op : κ} {answer : σ → Option β} {effect : σ → σ}

theorem answer_eq (h : sys.Sound Apart) (hcall : sys.call op = .outside answer effect)
    (hquiet : sys.Quiet code m code' m') : answer m' = answer m := by
  induction hquiet with
  | refl => rfl
  | step hq hinstr _ ih => exact ih.trans (h.quiet hcall hq hinstr)

/-- A step outside may as well come before instructions that do not commit. -/
theorem quiet_effect (h : sys.Sound Apart) (hcall : sys.call op = .outside answer effect)
    (hquiet : sys.Quiet code m code' m') (hapart : Apart op m) :
    sys.Quiet code (effect m) code' (effect m') := by
  induction hquiet with
  | refl => exact .refl _ _
  | step hq hinstr _ ih =>
    obtain ⟨hinstr', hapart'⟩ := h.commutes hcall hapart hinstr
    exact .step hq hinstr' (ih hapart')

end System.Sound

/-! ## The calls that have taken effect -/

namespace System

variable (sys : System σ κ ι A β)

/-- `m` is the memory after the calls that have taken effect, and `owed` the one of them that has
not returned. -/
inductive Stands : State τ σ κ ι A β → σ → List (τ × κ × β) → Prop
  | free (m : σ) : Stands ⟨m, none⟩ m []
  | before {t : τ} {op : κ} {whole code : Code ι A β} {m m' : σ}
      (hcall : sys.call op = .inside whole) (hpermits : sys.permits m op) (honce : sys.Once code)
      (hquiet : sys.Quiet whole m code m') : Stands ⟨m', some ⟨t, op, code, false⟩⟩ m []
  | after {t : τ} {op : κ} {code : Code ι A β} {m m' : σ} {r : β}
      (hquiet : sys.Quiet code m' (.done r) m) :
      Stands ⟨m', some ⟨t, op, code, true⟩⟩ m [(t, op, r)]

theorem Performs.append {m₀ m m' : σ} {calls calls' : List (τ × κ × β)}
    (h : sys.Performs m₀ calls m) (h' : sys.Performs m calls' m') :
    sys.Performs m₀ (calls ++ calls') m' := by
  induction h' with
  | nil => rwa [List.append_nil]
  | concat _ hpermits hperform t ih =>
    rw [← List.append_assoc]
    exact .concat ih hpermits hperform t

theorem Performs.single {m m' : σ} {op : κ} {r : β} (hpermits : sys.permits m op)
    (hperform : sys.perform m op = some (m', r)) (t : τ) : sys.Performs m [(t, op, r)] m' :=
  .concat .nil hpermits hperform t

end System

/-- The calls of one thread. -/
def ofThread [DecidableEq τ] (t : τ) (calls : List (τ × κ × β)) : List (τ × κ × β) :=
  calls.filter fun c => c.1 = t

@[simp] theorem ofThread_append [DecidableEq τ] (t : τ) (calls calls' : List (τ × κ × β)) :
    ofThread t (calls ++ calls') = ofThread t calls ++ ofThread t calls' :=
  List.filter_append ..

/-- Calls of different threads, either way round. -/
theorem ofThread_swap [DecidableEq τ] {c c' : τ × κ × β} (h : c.1 ≠ c'.1) (t : τ) :
    ofThread t ([c] ++ [c']) = ofThread t ([c'] ++ [c]) := by
  by_cases ht : c.1 = t
  · have ht' : ¬ c'.1 = t := fun h' => h (ht.trans h'.symm)
    simp [ofThread, ht, ht']
  · by_cases ht' : c'.1 = t <;> simp [ofThread, ht, ht']

/-- After a step: the calls that take effect are performed, and each thread has made the same calls
in the order in which they take effect as in the order in which they return. -/
def System.Answers [DecidableEq τ] (sys : System σ κ ι A β) (s s' : State τ σ κ ι A β)
    (a : Action τ κ) (m : σ) (owed : List (τ × κ × β)) : Prop :=
  ∃ m' owed', sys.Performs m (sys.linearizes s a) m' ∧ sys.Stands s' m' owed' ∧
    ∀ t, ofThread t (owed ++ sys.linearizes s a) = ofThread t (sys.returns s a ++ owed')

section

variable [DecidableEq τ] {sys : System σ κ ι A β} {Apart : κ → σ → Prop} {m : σ}
  {s s' : State τ σ κ ι A β} {owed : List (τ × κ × β)}

theorem answers_enter (h : sys.Sound Apart) (hstands : sys.Stands s m owed) {t : τ} {op : κ}
    (hok : sys.permits s.memory op) (hexec : sys.exec s (.enter t op) = some s') :
    sys.Answers s s' (.enter t op) m owed := by
  cases hstands with
  | free m =>
    cases hcall : sys.call op with
    | inside code =>
      simp only [System.exec, hcall, Option.some_inj] at hexec
      rw [← hexec]
      exact ⟨m, [], .nil, .before hcall hok (h.once hcall) (.refl _ _), fun t => rfl⟩
    | outside answer effect => simp [System.exec, hcall] at hexec
  | before => simp [System.exec] at hexec
  | after => simp [System.exec] at hexec

/-- An instruction: it commits, or the memory after the calls stays what it was. -/
theorem answers_step (hstands : sys.Stands s m owed)
    (hsafe : ∀ op code, sys.call op = .inside code → sys.permits m op → (sys.run code m).isSome)
    (hexec : sys.exec s .step = some s') : sys.Answers s s' .step m owed := by
  cases hstands with
  | free m => simp [System.exec] at hexec
  | @before t op whole code m m' hcall hpermits honce hquiet =>
    cases code with
    | done r => simp [System.exec] at hexec
    | cut => simp [System.exec] at hexec
    | instr i next =>
      obtain ⟨x, hinstr, rfl⟩ := Option.map_eq_some_iff.1 hexec
      cases hcommits : sys.commits i with
      | false =>
        have hmore : sys.Quiet whole m (next x.2) x.1 :=
          hquiet.trans (.step hcommits hinstr (.refl _ _))
        refine ⟨m, [], ?_, .before hcall hpermits ?_ hmore, fun t => ?_⟩
        · simpa [System.linearizes, hcommits] using System.Performs.nil
        · simpa [hcommits] using honce x.2
        · simp [System.linearizes, System.returns, hcommits]
      | true =>
        -- the rest of the section is known to go through, since the whole of it does
        obtain ⟨⟨m₁, r⟩, hrun⟩ := Option.isSome_iff_exists.1 (hsafe op whole hcall hpermits)
        have hrest : sys.run (.instr i next) m' = some (m₁, r) := hquiet.run_eq.symm.trans hrun
        have hlin : sys.linearizes ⟨m', some ⟨t, op, .instr i next, false⟩⟩ .step =
            [(t, op, r)] := by
          simp [System.linearizes, hcommits, hrest]
        have hclosed : sys.Closed (next x.2) := by simpa [hcommits] using honce x.2
        have hnext : sys.run (next x.2) x.1 = some (m₁, r) := by
          rwa [System.run, hinstr, Option.bind_some] at hrest
        have hperform : sys.perform m op = some (m₁, r) :=
          (sys.perform_inside hcall m).trans hrun
        refine ⟨m₁, [(t, op, r)], ?_, .after (.of_closed hclosed hnext), fun t => ?_⟩
        · rw [hlin]
          exact .single sys hpermits hperform t
        · rw [hlin]
          rfl
  | @after t op code m m' r hquiet =>
    cases hquiet with
    | refl => simp [System.exec] at hexec
    | step hcommits hinstr hrest =>
      simp only [System.exec, hinstr, Option.map_some, Option.some_inj] at hexec
      rw [← hexec]
      exact ⟨m, _, .nil, .after hrest, fun t => rfl⟩

theorem answers_exit (hstands : sys.Stands s m owed) (hexec : sys.exec s .exit = some s') :
    sys.Answers s s' .exit m owed := by
  cases hstands with
  | free m => simp [System.exec] at hexec
  | @before t op whole code m m' hcall hpermits honce hquiet =>
    cases code with
    | done r =>
      simp only [System.exec, Option.some_inj] at hexec
      have hperform : sys.perform m op = some (m', r) :=
        (sys.perform_inside hcall m).trans hquiet.run_eq
      rw [← hexec]
      exact ⟨m', [], .single sys hpermits hperform t, .free m', fun t => rfl⟩
    | instr i next => simp [System.exec] at hexec
    | cut => simp [System.exec] at hexec
  | @after t op code m m' r hquiet =>
    cases hquiet with
    | refl =>
      simp only [System.exec, Option.some_inj] at hexec
      rw [← hexec]
      exact ⟨m, [], .nil, .free m, fun t => rfl⟩
    | step => simp [System.exec] at hexec

/-- A step outside: it comes before the section that is going on, or after it, if that has taken
effect. -/
theorem answers_outside (h : sys.Sound Apart) (hstands : sys.Stands s m owed) {t : τ} {op : κ}
    (hok : ∀ x ∈ s.inside, x.thread ≠ t) (hexec : sys.exec s (.outside t op) = some s') :
    sys.Answers s s' (.outside t op) m owed := by
  cases hcall : sys.call op with
  | inside code => simp [System.exec, hcall] at hexec
  | outside answer effect =>
    simp only [System.exec, hcall] at hexec
    obtain ⟨r, hanswer, rfl⟩ := Option.map_eq_some_iff.1 hexec
    have hlin : sys.linearizes s (.outside t op) = [(t, op, r)] := by
      simp [System.linearizes, hcall, hanswer]
    have hret : sys.returns s (.outside t op) = [(t, op, r)] := by
      simp [System.returns, hcall, hanswer]
    rw [System.Answers, hlin, hret]
    cases hstands with
    | free m =>
      exact ⟨effect m, [], .single sys (h.answered hcall hanswer).1
        (sys.perform_outside hcall hanswer) t, .free _, fun t => rfl⟩
    | @before t' op' whole code m m' hcall' hpermits honce hquiet =>
      have hm : answer m = some r := (h.answer_eq hcall hquiet).symm.trans hanswer
      obtain ⟨hpermitted, hapart⟩ := h.answered hcall hm
      exact ⟨effect m, [], .single sys hpermitted (sys.perform_outside hcall hm) t,
        .before hcall' (h.permits hcall hm hcall' hpermits) honce
          (h.quiet_effect hcall hquiet hapart), fun t => rfl⟩
    | @after t' op' code m m' r' hquiet =>
      have hm : answer m = some r := (h.answer_eq hcall hquiet).trans hanswer
      exact ⟨effect m, [(t', op', r')], .single sys (h.answered hcall hm).1
        (sys.perform_outside hcall hm) t,
        .after (h.quiet_effect hcall hquiet (h.answered hcall hanswer).2),
        ofThread_swap (hok _ rfl)⟩

/-- What a step does. -/
theorem answers (h : sys.Sound Apart) (hstands : sys.Stands s m owed)
    (hsafe : ∀ op code, sys.call op = .inside code → sys.permits m op → (sys.run code m).isSome)
    {a : Action τ κ} (hok : sys.Allowed s a) (hexec : sys.exec s a = some s') :
    sys.Answers s s' a m owed := by
  cases a with
  | enter t op => exact answers_enter h hstands hok hexec
  | step => exact answers_step hstands hsafe hexec
  | exit => exact answers_exit hstands hexec
  | outside t op => exact answers_outside h hstands hok hexec

end

/-! ## Runs -/

section

variable {sys : System σ κ ι A β} {Apart : κ → σ → Prop} {m₀ m : σ} {s : State τ σ κ ι A β}
  {as : List (Action τ κ)} {owed : List (τ × κ × β)}

theorem length_map_toList {γ δ : Type*} (o : Option γ) (f : γ → δ) :
    (o.toList.map f).length ≤ 1 := by
  cases o <;> simp

/-- No step is the instant of more than one call. -/
theorem length_linearizes (s : State τ σ κ ι A β) (a : Action τ κ) :
    (sys.linearizes s a).length ≤ 1 := by
  cases a with
  | enter t op => exact Nat.zero_le 1
  | step =>
    simp only [System.linearizes]
    split
    · split
      · exact length_map_toList _ _
      · exact Nat.zero_le 1
    · exact Nat.zero_le 1
  | exit =>
    simp only [System.linearizes]
    split
    · exact Nat.le_refl 1
    · exact Nat.zero_le 1
  | outside t op =>
    simp only [System.linearizes]
    split
    · exact length_map_toList _ _
    · exact Nat.zero_le 1

/-- **Every interleaving is a sequence of calls.** The memory is the one that the calls leave that
have taken effect, one after another, up to the section that is going on; and each thread has made
the calls that have returned, in their order, except for one that it still owes. The sections need
to go through wherever calls one after another can lead. -/
theorem linearized_of_run [DecidableEq τ] (h : sys.Sound Apart)
    (run : Lts.Run sys.exec sys.Allowed (start m₀) as s)
    (hsafe : ∀ (calls : List (τ × κ × β)) m op code, sys.Performs m₀ calls m →
      calls.length < as.length → sys.call op = .inside code → sys.permits m op →
      (sys.run code m).isSome) :
    ∃ m owed, sys.Performs m₀ (sys.linearized m₀ as) m ∧
      (sys.linearized m₀ as).length ≤ as.length ∧ sys.Stands s m owed ∧
      ∀ t, ofThread t (sys.linearized m₀ as) = ofThread t (sys.returned m₀ as ++ owed) := by
  induction run with
  | nil => exact ⟨m₀, [], .nil, Nat.le_refl _, .free m₀, fun t => rfl⟩
  | @concat t u as a run hok hstep ih =>
    obtain ⟨m, owed, hperforms, hlength, hstands, hthreads⟩ :=
      ih fun calls m op code hcalls hlt => hsafe calls m op code hcalls
        (by rw [List.length_append]; omega)
    obtain ⟨m', owed', hmoves, hstands', hthreads'⟩ := answers h hstands
      (fun op code hcall hpermits => hsafe _ m op code hperforms
        (by rw [List.length_append, List.length_singleton]; omega) hcall hpermits) hok hstep
    have hlin : sys.linearized m₀ (as ++ [a]) = sys.linearized m₀ as ++ sys.linearizes t a :=
      run.log_concat a
    have hret : sys.returned m₀ (as ++ [a]) = sys.returned m₀ as ++ sys.returns t a :=
      run.log_concat a
    rw [hlin, hret]
    refine ⟨m', owed', hperforms.append sys hmoves, ?_, hstands', fun t' => ?_⟩
    · have hone : (sys.linearizes t a).length ≤ 1 := length_linearizes t a
      rw [List.length_append, List.length_append, List.length_singleton]
      omega
    · have hthread := hthreads t'
      have hthread' := hthreads' t'
      simp only [ofThread_append] at hthread hthread' ⊢
      rw [hthread, List.append_assoc, hthread', ← List.append_assoc]

theorem System.Stands.memory_eq (hstands : sys.Stands s m owed) (hfree : s.inside = none) :
    s.memory = m := by
  cases hstands with
  | free m => rfl
  | before => cases hfree
  | after => cases hfree

/-- Only the thread inside owes a call. -/
theorem System.Stands.exists_inside (hstands : sys.Stands s m owed) :
    ∀ c ∈ owed, ∃ x ∈ s.inside, x.thread = c.1 ∧ x.op = c.2.1 := by
  intro c hc
  cases hstands with
  | free m => exact (List.not_mem_nil hc).elim
  | before => exact (List.not_mem_nil hc).elim
  | after =>
    obtain rfl := List.mem_singleton.1 hc
    exact ⟨_, rfl, rfl, rfl⟩

/-- What is left of a section goes through if the thread is left alone. -/
theorem System.Stands.run_isSome (hstands : sys.Stands s m owed)
    (hsafe : ∀ op code, sys.call op = .inside code → sys.permits m op → (sys.run code m).isSome) :
    ∀ x ∈ s.inside, (sys.run x.code s.memory).isSome := by
  intro x hx
  cases hstands with
  | free m => cases hx
  | before hcall hpermits honce hquiet =>
    cases hx
    rw [← hquiet.run_eq]
    exact hsafe _ _ hcall hpermits
  | after hquiet =>
    cases hx
    rw [hquiet.run_eq]
    rfl

end

end Atomicity
