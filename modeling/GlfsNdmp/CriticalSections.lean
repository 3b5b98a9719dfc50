import GlfsNdmp.Lib.Atomicity
import GlfsNdmp.Snapshot

/-!
# The critical sections of the queue

The functions of `queue.c` instruction by instruction, as the threads run them against one another:
`hdr->lock` keeps the other threads out of a section, and out of nothing else. A thread that has
allocated a node, or reads the element of a node it has found, comes in between any two instructions
of another thread's section.

`queue_linearizes_of_run`: whatever the interleaving, the calls return what they would return if
each section was a single step, taken at an instant between the entry and the exit. A section takes
effect where it frees a node, or where a thread has found the node it will read; any other one where
it gives the lock back. `get_all_elems`, which reads `first` before it takes the lock, is in
`GlfsNdmp.Snapshot`.
-/

namespace GlfsNdmp.Sections

open Atomicity (Code Call)

/-! ## Instructions -/

/-- The accesses to the header and to a node, and `free`. -/
inductive Instr
  | getFirst
  | setFirst (p : Option Nat)
  | getLast
  | setLast (p : Option Nat)
  | getNumElems
  | setNumElems (n : Int)
  | getElem (p : Option Nat)
  | getNext (p : Option Nat)
  | setNext (p next : Option Nat)
  | free (p : Option Nat)
  /-- A thread's own node is going to be a node of the queue. -/
  | give (node : Nat)
  /-- A thread has found a node, and will read its element. -/
  | keep (thread : Nat) (node : Option Nat)

/-- What an instruction reads. -/
abbrev Instr.Answer (α : Type) : Instr → Type
  | .getFirst | .getLast | .getNext _ => Option Nat
  | .getNumElems => Int
  | .getElem _ => α
  | _ => Unit

variable {α : Type}

/-- One instruction. An access through a null pointer or to memory that is not allocated goes
wrong. -/
def Instr.exec : (i : Instr) → Queue α → Option (Queue α × i.Answer α)
  | .getFirst, q => some (q, q.first)
  | .setFirst p, q => some ({ q with first := p }, ())
  | .getLast, q => some (q, q.last)
  | .setLast p, q => some ({ q with last := p }, ())
  | .getNumElems, q => some (q, q.numElems)
  | .setNumElems n, q => some ({ q with numElems := n }, ())
  | .getElem p, q => do
    let node ← q.heap (← p)
    some (q, node.elem)
  | .getNext p, q => do
    let node ← q.heap (← p)
    some (q, node.next)
  | .setNext p next, q => (q.setNext p next).map fun q => (q, ())
  | .free p, q => do
    let a ← p
    let _ ← q.heap a
    some (q.free a, ())
  | .give node, q => do
    let _ ← q.heap node
    some ({ q with pending := q.pending.filter fun c => c.1 ≠ node }, ())
  | .keep thread node, q =>
    match q.found thread with
    | none => some (q.keep thread (some node), ())
    | some _ => none

/-- A thread outside notices that a node is freed, and that it has found one itself. -/
def Instr.commits : Instr → Bool
  | .free _ | .keep _ _ => true
  | _ => false

/-! ## The code -/

abbrev Prg (α : Type) := Code Instr (Instr.Answer α) (Queue.Result α)

/-- `hdr->num_elems++` and `hdr->num_elems--`: a read and a write. -/
def count (d : Int) (k : Prg α) : Prg α :=
  .instr .getNumElems fun n => .instr (.setNumElems (int32 (n + d))) fun _ => k

/-- The critical section of `enqueue`. -/
def enqueue (node : Nat) : Prg α :=
  .instr (.give node) fun _ => .instr .getFirst fun first =>
    match first with
    | none =>
      .instr (.setFirst (some node)) fun _ => .instr (.setLast (some node)) fun _ =>
        count 1 (.done .nothing)
    | some _ =>
      .instr .getLast fun last => .instr (.setNext last (some node)) fun _ =>
        .instr (.setLast (some node)) fun _ => count 1 (.done .nothing)

/-- `dequeue`: `first` is read to see whether there is a node, and read again. -/
def dequeue : Prg α :=
  .instr .getFirst fun first =>
    match first with
    | none => .done (.elem none)
    | some _ =>
      .instr .getFirst fun node => .instr (.getNext node) fun next =>
        .instr (.setFirst next) fun _ => .instr (.getElem node) fun elem =>
          .instr (.free node) fun _ => count (-1) (.done (.elem (some elem)))

/-- The loop of `get_elem`. -/
def getElemLoop (thread : Nat) (cmp : α → Bool) : Nat → Option Nat → Prg α
  | 0, _ => .cut
  | _ + 1, none => .instr (.keep thread none) fun _ => .done .nothing
  | fuel + 1, some a =>
    .instr (.getElem (some a)) fun elem =>
      if cmp elem then .instr (.keep thread (some a)) fun _ => .done .nothing
      else .instr (.getNext (some a)) fun next => getElemLoop thread cmp fuel next

/-- The critical section of `get_elem`. -/
def getElem (thread : Nat) (cmp : α → Bool) (fuel : Nat) : Prg α :=
  .instr .getFirst fun node => getElemLoop thread cmp fuel node

/-- The three cases of `remove_elem`. -/
def unlink (nodeprev : Option Nat) (node : Nat) (k : Prg α) : Prg α :=
  .instr .getFirst fun first =>
    if first = some node then
      .instr (.getNext (some node)) fun next => .instr (.setFirst next) fun _ => k
    else
      .instr .getLast fun last =>
        if last = some node then
          .instr (.setLast nodeprev) fun _ => .instr (.setNext nodeprev none) fun _ => k
        else
          .instr (.getNext (some node)) fun next => .instr (.setNext nodeprev next) fun _ => k

/-- The loop of `remove_elem`. -/
def removeElemLoop (cmp : α → Bool) : Nat → Option Nat → Option Nat → Prg α
  | 0, _, _ => .cut
  | _ + 1, _, none => .done .nothing
  | fuel + 1, nodeprev, some a =>
    .instr (.getElem (some a)) fun elem =>
      if cmp elem then
        unlink nodeprev a (count (-1) (.instr (.free (some a)) fun _ => .done .nothing))
      else .instr (.getNext (some a)) fun next => removeElemLoop cmp fuel (some a) next

/-- `remove_elem`. -/
def removeElem (cmp : α → Bool) (fuel : Nat) : Prg α :=
  .instr .getFirst fun nodeprev => removeElemLoop cmp fuel nodeprev nodeprev

/-- `num_elems`. -/
def numElems : Prg α := .instr .getNumElems fun n => .done (.count n)

/-- What is done in a section, and what outside. -/
def call (fuel : Nat) : Queue.Op α → Call (Queue α) Instr (Instr.Answer α) (Queue.Result α)
  | .malloc node elem =>
    .outside (fun q => if (q.heap node).isNone then some .nothing else none) (·.malloc node elem)
  | .enqueue node _ => .inside (enqueue node)
  | .dequeue => .inside dequeue
  | .getElem thread cmp => .inside (getElem thread cmp fuel)
  | .getElemReturn thread =>
    .outside (fun q => (q.getElemReturn thread).map fun r => .elem r.2) (·.keep thread none)
  | .removeElem cmp => .inside (removeElem cmp fuel)
  | .numElems => .inside numElems
  -- Not a call here: it reads `first` outside, and goes on from there inside.
  | .getAllElems => .outside (fun _ => none) id

/-- The threads on one queue. -/
def system (α : Type) (fuel : Nat) :
    Atomicity.System (Queue α) (Queue.Op α) Instr (Instr.Answer α) (Queue.Result α) where
  instr := Instr.exec
  commits := Instr.commits
  call := call fuel
  permits := Queue.Permits

instance [DecidableEq α] (fuel : Nat) (q : Queue α) : DecidablePred ((system α fuel).permits q) :=
  inferInstanceAs (DecidablePred q.Permits)

/-! ## Each section commits once -/

section

variable {fuel : Nat}

theorem closed_count (d : Int) (r : Queue.Result α) : (system α fuel).Closed (count d (.done r)) :=
  ⟨rfl, fun _ => ⟨rfl, fun _ => trivial⟩⟩

theorem closed_enqueue (node : Nat) : (system α fuel).Closed (enqueue node) := by
  refine ⟨rfl, fun _ => ⟨rfl, fun first => ?_⟩⟩
  cases first with
  | none => exact ⟨rfl, fun _ => ⟨rfl, fun _ => closed_count 1 .nothing⟩⟩
  | some a => exact ⟨rfl, fun _ => ⟨rfl, fun _ => ⟨rfl, fun _ => closed_count 1 .nothing⟩⟩⟩

theorem once_dequeue : (system α fuel).Once dequeue := by
  refine .step rfl fun first => ?_
  cases first with
  | none => trivial
  | some a =>
    exact .step rfl fun _ => .step rfl fun _ => .step rfl fun _ => .step rfl fun _ =>
      .commit rfl fun _ => closed_count (-1) _

theorem once_getElemLoop (thread : Nat) (cmp : α → Bool) (n : Nat) (node : Option Nat) :
    (system α fuel).Once (getElemLoop thread cmp n node) := by
  induction n generalizing node with
  | zero => trivial
  | succ n ih =>
    cases node with
    | none => exact .commit rfl fun _ => trivial
    | some a =>
      refine .step rfl fun elem => ?_
      split
      · exact .commit rfl fun _ => trivial
      · exact .step rfl fun next => ih next

theorem once_unlink (nodeprev : Option Nat) (node : Nat) {k : Prg α}
    (h : (system α fuel).Once k) : (system α fuel).Once (unlink nodeprev node k) := by
  refine .step rfl fun first => ?_
  split
  · exact .step rfl fun _ => .step rfl fun _ => h
  · refine .step rfl fun last => ?_
    split <;> exact .step rfl fun _ => .step rfl fun _ => h

theorem once_removeElemLoop (cmp : α → Bool) (n : Nat) (nodeprev node : Option Nat) :
    (system α fuel).Once (removeElemLoop cmp n nodeprev node) := by
  induction n generalizing nodeprev node with
  | zero => trivial
  | succ n ih =>
    cases node with
    | none => trivial
    | some a =>
      refine .step rfl fun elem => ?_
      split
      · exact once_unlink nodeprev a <| .step rfl fun _ => .step rfl fun _ =>
          .commit rfl fun _ => trivial
      · exact .step rfl fun next => ih (some a) next

theorem once_of_call {op : Queue.Op α} {code : Prg α} (hcall : call fuel op = .inside code) :
    (system α fuel).Once code := by
  cases op <;> cases hcall
  case enqueue node elem => exact .of_closed (closed_enqueue node)
  case dequeue => exact once_dequeue
  case getElem thread cmp => exact .step rfl fun node => once_getElemLoop thread cmp fuel node
  case removeElem cmp => exact .step rfl fun node => once_removeElemLoop cmp fuel node node
  case numElems => exact .step rfl fun _ => trivial

end

/-! ## The instructions and the steps outside -/

section

variable {q q' : Queue α}

theorem heap_malloc {node a : Nat} {c : LinkedList.Node α} (hnode : q.heap node = none) (elem : α)
    (ha : q.heap a = some c) : (q.malloc node elem).heap a = some c := by
  refine (Function.update_of_ne ?_ _ _).trans ha
  rintro rfl
  rw [hnode] at ha
  cases ha

/-- A write to a node that is allocated commutes with a `malloc`, and allocates nothing. -/
theorem update_malloc {node a : Nat} {c : LinkedList.Node α} (hnode : q.heap node = none) (elem : α)
    (ha : q.heap a = some c) (c' : Option (LinkedList.Node α)) :
    Function.update (q.malloc node elem).heap a c' =
        Function.update (Function.update q.heap a c') node (some ⟨elem, none⟩) ∧
      Function.update q.heap a c' node = none := by
  have hne : node ≠ a := by
    rintro rfl
    rw [hnode] at ha
    cases ha
  exact ⟨Function.update_comm hne .., (Function.update_of_ne hne ..).trans hnode⟩

/-- What is not allocated is not allocated by an instruction, and no instruction reaches it. -/
theorem exec_malloc {i : Instr} {a : i.Answer α} {node : Nat} (hnode : q.heap node = none)
    (elem : α) (h : i.exec q = some (q', a)) :
    i.exec (q.malloc node elem) = some (q'.malloc node elem, a) ∧ q'.heap node = none := by
  cases i with
  | getFirst | setFirst p | getLast | setLast p | getNumElems | setNumElems n =>
    cases h
    exact ⟨rfl, hnode⟩
  | getElem p | getNext p =>
    cases p with
    | none => cases h
    | some p =>
      obtain ⟨c, hc, hread⟩ := Option.bind_eq_some_iff.1 h
      cases hread
      refine ⟨?_, hnode⟩
      simp only [Instr.exec, Option.bind_eq_bind, Option.bind_some, heap_malloc hnode elem hc]
  | setNext p next =>
    cases p with
    | none => cases h
    | some p =>
      obtain ⟨q₁, hset, heq⟩ := Option.map_eq_some_iff.1 h
      cases heq
      obtain ⟨c, hc, hwrite⟩ := Option.bind_eq_some_iff.1 hset
      cases hwrite
      obtain ⟨hcomm, hnone⟩ := update_malloc hnode elem hc (some { c with next := next })
      refine ⟨?_, hnone⟩
      simp only [Instr.exec, Queue.setNext, Option.bind_eq_bind, Option.bind_some,
        heap_malloc hnode elem hc, hcomm]
      rfl
  | free p =>
    cases p with
    | none => cases h
    | some p =>
      obtain ⟨c, hc, heq⟩ := Option.bind_eq_some_iff.1 h
      cases heq
      obtain ⟨hcomm, hnone⟩ := update_malloc hnode elem hc none
      refine ⟨?_, hnone⟩
      simp only [Instr.exec, Queue.free, Option.bind_eq_bind, Option.bind_some,
        heap_malloc hnode elem hc, hcomm]
      rfl
  | give node' =>
    obtain ⟨c, hc, heq⟩ := Option.bind_eq_some_iff.1 h
    cases heq
    have hne : node ≠ node' := by
      rintro rfl
      rw [hnode] at hc
      cases hc
    refine ⟨?_, hnode⟩
    simp only [Instr.exec, Option.bind_eq_bind, Option.bind_some, heap_malloc hnode elem hc]
    simp [Queue.malloc, hne]
  | keep thread node' =>
    simp only [Instr.exec] at h ⊢
    cases hfound : q.found thread with
    | some w => rw [hfound] at h; cases h
    | none =>
      rw [hfound] at h
      cases h
      refine ⟨?_, hnode⟩
      simp only [Queue.malloc, hfound]
      rfl

/-- Only `keep` touches what the threads have found. -/
theorem exec_found {i : Instr} {a : i.Answer α} (hi : ∀ thread node, i ≠ .keep thread node)
    (h : i.exec q = some (q', a)) (found : Nat → Option (Option Nat)) :
    i.exec { q with found := found } = some ({ q' with found := found }, a) ∧
      q'.found = q.found := by
  cases i with
  | getFirst | setFirst p | getLast | setLast p | getNumElems | setNumElems n =>
    cases h
    exact ⟨rfl, rfl⟩
  | getElem p | getNext p | free p =>
    cases p with
    | none => cases h
    | some p =>
      obtain ⟨c, hc, heq⟩ := Option.bind_eq_some_iff.1 h
      cases heq
      refine ⟨?_, rfl⟩
      simp only [Instr.exec, Queue.free, Option.bind_eq_bind, Option.bind_some, hc]
  | setNext p next =>
    cases p with
    | none => cases h
    | some p =>
      obtain ⟨q₁, hset, heq⟩ := Option.map_eq_some_iff.1 h
      cases heq
      obtain ⟨c, hc, hwrite⟩ := Option.bind_eq_some_iff.1 hset
      cases hwrite
      refine ⟨?_, rfl⟩
      simp only [Instr.exec, Queue.setNext, Option.bind_eq_bind, Option.bind_some, hc]
      rfl
  | give node =>
    obtain ⟨c, hc, heq⟩ := Option.bind_eq_some_iff.1 h
    cases heq
    refine ⟨?_, rfl⟩
    simp only [Instr.exec, Option.bind_eq_bind, hc, Option.bind_some]
  | keep thread node => exact absurd rfl (hi thread node)

/-- A thread reads what it has found while another one is inside: that one has found nothing it has
not read. -/
theorem exec_keep {i : Instr} {a : i.Answer α} {thread : Nat} (hfound : q.found thread ≠ none)
    (h : i.exec q = some (q', a)) :
    i.exec (q.keep thread none) = some (q'.keep thread none, a) ∧ q'.found thread ≠ none := by
  by_cases hi : ∀ thread' node, i ≠ .keep thread' node
  · obtain ⟨hexec, heq⟩ := exec_found hi h (Function.update q.found thread none)
    refine ⟨hexec.trans ?_, by rwa [heq]⟩
    rw [Queue.keep, heq]
  · push Not at hi
    obtain ⟨thread', node, rfl⟩ := hi
    simp only [Instr.exec] at h ⊢
    cases hnone : q.found thread' with
    | some w => rw [hnone] at h; cases h
    | none =>
      rw [hnone] at h
      cases h
      have hne : thread' ≠ thread := by
        rintro rfl
        exact hfound hnone
      have hkept : (q.keep thread none).found thread' = none :=
        (Function.update_of_ne hne ..).trans hnone
      refine ⟨?_, ?_⟩
      · rw [hkept]
        simp only [Queue.keep, Function.update_comm hne]
      · show Function.update q.found thread' (some node) thread ≠ none
        rwa [Function.update_of_ne hne.symm]

/-- An instruction that does not commit frees nothing and changes no element. -/
theorem elem_of_quiet {i : Instr} {a : i.Answer α} (hquiet : i.commits = false)
    (h : i.exec q = some (q', a)) (node : Nat) :
    (q'.heap node).map (·.elem) = (q.heap node).map (·.elem) := by
  cases i with
  | getFirst | setFirst p | getLast | setLast p | getNumElems | setNumElems n =>
    cases h
    rfl
  | getElem p | getNext p =>
    cases p with
    | none => cases h
    | some p =>
      obtain ⟨c, hc, heq⟩ := Option.bind_eq_some_iff.1 h
      cases heq
      rfl
  | setNext p next =>
    cases p with
    | none => cases h
    | some p =>
      obtain ⟨q₁, hset, heq⟩ := Option.map_eq_some_iff.1 h
      cases heq
      obtain ⟨c, hc, hwrite⟩ := Option.bind_eq_some_iff.1 hset
      cases hwrite
      show (Function.update q.heap p _ node).map _ = _
      by_cases heq : node = p
      · rw [heq, Function.update_self, hc]
        rfl
      · rw [Function.update_of_ne heq]
  | give node =>
    obtain ⟨c, hc, heq⟩ := Option.bind_eq_some_iff.1 h
    cases heq
    rfl
  | free p => cases hquiet
  | keep thread node => cases hquiet

/-- What `return node->elem` depends on. -/
theorem snd_getElemReturn (q : Queue α) (thread : Nat) :
    (q.getElemReturn thread).map Prod.snd = (q.found thread).bind fun node =>
      match node with
      | none => some none
      | some a => ((q.heap a).map (·.elem)).map some := by
  simp only [Queue.getElemReturn, Option.bind_eq_bind]
  cases q.found thread with
  | none => rfl
  | some node =>
    cases node with
    | none => rfl
    | some a => cases hnode : q.heap a <;> simp [hnode]

theorem isNone_of_quiet {i : Instr} {a : i.Answer α} (hquiet : i.commits = false)
    (h : i.exec q = some (q', a)) (node : Nat) : (q'.heap node).isNone = (q.heap node).isNone := by
  rw [← Option.isNone_map (f := fun c => c.elem), elem_of_quiet hquiet h, Option.isNone_map]

theorem getElemReturn_of_quiet {i : Instr} {a : i.Answer α} (hquiet : i.commits = false)
    (h : i.exec q = some (q', a)) (thread : Nat) :
    (q'.getElemReturn thread).map Prod.snd = (q.getElemReturn thread).map Prod.snd := by
  have hfound : q'.found = q.found :=
    (exec_found (fun thread node heq => by rw [heq] at hquiet; cases hquiet) h q.found).2
  rw [snd_getElemReturn, snd_getElemReturn, hfound]
  refine Option.bind_congr fun node _ => ?_
  cases node with
  | none => rfl
  | some a => simp only [elem_of_quiet hquiet h]

end

/-- What a step outside asks for is what its caller promises. -/
theorem permits_of_answer {fuel : Nat} {op : Queue.Op α}
    {answer : Queue α → Option (Queue.Result α)} {effect : Queue α → Queue α} {q : Queue α}
    {r : Queue.Result α} (hcall : call fuel op = .outside answer effect) (hanswer : answer q = some r) :
    q.Permits op := by
  cases op <;> cases hcall
  case malloc node elem =>
    show q.heap node = none
    cases hnode : q.heap node with
    | none => rfl
    | some c => simp [hnode] at hanswer
  case getElemReturn thread =>
    intro hnone
    simp [Queue.getElemReturn, hnone] at hanswer
  case getAllElems => cases hanswer

theorem sound (fuel : Nat) : (system α fuel).Sound fun op q => q.Permits op where
  once := once_of_call
  answered hcall hanswer :=
    ⟨permits_of_answer hcall hanswer, permits_of_answer hcall hanswer⟩
  permits {op answer effect q r op' code} hcall hanswer hcall' hpermits := by
    change call fuel op = _ at hcall
    change q.Permits op' at hpermits
    show (effect q).Permits op'
    cases op <;> cases hcall
    case malloc node elem =>
      cases op' with
      | enqueue node' elem' => exact List.mem_cons_of_mem _ hpermits
      | getElem thread cmp => exact hpermits
      | dequeue | removeElem cmp | numElems => trivial
      | malloc node elem | getElemReturn thread | getAllElems => cases hcall'
    case getElemReturn thread =>
      cases op' with
      | enqueue node' elem' => exact hpermits
      | getElem thread' cmp =>
        show Function.update q.found thread none thread' = none
        by_cases heq : thread' = thread
        · rw [heq, Function.update_self]
        · rwa [Function.update_of_ne heq]
      | dequeue | removeElem cmp | numElems => trivial
      | malloc node elem | getElemReturn thread | getAllElems => cases hcall'
    case getAllElems => cases hanswer
  quiet {op answer effect i q q' a} hcall hquiet hexec := by
    change call fuel op = _ at hcall
    cases op <;> cases hcall
    case malloc node elem => simp only [isNone_of_quiet hquiet hexec]
    case getElemReturn thread =>
      have hsame := congrArg (Option.map Queue.Result.elem)
        (getElemReturn_of_quiet hquiet hexec thread)
      rw [Option.map_map, Option.map_map] at hsame
      exact hsame
    case getAllElems => rfl
  commutes {op answer effect i q q' a} hcall hpermits hexec := by
    change call fuel op = _ at hcall
    cases op <;> cases hcall
    case malloc node elem => exact exec_malloc hpermits elem hexec
    case getElemReturn thread => exact exec_keep hpermits hexec
    case getAllElems => exact ⟨hexec, trivial⟩

/-! ## A section by itself -/

section

variable {fuel : Nat} {q q' : Queue α}

theorem run_instr {i : Instr} {next : i.Answer α → Prg α} {a : i.Answer α}
    (hexec : i.exec q = some (q', a)) :
    (system α fuel).run (.instr i next) q = (system α fuel).run (next a) q' := by
  show (i.exec q).bind _ = _
  rw [hexec]
  rfl

theorem run_of_none {i : Instr} {next : i.Answer α → Prg α} (hexec : i.exec q = none) :
    (system α fuel).run (.instr i next) q = none := by
  show (i.exec q).bind _ = _
  rw [hexec]
  rfl

theorem exec_getElem {a : Nat} {c : LinkedList.Node α} (hnode : q.heap a = some c) :
    (Instr.getElem (some a)).exec q = some (q, c.elem) := by
  simp [Instr.exec, hnode]

theorem exec_getNext {a : Nat} {c : LinkedList.Node α} (hnode : q.heap a = some c) :
    (Instr.getNext (some a)).exec q = some (q, c.next) := by
  simp [Instr.exec, hnode]

theorem exec_free {a : Nat} {c : LinkedList.Node α} (hnode : q.heap a = some c) :
    (Instr.free (some a)).exec q = some (q.free a, ()) := by
  simp [Instr.exec, hnode]

theorem run_count (d : Int) (k : Prg α) :
    (system α fuel).run (count d k) q = (system α fuel).run k (q.count d) := rfl

theorem run_setNext (p next : Option Nat) (k : Prg α) :
    (system α fuel).run (.instr (.setNext p next) fun _ => k) q =
      (q.setNext p next).bind fun q => (system α fuel).run k q := by
  show ((q.setNext p next).map _).bind _ = _
  rw [Option.bind_map]
  rfl

theorem run_enqueue {node : Nat} {c : LinkedList.Node α} (hnode : q.heap node = some c) :
    (system α fuel).run (enqueue node) q = (q.enqueue node).map fun q => (q, .nothing) := by
  have hgive : (Instr.give node).exec q =
      some ({ q with pending := q.pending.filter fun c => c.1 ≠ node }, ()) := by
    simp only [Instr.exec, hnode, Option.bind_eq_bind, Option.bind_some]
  rw [enqueue, run_instr hgive, run_instr rfl, Queue.enqueue]
  cases hfirst : q.first with
  | none => rfl
  | some a =>
    rw [run_instr rfl, run_setNext]
    cases Queue.setNext _ q.last (some node) <;> rfl

theorem run_dequeue : (system α fuel).run dequeue q = q.dequeue.map fun r => (r.1, .elem r.2) := by
  rw [dequeue, run_instr rfl, Queue.dequeue]
  cases hfirst : q.first with
  | none => rfl
  | some a =>
    rw [run_instr rfl, hfirst]
    cases hnode : q.heap a with
    | none =>
      have hnext : (Instr.getNext (some a)).exec q = none := by simp [Instr.exec, hnode]
      rw [run_of_none hnext]
      simp [hnode]
    | some c =>
      have hafter : ({ q with first := c.next } : Queue α).heap a = some c := hnode
      rw [run_instr (exec_getNext hnode), run_instr rfl, run_instr (exec_getElem hafter),
        run_instr (exec_free hafter), run_count]
      simp only [hnode, Option.bind_eq_bind, Option.bind_some]
      rfl

theorem run_getElemLoop {thread : Nat} (hfound : q.found thread = none) (cmp : α → Bool) (n : Nat)
    (node : Option Nat) :
    (system α fuel).run (getElemLoop thread cmp n node) q =
      (q.getElemLoop cmp n node).map fun node => (q.keep thread (some node), .nothing) := by
  have hkeep (node : Option Nat) :
      (Instr.keep thread node).exec q = some (q.keep thread (some node), ()) := by
    rw [Instr.exec, hfound]
  induction n generalizing node with
  | zero => rfl
  | succ n ih =>
    cases node with
    | none =>
      rw [getElemLoop, run_instr (hkeep none)]
      rfl
    | some a =>
      rw [getElemLoop, Queue.getElemLoop]
      cases hnode : q.heap a with
      | none => exact run_of_none (by simp [Instr.exec, hnode])
      | some c =>
        rw [run_instr (exec_getElem hnode)]
        simp only [Option.bind_eq_bind, Option.bind_some]
        split
        · rw [run_instr (hkeep (some a))]
          rfl
        · rw [run_instr (exec_getNext hnode)]
          exact ih c.next

theorem run_unlink {a : Nat} {c : LinkedList.Node α} (hnode : q.heap a = some c)
    (nodeprev : Option Nat) (k : Prg α) :
    (system α fuel).run (unlink nodeprev a k) q =
      (q.unlink nodeprev a c.next).bind fun q => (system α fuel).run k q := by
  rw [unlink, run_instr rfl, Queue.unlink]
  split
  · rw [run_instr (exec_getNext hnode), run_instr rfl]
    rfl
  · rw [run_instr rfl]
    split
    · rw [run_instr rfl, run_setNext]
    · rw [run_instr (exec_getNext hnode), run_setNext]

theorem heap_setNext {p next : Option Nat} {a : Nat} (h : q.setNext p next = some q')
    (ha : q.heap a ≠ none) : q'.heap a ≠ none := by
  obtain ⟨b, hb, h⟩ := Option.bind_eq_some_iff.1 h
  obtain ⟨c, hc, heq⟩ := Option.bind_eq_some_iff.1 h
  cases heq
  show Function.update q.heap b _ a ≠ none
  by_cases hab : a = b
  · rw [hab, Function.update_self]
    exact Option.some_ne_none _
  · rwa [Function.update_of_ne hab]

/-- Unlinking a node frees none. -/
theorem heap_unlink {nodeprev next : Option Nat} {node a : Nat}
    (h : q.unlink nodeprev node next = some q') (ha : q.heap a ≠ none) : q'.heap a ≠ none := by
  unfold Queue.unlink at h
  split at h
  · cases h
    exact ha
  · split at h
    · exact heap_setNext h ha
    · exact heap_setNext h ha

theorem run_removeElemLoop (cmp : α → Bool) (n : Nat) (nodeprev node : Option Nat) :
    (system α fuel).run (removeElemLoop cmp n nodeprev node) q =
      (q.removeElemLoop cmp n nodeprev node).map fun q => (q, .nothing) := by
  induction n generalizing nodeprev node with
  | zero => rfl
  | succ n ih =>
    cases node with
    | none => rfl
    | some a =>
      rw [removeElemLoop, Queue.removeElemLoop]
      cases hnode : q.heap a with
      | none => exact run_of_none (by simp [Instr.exec, hnode])
      | some c =>
        rw [run_instr (exec_getElem hnode)]
        simp only [Option.bind_eq_bind, Option.bind_some]
        split
        · rw [run_unlink hnode]
          cases hunlink : q.unlink nodeprev a c.next with
          | none => rfl
          | some q₁ =>
            have ha : q₁.heap a ≠ none := heap_unlink hunlink (by simp [hnode])
            obtain ⟨c₁, hc₁⟩ := Option.ne_none_iff_exists'.1 ha
            have hcounted : (q₁.count (-1)).heap a = some c₁ := hc₁
            rw [Option.bind_some, run_count, run_instr (exec_free hcounted)]
            rfl
        · rw [run_instr (exec_getNext hnode)]
          exact ih (some a) c.next

/-- A section from one end to the other is the operation. -/
theorem run_code {cells : List (Nat × α)} (h : q.Shape cells) {op : Queue.Op α}
    (hpermits : q.Permits op) {code : Prg α} (hcall : call fuel op = .inside code) :
    (system α fuel).run code q = q.exec fuel op := by
  cases op <;> cases hcall
  case enqueue node elem => exact run_enqueue (h.own _ hpermits)
  case dequeue => exact run_dequeue
  case getElem thread cmp =>
    rw [getElem, run_instr rfl, run_getElemLoop hpermits, Queue.exec, Queue.getElem]
    cases q.getElemLoop cmp fuel q.first <;> rfl
  case removeElem cmp =>
    rw [removeElem, run_instr rfl, run_removeElemLoop]
    rfl
  case numElems => rfl

theorem queue_getElemReturn {thread : Nat} {elem : Option α}
    (h : q.getElemReturn thread = some (q', elem)) : q' = q.keep thread none := by
  simp only [Queue.getElemReturn, Option.bind_eq_bind, Option.bind_eq_some_iff] at h
  obtain ⟨node, -, h⟩ := h
  cases node with
  | none =>
    cases h
    rfl
  | some a =>
    obtain ⟨c, -, heq⟩ := Option.bind_eq_some_iff.1 h
    cases heq
    rfl

/-- A step outside is the operation. -/
theorem exec_of_answer {op : Queue.Op α} {answer : Queue α → Option (Queue.Result α)}
    {effect : Queue α → Queue α} {r : Queue.Result α}
    (hcall : call fuel op = .outside answer effect) (hanswer : answer q = some r) :
    q.exec fuel op = some (effect q, r) := by
  cases op <;> cases hcall
  case malloc node elem =>
    simp only [Option.ite_none_right_eq_some, Option.some_inj] at hanswer
    rw [← hanswer.2]
    rfl
  case getElemReturn thread =>
    obtain ⟨⟨q', elem⟩, hreturn, rfl⟩ := Option.map_eq_some_iff.1 hanswer
    obtain rfl := queue_getElemReturn hreturn
    rw [Queue.exec, hreturn]
    rfl
  case getAllElems => cases hanswer

theorem exec_of_perform {cells : List (Nat × α)} (h : q.Shape cells) {op : Queue.Op α}
    (hpermits : q.Permits op) {r : Queue.Result α}
    (hperform : (system α fuel).perform q op = some (q', r)) : q.exec fuel op = some (q', r) := by
  cases hcall : (system α fuel).call op with
  | inside code =>
    rw [(system α fuel).perform_inside hcall] at hperform
    rwa [← run_code h hpermits hcall]
  | outside answer effect =>
    simp only [Atomicity.System.perform, hcall] at hperform
    obtain ⟨r', hanswer, heq⟩ := Option.map_eq_some_iff.1 hperform
    cases heq
    exact exec_of_answer hcall hanswer

/-! ## The shape -/

/-- Every operation keeps the shape. -/
theorem shape_exec {cells : List (Nat × α)} (h : q.Shape cells) {op : Queue.Op α}
    (hpermits : q.Permits op) (hfuel : cells.length < fuel) {r : Queue.Result α}
    (hexec : q.exec fuel op = some (q', r)) : q'.Shape (Snapshot.cellsAfter cells op) := by
  have hkeep (thread : Nat) (node : Option (Option Nat)) : (q.keep thread node).Shape cells :=
    { h with }
  cases op with
  | malloc node elem => exact Snapshot.shape_of_exec h trivial hpermits hfuel hexec
  | enqueue node elem => exact Snapshot.shape_of_exec h trivial hpermits hfuel hexec
  | dequeue => exact Snapshot.shape_of_exec h trivial hpermits hfuel hexec
  | removeElem cmp => exact Snapshot.shape_of_exec h trivial hpermits hfuel hexec
  | getElem thread cmp =>
    obtain ⟨q₁, hget, heq⟩ := Option.map_eq_some_iff.1 hexec
    cases heq
    obtain ⟨node, -, heq⟩ := Option.bind_eq_some_iff.1 hget
    cases heq
    exact hkeep thread (some node)
  | getElemReturn thread =>
    obtain ⟨⟨q₁, elem⟩, hreturn, heq⟩ := Option.map_eq_some_iff.1 hexec
    cases heq
    rw [queue_getElemReturn hreturn]
    exact hkeep thread none
  | numElems =>
    cases hexec
    exact h
  | getAllElems =>
    obtain ⟨es, -, heq⟩ := Option.map_eq_some_iff.1 hexec
    cases heq
    exact h

/-- A section goes through. -/
theorem run_isSome {cells : List (Nat × α)} (h : q.Shape cells) {op : Queue.Op α}
    (hpermits : q.Permits op) (hfuel : cells.length < fuel) {code : Prg α}
    (hcall : call fuel op = .inside code) : ((system α fuel).run code q).isSome := by
  rw [run_code h hpermits hcall]
  have hgoes {op : Queue.Op α} (hop : Snapshot.Updates op) (hpermits : q.Permits op) :
      (q.exec fuel op).isSome := by
    obtain ⟨q', r, hexec, -⟩ := Snapshot.shape_exec h hop hpermits hfuel
    rw [hexec]
    rfl
  cases op <;> cases hcall
  case enqueue node elem => exact hgoes trivial hpermits
  case dequeue => exact hgoes trivial hpermits
  case getElem thread cmp =>
    have hnil : q.Shape ([] ++ cells) := h
    have hloop := hnil.getElemLoop cmp hfuel
    rw [← h.first] at hloop
    rw [Queue.exec, Queue.getElem, hloop]
    rfl
  case removeElem cmp => exact hgoes trivial hpermits
  case numElems => rfl

end

/-! ## Calls one after another -/

section

variable {τ : Type*} {fuel : Nat}

/-- The operations of some calls, and what they return. -/
def ops (calls : List (τ × Queue.Op α × Queue.Result α)) : List (Queue.Op α) :=
  calls.map fun c => c.2.1

def results (calls : List (τ × Queue.Op α × Queue.Result α)) : List (Queue.Result α) :=
  calls.map fun c => c.2.2

theorem execAll_concat {q q' q'' : Queue α} {os : List (Queue.Op α)} {op : Queue.Op α}
    {rs : List (Queue.Result α)} {r : Queue.Result α} (h : q.execAll fuel os = some (q', rs))
    (hexec : q'.exec fuel op = some (q'', r)) :
    q.execAll fuel (os ++ [op]) = some (q'', rs ++ [r]) := by
  induction os generalizing q rs with
  | nil =>
    cases h
    simp [Queue.execAll, hexec]
  | cons o os ih =>
    obtain ⟨⟨q₁, r₁⟩, hfirst, h⟩ := Option.bind_eq_some_iff.1 h
    obtain ⟨⟨q₂, rs₂⟩, hrest, heq⟩ := Option.bind_eq_some_iff.1 h
    cases heq
    rw [List.cons_append, Queue.execAll, hfirst]
    simp only [Option.bind_eq_bind, Option.bind_some, ih hrest]
    rfl

theorem along_concat {P : Queue α → Queue.Op α → Prop} {q q' : Queue α} {os : List (Queue.Op α)}
    {op : Queue.Op α} {rs : List (Queue.Result α)} (h : q.Along P fuel os)
    (hexec : q.execAll fuel os = some (q', rs)) (hop : P q' op) : q.Along P fuel (os ++ [op]) := by
  induction os generalizing q rs with
  | nil =>
    cases hexec
    exact ⟨hop, fun _ _ => trivial⟩
  | cons o os ih =>
    obtain ⟨⟨q₁, r₁⟩, hfirst, hexec⟩ := Option.bind_eq_some_iff.1 hexec
    obtain ⟨⟨q₂, rs₂⟩, hrest, heq⟩ := Option.bind_eq_some_iff.1 hexec
    cases heq
    exact Queue.along_cons hfirst h.1 (ih (h.2 _ hfirst) hrest)

/-- Calls that are performed one after another are operations on the queue, which has at most one
node for each of them. -/
theorem execAll_of_performs {calls : List (τ × Queue.Op α × Queue.Result α)} {q : Queue α}
    (h : (system α fuel).Performs initQueue calls q) (hfuel : calls.length ≤ fuel) :
    (initQueue : Queue α).execAll fuel (ops calls) = some (q, results calls) ∧
      (initQueue : Queue α).Along Queue.Permits fuel (ops calls) ∧
      ∃ cells, q.Shape cells ∧ cells.length ≤ calls.length := by
  induction h with
  | nil => exact ⟨rfl, trivial, [], Queue.shape_initQueue, Nat.le_refl 0⟩
  | @concat calls q q' op r h hpermits hperform t ih =>
    rw [List.length_append, List.length_singleton] at hfuel ⊢
    obtain ⟨hexecAll, halong, cells, hshape, hlength⟩ := ih (by omega)
    have hexec : q.exec fuel op = some (q', r) := exec_of_perform hshape hpermits hperform
    have hcells := Snapshot.length_cellsAfter cells op
    rw [ops, results, List.map_append, List.map_append]
    exact ⟨execAll_concat hexecAll hexec, along_concat halong hexecAll hpermits,
      _, shape_exec hshape hpermits (by omega) hexec, by omega⟩

end

/-! ## Any interleaving -/

section

variable {τ : Type*} {fuel : Nat}

/-- The calls of a run, in the order in which they take effect. -/
def linearized (fuel : Nat) (as : List (Atomicity.Action τ (Queue.Op α))) :
    List (τ × Queue.Op α × Queue.Result α) :=
  (system α fuel).linearized initQueue as

/-- The calls of a run, in the order in which they return. -/
def returned (fuel : Nat) (as : List (Atomicity.Action τ (Queue.Op α))) :
    List (τ × Queue.Op α × Queue.Result α) :=
  (system α fuel).returned initQueue as

/-- The threads might as well take turns by whole calls. -/
structure Linearizes [DecidableEq τ] (fuel : Nat) (as : List (Atomicity.Action τ (Queue.Op α)))
    (s : Atomicity.State τ (Queue α) (Queue.Op α) Instr (Instr.Answer α) (Queue.Result α)) :
    Prop where
  /-- One after another, the calls return what they return in the run, and leave the queue it
  leaves. -/
  performed : ∃ q, (initQueue : Queue α).execAll fuel (ops (linearized fuel as)) =
    some (q, results (linearized fuel as)) ∧ (s.inside = none → s.memory = q)
  permitted : (initQueue : Queue α).Along Queue.Permits fuel (ops (linearized fuel as))
  /-- The calls that have taken effect are those that have returned, and at most that of the thread
  inside; each thread has made them in the order in which they have returned to it. -/
  threads : ∃ owed, (∀ c ∈ owed, ∃ x ∈ s.inside, x.thread = c.1 ∧ x.op = c.2.1) ∧
    ∀ t, Atomicity.ofThread t (linearized fuel as) =
      Atomicity.ofThread t (returned fuel as ++ owed)
  /-- What has taken effect stays where it is in the order. -/
  order : ∀ before after, as = before ++ after → linearized fuel before <+: linearized fuel as
  /-- No thread goes wrong inside, and left alone it comes to its end. -/
  goesOn : ∀ x ∈ s.inside, ((system α fuel).run x.code s.memory).isSome
  /-- If no node is freed that a thread has found and not read, the calls return what they return on
  a list. -/
  list : (initQueue : Queue α).Along (Queue.Undisturbed fuel) fuel (ops (linearized fuel as)) →
    results (linearized fuel as) = listResults (ops (linearized fuel as))

/-- **The critical sections are atomic.** -/
theorem queue_linearizes_of_run [DecidableEq τ] {as : List (Atomicity.Action τ (Queue.Op α))}
    {s : Atomicity.State τ (Queue α) (Queue.Op α) Instr (Instr.Answer α) (Queue.Result α)}
    (run : Lts.Run (system α fuel).exec (system α fuel).Allowed (Atomicity.start initQueue) as s)
    (hfuel : as.length < fuel) : Linearizes fuel as s := by
  have hsafe (calls : List (τ × Queue.Op α × Queue.Result α)) (q : Queue α) (op : Queue.Op α)
      (code : Prg α) (h : (system α fuel).Performs initQueue calls q) (hlt : calls.length < fuel)
      (hcall : call fuel op = .inside code) (hpermits : q.Permits op) :
      ((system α fuel).run code q).isSome := by
    obtain ⟨-, -, cells, hshape, hlength⟩ := execAll_of_performs h (Nat.le_of_lt hlt)
    exact run_isSome hshape hpermits (Nat.lt_of_le_of_lt hlength hlt) hcall
  obtain ⟨q, owed, hperforms, hlength, hstands, hthreads⟩ :=
    Atomicity.linearized_of_run (sound fuel) run fun calls q op code h hlt hcall hpermits =>
      hsafe calls q op code h (Nat.lt_trans hlt hfuel) hcall hpermits
  obtain ⟨hexecAll, halong, -⟩ :=
    execAll_of_performs hperforms (Nat.le_trans hlength (Nat.le_of_lt hfuel))
  exact {
    performed := ⟨q, hexecAll, hstands.memory_eq⟩
    permitted := halong
    threads := ⟨owed, hstands.exists_inside, hthreads⟩
    order := by
      rintro before after rfl
      exact (system α fuel).linearized_append initQueue before after
    goesOn := hstands.run_isSome fun op code hcall hpermits =>
      hsafe _ q op code hperforms (Nat.lt_of_le_of_lt hlength hfuel) hcall hpermits
    list := by
      intro hkept
      have hops : (ops (linearized fuel as)).length < fuel := by
        rw [ops, List.length_map]
        exact Nat.lt_of_le_of_lt hlength hfuel
      obtain ⟨q', cells, hlist, -⟩ := Queue.represents_initQueue.execAll halong hkept
        (by rwa [List.length_nil, Nat.zero_add])
      exact congrArg Prod.snd (Option.some.inj (hexecAll.symm.trans hlist)) }

end

/-- A thread takes the 7 out. Before it has counted and given the lock back, another one is given
the freed node for a 9. -/
def reusedRun : List (Atomicity.Action Nat (Queue.Op Nat)) :=
  [.outside 0 (.malloc 0 7), .enter 0 (.enqueue 0 7)] ++ List.replicate 6 .step ++
    [.exit, .enter 1 .dequeue] ++ List.replicate 6 .step ++ [.outside 0 (.malloc 0 9), .step, .step,
      .exit]

/-- It has taken the 7 out before. -/
theorem queue_linearizes_reusedRun :
    ∃ s, Linearizes 30 reusedRun s ∧
      results (linearized 30 reusedRun) = [.nothing, .nothing, .elem (some 7), .nothing] ∧
      results (returned 30 reusedRun) = [.nothing, .nothing, .nothing, .elem (some 7)] := by
  have hrun : (Lts.execWhile (system Nat 30).exec (system Nat 30).Allowed
      (Atomicity.start initQueue) reusedRun).any (fun s => s.inside.isNone) := by
    decide
  obtain ⟨s, run, -⟩ := Lts.Run.exists_of_execWhile hrun
  exact ⟨s, queue_linearizes_of_run run (by decide), by decide, by decide⟩

end GlfsNdmp.Sections
