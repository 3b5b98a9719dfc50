import GlfsNdmp.Lib.LinkedList
import Mathlib.Algebra.Group.Int.Defs
import Mathlib.Algebra.Group.Nat.Defs

/-!
# The linked queue

`queue.c` on a heap of nodes: a header with the first and the last node and a count, and nodes that
are allocated by `enqueue` and freed when they leave. `last` is left as it is when the queue becomes
empty, and then points to a freed node, or to whatever is allocated there next.

The threads take turns by critical sections, and two functions do something outside of theirs.
`enqueue` allocates its node before it takes the lock; until then the node is the thread's own
(`pending`). `get_elem` leaves the critical section with a pointer to the node it has found, and
reads the element only then (`found`); if the node has been freed in between, it reads whatever
lies there.
-/

namespace GlfsNdmp

open LinkedList

/-! ## The code -/

/-- `struct queue_hdr`, the nodes, the nodes that a thread is about to enqueue, and the pointer with
which a thread has left the critical section of `get_elem`. -/
structure Queue (α : Type) where
  first : Option Nat
  last : Option Nat
  numElems : Int
  heap : Heap α
  pending : List (Nat × α)
  found : Nat → Option (Option Nat)

/-- What an `int` holds after an arithmetic operation. -/
def int32 (n : Int) : Int := n.bmod (2 ^ 32)

theorem int32_add (m d : Int) : int32 (int32 m + d) = int32 (m + d) := Int.bmod_add_bmod

/-- An `int` holds what is in its range. -/
theorem int32_of_lt {n : Nat} (h : n < 2 ^ 31) : int32 n = n :=
  Int.bmod_eq_of_le_mul_two (by omega) (by omega)

section

variable {α : Type}

/-- `init_queue`. -/
def initQueue : Queue α where
  first := none
  last := none
  numElems := 0
  heap := fun _ => none
  pending := []
  found := fun _ => none

namespace Queue

/-- The first half of `enqueue`: a node of its own, at the address `malloc` returns. -/
def malloc (q : Queue α) (node : Nat) (elem : α) : Queue α :=
  { q with
    heap := Function.update q.heap node (some ⟨elem, none⟩)
    pending := (node, elem) :: q.pending }

/-- `p->next = next`; `none` if `p` points to no node. -/
def setNext (q : Queue α) (p next : Option Nat) : Option (Queue α) := do
  let a ← p
  let node ← q.heap a
  some { q with heap := Function.update q.heap a (some { node with next := next }) }

/-- `free(node)`. -/
def free (q : Queue α) (node : Nat) : Queue α :=
  { q with heap := Function.update q.heap node none }

/-- `hdr->num_elems++` and `hdr->num_elems--`. -/
def count (q : Queue α) (d : Int) : Queue α := { q with numElems := int32 (q.numElems + d) }

/-- The critical section of `enqueue`. -/
def enqueue (q : Queue α) (node : Nat) : Option (Queue α) := do
  let q := { q with pending := q.pending.filter fun c => c.1 ≠ node }
  let q ← match q.first with
    | none => some { q with first := some node }
    | some _ => q.setNext q.last (some node)
  some (({ q with last := some node } : Queue α).count 1)

/-- `dequeue`. -/
def dequeue (q : Queue α) : Option (Queue α × Option α) :=
  match q.first with
  | none => some (q, none)
  | some a => do
    let node ← q.heap a
    some ((({ q with first := node.next } : Queue α).free a).count (-1), some node.elem)

/-- The loop of `get_elem`. Every loop stops at the latest when the fuel is used up. -/
def getElemLoop (q : Queue α) (cmp : α → Bool) : Nat → Option Nat → Option (Option Nat)
  | 0, _ => none
  | _ + 1, none => some none
  | fuel + 1, some a => do
    let node ← q.heap a
    if cmp node.elem then some (some a) else q.getElemLoop cmp fuel node.next

/-- What a thread keeps of `get_elem` from one half to the other. -/
def keep (q : Queue α) (thread : Nat) (node : Option (Option Nat)) : Queue α :=
  { q with found := Function.update q.found thread node }

/-- The critical section of `get_elem`, with the comparator applied to its target. -/
def getElem (q : Queue α) (thread : Nat) (cmp : α → Bool) (fuel : Nat) : Option (Queue α) := do
  let node ← q.getElemLoop cmp fuel q.first
  some (q.keep thread (some node))

/-- `return node->elem`, after the critical section. -/
def getElemReturn (q : Queue α) (thread : Nat) : Option (Queue α × Option α) := do
  match ← q.found thread with
  | none => some (q.keep thread none, none)
  | some a =>
    let node ← q.heap a
    some (q.keep thread none, some node.elem)

/-- The three cases of `remove_elem`: the first node, the last one, one in the middle. -/
def unlink (q : Queue α) (nodeprev : Option Nat) (node : Nat) (next : Option Nat) :
    Option (Queue α) :=
  if q.first = some node then some { q with first := next }
  else if q.last = some node then ({ q with last := nodeprev } : Queue α).setNext nodeprev none
  else q.setNext nodeprev next

/-- The loop of `remove_elem`. -/
def removeElemLoop (q : Queue α) (cmp : α → Bool) :
    Nat → Option Nat → Option Nat → Option (Queue α)
  | 0, _, _ => none
  | _ + 1, _, none => some q
  | fuel + 1, nodeprev, some a => do
    let node ← q.heap a
    if cmp node.elem then
      let q ← q.unlink nodeprev a node.next
      some ((q.count (-1)).free a)
    else q.removeElemLoop cmp fuel (some a) node.next

/-- `remove_elem`. -/
def removeElem (q : Queue α) (cmp : α → Bool) (fuel : Nat) : Option (Queue α) :=
  q.removeElemLoop cmp fuel q.first q.first

/-- The loop of `get_all_elems`; a write beyond the array is none of the code's business. -/
def getAllElemsLoop (q : Queue α) : Nat → Nat → List (Option α) → Option Nat →
    Option (List (Option α))
  | 0, _, _, _ => none
  | _ + 1, _, retval, none => some retval
  | fuel + 1, i, retval, some a => do
    let node ← q.heap a
    if i < retval.length then
      q.getAllElemsLoop fuel (i + 1) (retval.set i (some node.elem)) node.next
    else none

/-- `get_all_elems`, run without other operations between its steps. -/
def getAllElems (q : Queue α) (fuel : Nat) : Option (List (Option α)) :=
  q.getAllElemsLoop fuel 0 (List.replicate q.numElems.toNat none) q.first

/-- What a thread does between two places at which others may come in. -/
inductive Op (α : Type)
  | malloc (node : Nat) (elem : α)
  | enqueue (node : Nat) (elem : α)
  | dequeue
  | getElem (thread : Nat) (cmp : α → Bool)
  | getElemReturn (thread : Nat)
  | removeElem (cmp : α → Bool)
  | numElems
  | getAllElems

/-- What it gets back. -/
inductive Result (α : Type)
  | nothing
  | elem (elem : Option α)
  | count (n : Int)
  | elems (elems : List (Option α))
  deriving DecidableEq

/-- `malloc` returns an address at which nothing is allocated, a thread enqueues the node it has
allocated, and the two halves of `get_elem` come one after the other. -/
def Permits (q : Queue α) : Op α → Prop
  | .malloc node _ => q.heap node = none
  | .enqueue node elem => (node, elem) ∈ q.pending
  | .getElem thread _ => q.found thread = none
  | .getElemReturn thread => q.found thread ≠ none
  | _ => True

instance [DecidableEq α] (q : Queue α) : DecidablePred q.Permits
  | .malloc node _ => inferInstanceAs (Decidable (q.heap node = none))
  | .enqueue node elem => inferInstanceAs (Decidable ((node, elem) ∈ q.pending))
  | .getElem thread _ => inferInstanceAs (Decidable (q.found thread = none))
  | .getElemReturn thread => inferInstanceAs (Decidable (q.found thread ≠ none))
  | .dequeue | .removeElem _ | .numElems | .getAllElems => isTrue trivial

/-- One operation; `none` if it goes wrong or the fuel is used up. -/
def exec (fuel : Nat) (q : Queue α) : Op α → Option (Queue α × Result α)
  | .malloc node elem => some (q.malloc node elem, .nothing)
  | .enqueue node _ => (q.enqueue node).map fun q => (q, .nothing)
  | .dequeue => q.dequeue.map fun r => (r.1, .elem r.2)
  | .getElem thread cmp => (q.getElem thread cmp fuel).map fun q => (q, .nothing)
  | .getElemReturn thread => (q.getElemReturn thread).map fun r => (r.1, .elem r.2)
  | .removeElem cmp => (q.removeElem cmp fuel).map fun q => (q, .nothing)
  | .numElems => some (q, .count q.numElems)
  | .getAllElems => (q.getAllElems fuel).map fun es => (q, .elems es)

section

variable {q q' : Queue α} {fuel : Nat}

theorem exec_enqueue {node : Nat} (h : q.enqueue node = some q') (elem : α) :
    q.exec fuel (.enqueue node elem) = some (q', .nothing) := by
  rw [exec, h]
  rfl

theorem exec_dequeue {elem : Option α} (h : q.dequeue = some (q', elem)) :
    q.exec fuel .dequeue = some (q', .elem elem) := by
  rw [exec, h]
  rfl

theorem exec_removeElem {cmp : α → Bool} (h : q.removeElem cmp fuel = some q') :
    q.exec fuel (.removeElem cmp) = some (q', .nothing) := by
  rw [exec, h]
  rfl

end

/-- A run, with its results. -/
def execAll (fuel : Nat) : Queue α → List (Op α) → Option (Queue α × List (Result α))
  | q, [] => some (q, [])
  | q, op :: ops => do
    let (q, r) ← q.exec fuel op
    let (q, rs) ← q.execAll fuel ops
    some (q, r :: rs)

/-- Every operation of a run meets a condition on the queue it is done on. -/
def Along (P : Queue α → Op α → Prop) (fuel : Nat) : Queue α → List (Op α) → Prop
  | _, [] => True
  | q, op :: ops => P q op ∧ ∀ r ∈ q.exec fuel op, r.1.Along P fuel ops

instance decidableAlong (P : Queue α → Op α → Prop) [∀ q, DecidablePred (P q)] (fuel : Nat) :
    (q : Queue α) → (ops : List (Op α)) → Decidable (q.Along P fuel ops)
  | _, [] => isTrue trivial
  | q, op :: ops =>
    have : ∀ r : Queue α × Result α, Decidable (r.1.Along P fuel ops) :=
      fun r => decidableAlong P fuel r.1 ops
    inferInstanceAs (Decidable (P q op ∧ ∀ r ∈ q.exec fuel op, r.1.Along P fuel ops))

theorem along_cons {P : Queue α → Op α → Prop} {fuel : Nat} {q q' : Queue α} {op : Op α}
    {r : Result α} {ops : List (Op α)} (hexec : q.exec fuel op = some (q', r)) (hop : P q op)
    (hops : q'.Along P fuel ops) : q.Along P fuel (op :: ops) := by
  refine ⟨hop, fun r' hr' => ?_⟩
  rw [hexec, Option.mem_some_iff] at hr'
  rwa [← hr']

/-- No node is freed that a thread has found and not yet read, and the `int` can count one more. -/
def Undisturbed (fuel : Nat) (q : Queue α) : Op α → Prop
  | .enqueue _ _ => q.numElems + 1 < 2 ^ 31
  | .dequeue => ∀ thread node, q.found thread = some (some node) → q.first ≠ some node
  | .removeElem cmp => ∀ thread node, q.found thread = some (some node) →
      q.getElemLoop cmp fuel q.first ≠ some (some node)
  | _ => True

end Queue

end

end GlfsNdmp
