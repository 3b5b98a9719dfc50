import Mathlib.Data.List.Basic
import Mathlib.Logic.Function.Basic

/-!
# Linked lists in a heap

A heap maps addresses to nodes, and a node points to the next one. `Segment h p cells` says that
`cells`, addresses with their elements, lie in the heap one after the other, and that the last of
them points to `p`. A list that ends in a null pointer is a segment up to `none`; its first address
is `head cells`.
-/

namespace LinkedList

variable {α : Type*}

/-- A node with its element. -/
structure Node (α : Type*) where
  elem : α
  next : Option Nat
  deriving DecidableEq, Repr

/-- What lies at an address; `none` where nothing is allocated. -/
abbrev Heap (α : Type*) := Nat → Option (Node α)

/-- The address of the first cell. -/
def head (cells : List (Nat × α)) : Option Nat := cells.head?.map Prod.fst

def addresses (cells : List (Nat × α)) : List Nat := cells.map Prod.fst

def elems (cells : List (Nat × α)) : List α := cells.map Prod.snd

/-- The cells lie in the heap, linked up to `p`. -/
def Segment (h : Heap α) (p : Option Nat) : List (Nat × α) → Prop
  | [] => True
  | (a, e) :: cells => h a = some ⟨e, (head cells).or p⟩ ∧ Segment h p cells

@[simp] theorem head_nil : head ([] : List (Nat × α)) = none := rfl

@[simp] theorem head_cons (c : Nat × α) (cells : List (Nat × α)) :
    head (c :: cells) = some c.1 := rfl

theorem head_append (as bs : List (Nat × α)) : head (as ++ bs) = (head as).or (head bs) := by
  cases as <;> rfl

@[simp] theorem addresses_append (as bs : List (Nat × α)) :
    addresses (as ++ bs) = addresses as ++ addresses bs := List.map_append

@[simp] theorem addresses_cons (c : Nat × α) (cells : List (Nat × α)) :
    addresses (c :: cells) = c.1 :: addresses cells := rfl

@[simp] theorem addresses_nil : addresses ([] : List (Nat × α)) = [] := rfl

@[simp] theorem elems_append (as bs : List (Nat × α)) : elems (as ++ bs) = elems as ++ elems bs :=
  List.map_append

@[simp] theorem elems_cons (c : Nat × α) (cells : List (Nat × α)) :
    elems (c :: cells) = c.2 :: elems cells := rfl

@[simp] theorem elems_nil : elems ([] : List (Nat × α)) = [] := rfl

@[simp] theorem length_elems (cells : List (Nat × α)) : (elems cells).length = cells.length :=
  List.length_map _

@[simp] theorem length_addresses (cells : List (Nat × α)) :
    (addresses cells).length = cells.length :=
  List.length_map _

theorem segment_append {h : Heap α} {p : Option Nat} {as bs : List (Nat × α)} :
    Segment h p (as ++ bs) ↔ Segment h ((head bs).or p) as ∧ Segment h p bs := by
  induction as with
  | nil => simp [Segment]
  | cons c as ih =>
    rw [List.cons_append, Segment, Segment, ih, head_append, Option.or_assoc, and_assoc]

/-- Where a list begins, its cells are determined. -/
theorem segment_unique {h : Heap α} {as bs : List (Nat × α)} (has : Segment h none as)
    (hbs : Segment h none bs) (hhead : head as = head bs) : as = bs := by
  induction as generalizing bs with
  | nil =>
    cases bs with
    | nil => rfl
    | cons d bs => cases hhead
  | cons c as ih =>
    cases bs with
    | nil => cases hhead
    | cons d bs =>
      have haddress : c.1 = d.1 := Option.some.inj hhead
      have hnode := has.1
      rw [haddress, hbs.1, Option.some_inj, Node.mk.injEq, Option.or_none, Option.or_none] at hnode
      rw [ih has.2 hbs.2 hnode.2.symm, Prod.ext haddress hnode.1.symm]

/-- A segment is what lies at its addresses. -/
theorem Segment.congr {h h' : Heap α} {p : Option Nat} {cells : List (Nat × α)}
    (hseg : Segment h p cells) (heq : ∀ a ∈ addresses cells, h' a = h a) : Segment h' p cells := by
  induction cells with
  | nil => trivial
  | cons c cells ih =>
    rw [addresses_cons, List.forall_mem_cons] at heq
    exact ⟨heq.1.trans hseg.1, ih hseg.2 heq.2⟩

/-- A write beside a segment leaves it alone. -/
theorem segment_update {h : Heap α} {p : Option Nat} {cells : List (Nat × α)} {a : Nat}
    (ha : a ∉ addresses cells) (node : Option (Node α)) :
    Segment (Function.update h a node) p cells ↔ Segment h p cells := by
  induction cells with
  | nil => rfl
  | cons c cells ih =>
    rw [addresses_cons, List.mem_cons, not_or] at ha
    rw [Segment, Segment, ih ha.2, Function.update_of_ne (Ne.symm ha.1)]

/-- What lies at a cell in the middle. -/
theorem Segment.lookup {h : Heap α} {p : Option Nat} {as bs : List (Nat × α)} {c : Nat × α}
    (hseg : Segment h p (as ++ c :: bs)) : h c.1 = some ⟨c.2, (head bs).or p⟩ :=
  (segment_append.1 hseg).2.1

/-- Every cell is allocated. -/
theorem Segment.ne_none {h : Heap α} {p : Option Nat} {cells : List (Nat × α)}
    (hseg : Segment h p cells) {a : Nat} (ha : a ∈ addresses cells) : h a ≠ none := by
  obtain ⟨c, hc, rfl⟩ := List.mem_map.1 ha
  obtain ⟨as, bs, rfl⟩ := List.append_of_mem hc
  rw [hseg.lookup]
  exact Option.some_ne_none _

/-- The last cell can be made to point elsewhere. -/
theorem Segment.relink {h : Heap α} {p q : Option Nat} {as : List (Nat × α)} {c : Nat × α}
    (hseg : Segment h p (as ++ [c])) (hc : c.1 ∉ addresses as) :
    Segment (Function.update h c.1 (some ⟨c.2, q⟩)) q (as ++ [c]) := by
  rw [segment_append] at hseg ⊢
  rw [segment_update hc]
  exact ⟨hseg.1, Function.update_self .., trivial⟩

/-- The cell behind another one can be taken out. -/
theorem Segment.unlink {h : Heap α} {p : Option Nat} {as bs : List (Nat × α)} {c d : Nat × α}
    (hseg : Segment h p (as ++ c :: d :: bs))
    (hnodup : (addresses (as ++ c :: d :: bs)).Nodup) :
    Segment (Function.update (Function.update h c.1 (some ⟨c.2, (head bs).or p⟩)) d.1 none) p
      (as ++ c :: bs) := by
  rw [addresses_append, List.nodup_append] at hnodup
  obtain ⟨-, hcd, hdisj⟩ := hnodup
  rw [addresses_cons, addresses_cons, List.nodup_cons, List.nodup_cons, List.mem_cons, not_or] at hcd
  have hc : c.1 ∉ addresses as := fun hmem => hdisj c.1 hmem c.1 (by simp) rfl
  have hd : d.1 ∉ addresses as := fun hmem => hdisj d.1 hmem d.1 (by simp) rfl
  obtain ⟨has, hcs, -, hbs⟩ := segment_append.1 hseg
  rw [segment_append, segment_update hd, segment_update hc]
  refine ⟨has, ?_, ?_⟩
  · rw [Function.update_of_ne hcd.1.1, Function.update_self]
  · rwa [segment_update hcd.2.1, segment_update hcd.1.2]

end LinkedList
