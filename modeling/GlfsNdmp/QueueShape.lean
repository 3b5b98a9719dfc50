import GlfsNdmp.Queue
import Mathlib.Data.List.Nodup

/-!
# The shape of the linked queue

`Queue.Shape` is the invariant of the heap: the cells in the order of the chain, the count, `last` if
there is a last cell, and no node in two places. Every operation keeps it and does to the cells what
it should do to a list.
-/

namespace GlfsNdmp

open LinkedList

variable {α : Type}

/-- The chain from `first` consists of these cells, and `last` is the last of them. -/
structure Queue.Chain (q : Queue α) (cells : List (Nat × α)) : Prop where
  first : q.first = head cells
  linked : Segment q.heap none cells
  last : ∀ c ∈ cells.getLast?, q.last = some c.1

/-- The invariant: the chain, its length as an `int` has it, and no node in two places. -/
structure Queue.Shape (q : Queue α) (cells : List (Nat × α)) : Prop extends q.Chain cells where
  count : q.numElems = int32 cells.length
  nodup : (addresses cells ++ addresses q.pending).Nodup
  own : ∀ c ∈ q.pending, q.heap c.1 = some ⟨c.2, none⟩
  allocated : ∀ a, q.heap a ≠ none → a ∈ addresses cells ++ addresses q.pending

namespace Queue

theorem shape_initQueue : (initQueue : Queue α).Shape [] where
  first := rfl
  linked := trivial
  last := by rintro c ⟨⟩
  count := (int32_of_lt (Nat.two_pow_pos 31)).symm
  nodup := List.nodup_nil
  own := by rintro c ⟨⟩
  allocated a ha := absurd rfl ha

/-- The cells of the chain are determined. -/
theorem Chain.unique {q : Queue α} {cells cells' : List (Nat × α)} (h : q.Chain cells)
    (h' : q.Chain cells') : cells = cells' :=
  segment_unique h.linked h'.linked (h.first.symm.trans h'.first)

namespace Shape

variable {q : Queue α} {cells : List (Nat × α)}

/-- What is allocated nowhere is in neither place. -/
theorem not_mem (h : q.Shape cells) {a : Nat} (ha : q.heap a = none) :
    a ∉ addresses cells ++ addresses q.pending := by
  intro hmem
  rcases List.mem_append.1 hmem with hmem | hmem
  · exact h.linked.ne_none hmem ha
  · obtain ⟨c, hc, rfl⟩ := List.mem_map.1 hmem
    rw [h.own c hc] at ha
    cases ha

theorem malloc (h : q.Shape cells) {node : Nat} (hnode : q.heap node = none) (elem : α) :
    (q.malloc node elem).Shape cells := by
  have hnot := h.not_mem hnode
  rw [List.mem_append, not_or] at hnot
  exact {
    first := h.first
    linked := (segment_update hnot.1 _).2 h.linked
    last := h.last
    count := h.count
    nodup := by
      show (addresses cells ++ node :: addresses q.pending).Nodup
      rw [List.nodup_middle, List.nodup_cons]
      exact ⟨h.not_mem hnode, h.nodup⟩
    own := by
      intro c hc
      show Function.update q.heap node _ c.1 = _
      rcases List.mem_cons.1 hc with heq | hc
      · rw [heq]
        exact Function.update_self ..
      · have hne : c.1 ≠ node := fun heq => hnot.2 (heq ▸ List.mem_map_of_mem hc)
        rw [Function.update_of_ne hne, h.own c hc]
    allocated := by
      intro a ha
      show a ∈ addresses cells ++ node :: addresses q.pending
      by_cases heq : a = node
      · simp [heq]
      · have hold : q.heap a ≠ none := by
          have hsame : (q.malloc node elem).heap a = q.heap a := Function.update_of_ne heq ..
          rwa [hsame] at ha
        rcases List.mem_append.1 (h.allocated a hold) with hmem | hmem
        · exact List.mem_append_left _ hmem
        · exact List.mem_append_right _ (List.mem_cons_of_mem _ hmem) }

/-- The nodes that stay with the threads. -/
def stillPending (q : Queue α) (node : Nat) : List (Nat × α) :=
  q.pending.filter fun c => c.1 ≠ node

theorem addresses_stillPending_subset (q : Queue α) (node : Nat) :
    addresses (stillPending q node) ⊆ addresses q.pending :=
  List.map_subset _ (List.filter_subset_self _)

theorem not_mem_of_pending (h : q.Shape cells) {c : Nat × α} (hc : c ∈ q.pending) :
    c.1 ∉ addresses cells :=
  fun hin => (List.nodup_append.1 h.nodup).2.2 c.1 hin c.1 (List.mem_map_of_mem hc) rfl

/-- Moving a pending node to the end of the queue puts no node in two places. -/
theorem nodup_enqueue (h : q.Shape cells) {node : Nat} {elem : α}
    (hpending : (node, elem) ∈ q.pending) :
    (addresses (cells ++ [(node, elem)]) ++ addresses (stillPending q node)).Nodup := by
  obtain ⟨hcells, hpend, hdisj⟩ := List.nodup_append.1 h.nodup
  rw [addresses_append, List.append_assoc]
  show (addresses cells ++ node :: _).Nodup
  rw [List.nodup_middle, List.nodup_cons, List.nodup_append, List.mem_append, not_or]
  refine ⟨⟨h.not_mem_of_pending hpending, fun hin => ?_⟩, hcells,
    hpend.sublist (List.filter_sublist.map _),
    fun a ha b hb => hdisj a ha b (addresses_stillPending_subset q node hb)⟩
  obtain ⟨c, hc, heq⟩ := List.mem_map.1 hin
  exact of_decide_eq_true (List.mem_filter.1 hc).2 heq

theorem allocated_enqueue (h : q.Shape cells) {node : Nat} (elem : α) {a : Nat}
    (ha : q.heap a ≠ none) :
    a ∈ addresses (cells ++ [(node, elem)]) ++ addresses (stillPending q node) := by
  by_cases heq : a = node
  · simp [heq]
  · rcases List.mem_append.1 (h.allocated a ha) with hin | hin
    · exact List.mem_append_left _ (by simp [hin])
    · obtain ⟨c, hc, rfl⟩ := List.mem_map.1 hin
      exact List.mem_append_right _
        (List.mem_map_of_mem (List.mem_filter.2 ⟨hc, by simpa using heq⟩))

theorem count_enqueue (h : q.Shape cells) (c : Nat × α) :
    int32 (q.numElems + 1) = int32 (cells ++ [c]).length := by
  rw [h.count, int32_add, List.length_append]
  rfl

/-- Into an empty queue: `last` is not looked at. -/
theorem enqueue_nil (h : q.Shape []) {node : Nat} {elem : α}
    (hpending : (node, elem) ∈ q.pending) :
    ∃ q', q.enqueue node = some q' ∧ q'.Shape [(node, elem)] := by
  let q' : Queue α :=
    { q with
      first := some node
      last := some node
      numElems := int32 (q.numElems + 1)
      pending := stillPending q node }
  have hfirst : q.first = none := h.first
  have hexec : q.enqueue node = some q' := by
    simp only [Queue.enqueue, hfirst]
    rfl
  refine ⟨q', hexec, ?_⟩
  exact {
    first := rfl
    linked := ⟨h.own _ hpending, trivial⟩
    last := by
      rintro c ⟨⟩
      rfl
    count := h.count_enqueue (node, elem)
    nodup := h.nodup_enqueue hpending
    own := fun c hc => h.own c (List.mem_filter.1 hc).1
    allocated := fun a ha => h.allocated_enqueue elem ha }

/-- Behind a last node. -/
theorem enqueue_concat {as : List (Nat × α)} {l : Nat × α} (h : q.Shape (as ++ [l])) {node : Nat}
    {elem : α} (hpending : (node, elem) ∈ q.pending) :
    ∃ q', q.enqueue node = some q' ∧ q'.Shape (as ++ [l] ++ [(node, elem)]) := by
  obtain ⟨a, ha⟩ : ∃ a, q.first = some a := by
    rw [h.first, head_append]
    cases head as with
    | none => exact ⟨l.1, rfl⟩
    | some a => exact ⟨a, rfl⟩
  let q' : Queue α :=
    { q with
      first := some a
      last := some node
      numElems := int32 (q.numElems + 1)
      heap := Function.update q.heap l.1 (some ⟨l.2, some node⟩)
      pending := stillPending q node }
  have hlast : q.last = some l.1 := h.last l (by simp)
  have hl : q.heap l.1 = some ⟨l.2, none⟩ := h.linked.lookup
  have hne : node ≠ l.1 := fun heq => h.not_mem_of_pending hpending (by simp [heq])
  have hfirst : some a = head (as ++ [l] ++ [(node, elem)]) := by
    rw [← ha, h.first, head_append (as ++ [l]), head_append]
    cases head as <;> rfl
  have hexec : q.enqueue node = some q' := by
    simp only [Queue.enqueue, ha, Queue.setNext, hlast, Option.bind_eq_bind, Option.bind_some, hl]
    rfl
  have hlnot : l.1 ∉ addresses as := by
    have hnodup := (List.nodup_append.1 h.nodup).1
    rw [addresses_append, List.nodup_append] at hnodup
    exact fun hin => hnodup.2.2 l.1 hin l.1 (by simp) rfl
  refine ⟨q', hexec, ?_⟩
  exact {
    first := hfirst
    linked := segment_append.2 ⟨h.linked.relink hlnot,
      (Function.update_of_ne hne ..).trans (h.own _ hpending), trivial⟩
    last := by
      intro c hc
      rw [List.getLast?_concat, Option.mem_some_iff] at hc
      rw [← hc]
    count := h.count_enqueue (node, elem)
    nodup := h.nodup_enqueue hpending
    own := by
      intro c hc
      have hin : c ∈ q.pending := (List.mem_filter.1 hc).1
      have hcl : c.1 ≠ l.1 := fun heq => h.not_mem_of_pending hin (by simp [heq])
      exact (Function.update_of_ne hcl ..).trans (h.own c hin)
    allocated := by
      intro a ha
      by_cases heq : a = l.1
      · simp [heq]
      · have hsame : q'.heap a = q.heap a := Function.update_of_ne heq ..
        exact h.allocated_enqueue elem (by rwa [← hsame]) }

/-- A pending node goes to the end. -/
theorem enqueue (h : q.Shape cells) {node : Nat} {elem : α} (hpending : (node, elem) ∈ q.pending) :
    ∃ q', q.enqueue node = some q' ∧ q'.Shape (cells ++ [(node, elem)]) := by
  rcases List.eq_nil_or_concat cells with rfl | ⟨as, l, rfl⟩
  · exact h.enqueue_nil hpending
  · rw [List.concat_eq_append] at h ⊢
    exact h.enqueue_concat hpending

/-! ### Taking a node out -/

theorem nodup_remove {as bs : List (Nat × α)} {c : Nat × α} (h : q.Shape (as ++ c :: bs)) :
    c.1 ∉ addresses (as ++ bs) ++ addresses q.pending ∧
      (addresses (as ++ bs) ++ addresses q.pending).Nodup := by
  have hnodup := h.nodup
  rw [addresses_append, addresses_cons, List.append_assoc, List.cons_append, List.nodup_middle,
    List.nodup_cons, ← List.append_assoc, ← addresses_append] at hnodup
  exact hnodup

theorem allocated_remove {as bs : List (Nat × α)} {c : Nat × α} (h : q.Shape (as ++ c :: bs))
    {a : Nat} (ha : q.heap a ≠ none) (hne : a ≠ c.1) :
    a ∈ addresses (as ++ bs) ++ addresses q.pending := by
  rcases List.mem_append.1 (h.allocated a ha) with hin | hin
  · rw [addresses_append, addresses_cons, List.mem_append, List.mem_cons] at hin
    refine List.mem_append_left _ ?_
    rw [addresses_append, List.mem_append]
    exact hin.imp_right fun hin => hin.resolve_left hne
  · exact List.mem_append_right _ hin

theorem count_remove {as bs : List (Nat × α)} {c : Nat × α} (h : q.Shape (as ++ c :: bs)) :
    int32 (q.numElems + -1) = int32 (as ++ bs).length := by
  rw [h.count, int32_add]
  congr 1
  simp only [List.length_append, List.length_cons]
  omega

/-- Taking out the first node. -/
theorem remove_first {c : Nat × α} {bs : List (Nat × α)} (h : q.Shape (c :: bs)) :
    Shape { q with
      first := head bs
      numElems := int32 (q.numElems + -1)
      heap := Function.update q.heap c.1 none } bs := by
  have h' : q.Shape ([] ++ c :: bs) := h
  obtain ⟨hnot, hnodup⟩ := h'.nodup_remove
  rw [List.mem_append, not_or] at hnot
  exact {
    first := rfl
    linked := (segment_update hnot.1 _).2 h.linked.2
    last := fun d hd => h.last d (by cases bs with
      | nil => cases hd
      | cons b bs => exact hd)
    count := h'.count_remove
    nodup := hnodup
    own := by
      intro d hd
      have hne : d.1 ≠ c.1 := fun heq => hnot.2 (heq ▸ List.mem_map_of_mem hd)
      exact (Function.update_of_ne hne ..).trans (h.own d hd)
    allocated := by
      intro a ha
      by_cases heq : a = c.1
      · rw [heq] at ha
        exact absurd (Function.update_self ..) ha
      · have hsame : Function.update q.heap c.1 none a = q.heap a := Function.update_of_ne heq ..
        exact h'.allocated_remove (by rwa [← hsame]) heq }

/-- Taking out a node behind another one. -/
theorem remove_behind {as bs : List (Nat × α)} {p c : Nat × α} (h : q.Shape (as ++ p :: c :: bs))
    {last : Option Nat} (hlast : ∀ d ∈ (as ++ p :: bs).getLast?, last = some d.1) :
    Shape { q with
      last := last
      numElems := int32 (q.numElems + -1)
      heap := Function.update (Function.update q.heap p.1 (some ⟨p.2, head bs⟩)) c.1 none }
      (as ++ p :: bs) := by
  have h' : q.Shape ((as ++ [p]) ++ c :: bs) := by rwa [List.append_assoc]
  have hsplit : as ++ p :: bs = (as ++ [p]) ++ bs := by rw [List.append_assoc]; rfl
  obtain ⟨hnot, hnodup⟩ := h'.nodup_remove
  rw [← hsplit] at hnot hnodup
  have hp : p.1 ∈ addresses (as ++ p :: bs) := by simp
  have hpc : p.1 ≠ c.1 := fun heq => hnot (heq ▸ List.mem_append_left _ hp)
  have hother {a : Nat} (hap : a ≠ p.1) (hac : a ≠ c.1) :
      Function.update (Function.update q.heap p.1 (some ⟨p.2, head bs⟩)) c.1 none a = q.heap a := by
    rw [Function.update_of_ne hac, Function.update_of_ne hap]
  rw [List.mem_append, not_or] at hnot
  have hunlink := h.linked.unlink (List.nodup_append.1 h.nodup).1
  rw [Option.or_none] at hunlink
  exact {
    first := by
      rw [h.first, head_append, head_append]
      rfl
    linked := hunlink
    last := hlast
    count := by
      rw [hsplit]
      exact h'.count_remove
    nodup := hnodup
    own := by
      intro d hd
      have hdc : d.1 ≠ c.1 := fun heq => hnot.2 (heq ▸ List.mem_map_of_mem hd)
      have hdp : d.1 ≠ p.1 := fun heq => h.not_mem_of_pending hd (by simp [heq])
      exact (hother hdp hdc).trans (h.own d hd)
    allocated := by
      intro a ha
      by_cases hac : a = c.1
      · rw [hac] at ha
        exact absurd (Function.update_self ..) ha
      · by_cases hap : a = p.1
        · rw [hap]
          exact List.mem_append_left _ hp
        · rw [hsplit]
          exact h'.allocated_remove (by rwa [← hother hap hac]) hac }

/-- A node of the list, as the heap has it. -/
theorem node {as bs : List (Nat × α)} {c : Nat × α} (h : q.Shape (as ++ c :: bs)) :
    q.heap c.1 = some ⟨c.2, head bs⟩ := by
  rw [h.linked.lookup, Option.or_none]

theorem dequeue (h : q.Shape cells) :
    ∃ q', q.dequeue = some (q', (elems cells).head?) ∧ q'.Shape cells.tail := by
  cases cells with
  | nil =>
    have hfirst : q.first = none := h.first
    exact ⟨q, by rw [Queue.dequeue, hfirst]; rfl, h⟩
  | cons c cells =>
    have hfirst : q.first = some c.1 := h.first
    have hnode := node (show q.Shape ([] ++ c :: cells) from h)
    refine ⟨_, ?_, h.remove_first⟩
    rw [Queue.dequeue, hfirst]
    simp only [hnode, Option.bind_eq_bind, Option.bind_some]
    rfl

/-! ### The loops -/

/-- A loop over the nodes, from some node on: there is enough fuel if there is more than nodes left,
and each turn finds the next of them. -/
theorem loop {motive : List (Nat × α) → List (Nat × α) → Nat → Prop} {as bs : List (Nat × α)}
    (h : q.Shape (as ++ bs)) {fuel : Nat} (hfuel : bs.length < fuel)
    (nil : ∀ as fuel, q.Shape as → motive as [] (fuel + 1))
    (cons : ∀ as c bs fuel, q.Shape (as ++ c :: bs) → q.heap c.1 = some ⟨c.2, head bs⟩ →
      motive (as ++ [c]) bs fuel → motive as (c :: bs) (fuel + 1)) : motive as bs fuel := by
  induction bs generalizing as fuel with
  | nil =>
    obtain ⟨fuel, rfl⟩ := Nat.exists_eq_succ_of_ne_zero (Nat.ne_of_gt hfuel)
    exact nil as fuel (by rwa [List.append_nil] at h)
  | cons c bs ih =>
    obtain ⟨fuel, rfl⟩ := Nat.exists_eq_succ_of_ne_zero (Nat.ne_of_gt (Nat.zero_lt_of_lt hfuel))
    have hrest : q.Shape ((as ++ [c]) ++ bs) := by rwa [List.append_assoc]
    exact cons as c bs fuel h h.node (ih hrest (Nat.lt_of_succ_lt_succ hfuel))

/-- `get_elem` from some node on. -/
theorem getElemLoop {as bs : List (Nat × α)} (h : q.Shape (as ++ bs)) (cmp : α → Bool) {fuel : Nat}
    (hfuel : bs.length < fuel) :
    q.getElemLoop cmp fuel (head bs) = some ((bs.find? fun c => cmp c.2).map Prod.fst) := by
  refine h.loop (motive := fun _ bs fuel => q.getElemLoop cmp fuel (head bs) =
    some ((bs.find? fun c => cmp c.2).map Prod.fst)) hfuel (fun _ _ _ => rfl) ?_
  intro as c bs fuel h hnode ih
  rw [head_cons, Queue.getElemLoop, hnode]
  simp only [Option.bind_eq_bind, Option.bind_some]
  cases hcmp : cmp c.2 with
  | true => simp [hcmp]
  | false =>
    rw [if_neg Bool.false_ne_true, ih]
    simp [hcmp]

/-- What `remove_elem` asks: is it the first node? -/
theorem first_eq_iff {as bs : List (Nat × α)} {c : Nat × α} (h : q.Shape (as ++ c :: bs)) :
    q.first = some c.1 ↔ as = [] := by
  have hnot := h.nodup_remove.1
  rw [h.first, head_append]
  cases as with
  | nil => simp
  | cons d as =>
    refine iff_of_false (fun heq => hnot ?_) (List.cons_ne_nil d as)
    have hd : d.1 = c.1 := Option.some.inj heq
    simp [← hd]

/-- Is it the last node? -/
theorem last_eq_iff {as bs : List (Nat × α)} {c : Nat × α} (h : q.Shape (as ++ c :: bs)) :
    q.last = some c.1 ↔ bs = [] := by
  have hnot := h.nodup_remove.1
  rcases List.eq_nil_or_concat bs with rfl | ⟨bs, b, rfl⟩
  · exact iff_of_true (h.last c (by simp)) rfl
  · rw [List.concat_eq_append] at *
    have hb : q.last = some b.1 :=
      h.last b (by rw [← List.cons_append, ← List.append_assoc, List.getLast?_concat]; rfl)
    refine iff_of_false (fun heq => hnot ?_) (by simp)
    have hbc : b.1 = c.1 := Option.some.inj (hb.symm.trans heq)
    simp [← hbc]

/-- What `remove_elem` does where it has found a match, with the node before it if there is one. -/
theorem remove_found {as bs : List (Nat × α)} {c : Nat × α} (h : q.Shape (as ++ c :: bs))
    {prev : Option Nat} (hprev : ∀ p ∈ as.getLast?, prev = some p.1) :
    ∃ q', q.unlink prev c.1 (head bs) = some q' ∧
      Shape ((q'.count (-1)).free c.1) (as ++ bs) := by
  unfold unlink
  rcases List.eq_nil_or_concat as with rfl | ⟨as, p, rfl⟩
  · -- the first node
    refine ⟨_, if_pos (h.first_eq_iff.2 rfl), ?_⟩
    exact Shape.remove_first h
  · rw [List.concat_eq_append] at *
    have hne : q.first ≠ some c.1 := fun heq => absurd (h.first_eq_iff.1 heq) (by simp)
    have hshape : q.Shape (as ++ p :: c :: bs) := by rwa [List.append_assoc] at h
    have hp : prev = some p.1 := hprev p (by simp)
    have hpnode : q.heap p.1 = some ⟨p.2, some c.1⟩ := hshape.node
    rw [if_neg hne, hp, List.append_assoc]
    rcases List.eq_nil_or_concat bs with rfl | ⟨bs, b, rfl⟩
    · -- the last node
      have hlast : ∀ d ∈ (as ++ [p]).getLast?, some p.1 = some d.1 := by
        intro d hd
        rw [List.getLast?_concat, Option.mem_some_iff] at hd
        rw [hd]
      refine ⟨{ q with
        last := some p.1
        heap := Function.update q.heap p.1 (some ⟨p.2, none⟩) }, ?_, hshape.remove_behind hlast⟩
      rw [if_pos (h.last_eq_iff.2 rfl)]
      simp only [setNext, hpnode, Option.bind_eq_bind, Option.bind_some]
    · -- a node in between
      rw [List.concat_eq_append] at *
      have hlast : ∀ d ∈ (as ++ p :: (bs ++ [b])).getLast?, q.last = some d.1 := by
        intro d hd
        refine h.last d ?_
        rw [← List.cons_append, ← List.append_assoc, List.getLast?_concat] at hd ⊢
        exact hd
      refine ⟨{ q with heap := Function.update q.heap p.1 (some ⟨p.2, head (bs ++ [b])⟩) }, ?_,
        hshape.remove_behind hlast⟩
      rw [if_neg fun heq => absurd (h.last_eq_iff.1 heq) (by simp)]
      simp only [setNext, hpnode, Option.bind_eq_bind, Option.bind_some]

/-- `remove_elem` from some node on, with the node before it. -/
theorem removeElemLoop {as bs : List (Nat × α)} (h : q.Shape (as ++ bs)) (cmp : α → Bool)
    {prev : Option Nat} (hprev : ∀ p ∈ as.getLast?, prev = some p.1) {fuel : Nat}
    (hfuel : bs.length < fuel) :
    ∃ q', q.removeElemLoop cmp fuel prev (head bs) = some q' ∧
      q'.Shape (as ++ bs.eraseP fun c => cmp c.2) := by
  refine h.loop (motive := fun as bs fuel => ∀ prev, (∀ p ∈ as.getLast?, prev = some p.1) →
    ∃ q', q.removeElemLoop cmp fuel prev (head bs) = some q' ∧
      q'.Shape (as ++ bs.eraseP fun c => cmp c.2)) hfuel ?_ ?_ prev hprev
  · intro as fuel h prev hprev
    exact ⟨q, rfl, by rwa [List.eraseP_nil, List.append_nil]⟩
  · intro as c bs fuel h hnode ih prev hprev
    rw [head_cons, Queue.removeElemLoop, hnode]
    simp only [Option.bind_eq_bind, Option.bind_some]
    cases hcmp : cmp c.2 with
    | false =>
      have hc : ∀ p ∈ (as ++ [c]).getLast?, some c.1 = some p.1 := by
        intro p hp
        rw [List.getLast?_concat, Option.mem_some_iff] at hp
        rw [hp]
      obtain ⟨q', hexec, hshape⟩ := ih (some c.1) hc
      refine ⟨q', by rw [if_neg Bool.false_ne_true, hexec], ?_⟩
      rwa [List.eraseP_cons_of_neg (by simp [hcmp]), List.append_cons]
    | true =>
      obtain ⟨q', hexec, hshape⟩ := h.remove_found hprev
      refine ⟨(q'.count (-1)).free c.1, ?_, ?_⟩
      · rw [if_pos rfl, hexec]
        rfl
      · rwa [List.eraseP_cons_of_pos (by simpa using hcmp)]

theorem removeElem (h : q.Shape cells) (cmp : α → Bool) {fuel : Nat} (hfuel : cells.length < fuel) :
    ∃ q', q.removeElem cmp fuel = some q' ∧ q'.Shape (cells.eraseP fun c => cmp c.2) := by
  have hnil : q.Shape ([] ++ cells) := h
  have hprev : ∀ p ∈ ([] : List (Nat × α)).getLast?, q.first = some p.1 := by
    rintro p ⟨⟩
  obtain ⟨q', hexec, hshape⟩ := hnil.removeElemLoop cmp hprev hfuel
  rw [← h.first] at hexec
  exact ⟨q', hexec, hshape⟩

/-- `get_all_elems` from some node on, with the elements before it in an array that has room for
`k` more than there are. -/
theorem getAllElemsLoop {as bs : List (Nat × α)} (h : q.Shape (as ++ bs)) (k : Nat) {fuel : Nat}
    (hfuel : bs.length < fuel) :
    q.getAllElemsLoop fuel as.length
      ((elems as).map some ++ List.replicate (bs.length + k) none) (head bs) =
        some ((elems (as ++ bs)).map some ++ List.replicate k none) := by
  refine h.loop (motive := fun as bs fuel => q.getAllElemsLoop fuel as.length
    ((elems as).map some ++ List.replicate (bs.length + k) none) (head bs) =
      some ((elems (as ++ bs)).map some ++ List.replicate k none)) hfuel ?_ ?_
  · intro as fuel h
    simp [Queue.getAllElemsLoop]
  · intro as c bs fuel h hnode ih
    have hlength : ((elems as).map some).length = as.length := by simp [elems]
    rw [head_cons, Queue.getAllElemsLoop, hnode]
    simp only [Option.bind_eq_bind, Option.bind_some]
    have hfill : ((elems as).map some ++ List.replicate ((c :: bs).length + k) none).set as.length
        (some c.2) = (elems (as ++ [c])).map some ++ List.replicate (bs.length + k) none := by
      rw [← hlength, List.set_append_right _ _ (Nat.le_refl _), List.length_cons,
        Nat.add_right_comm]
      simp [List.replicate_succ]
    have hroom : as.length <
        ((elems as).map some ++ List.replicate ((c :: bs).length + k) none).length := by
      rw [List.length_append, hlength, List.length_replicate, List.length_cons]
      omega
    rw [if_pos hroom, hfill]
    rw [List.length_append, List.length_singleton] at ih
    rw [ih, List.append_assoc]
    rfl

end Shape

end Queue

end GlfsNdmp
