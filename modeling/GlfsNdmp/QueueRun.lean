import GlfsNdmp.Lib.Fifo
import GlfsNdmp.Lib.Mealy
import GlfsNdmp.QueueShape

/-!
# The linked queue is a list

`queue_refines`: as long as no node leaves the queue between the two halves of a `get_elem` that has
found it, and the `int` that counts the elements can hold their number, every operation returns what
it returns on the list of the elements, and the chain of nodes has the shape it should have.
-/

namespace GlfsNdmp

open LinkedList

section

variable {α : Type}

/-! ## The list -/

/-- The elements, and what a thread has got from `get_elem` and not yet returned. -/
structure ListQueue (α : Type) where
  elems : List α
  answers : Nat → Option (Option α)

/-- The empty list. -/
def initListQueue : ListQueue α := ⟨[], fun _ => none⟩

/-- The queue as a list: append at the end, take the head, find and erase the first match. -/
def listStep (s : ListQueue α) : Queue.Op α → ListQueue α × Queue.Result α
  | .malloc _ _ => (s, .nothing)
  | .enqueue _ elem => ({ s with elems := s.elems ++ [elem] }, .nothing)
  | .dequeue => ({ s with elems := s.elems.tail }, .elem s.elems.head?)
  | .getElem thread cmp =>
    ({ s with answers := Function.update s.answers thread (some (s.elems.find? cmp)) }, .nothing)
  | .getElemReturn thread =>
    ({ s with answers := Function.update s.answers thread none }, .elem (s.answers thread).join)
  | .removeElem cmp => ({ s with elems := s.elems.eraseP cmp }, .nothing)
  | .numElems => (s, .count s.elems.length)
  | .getAllElems => (s, .elems (s.elems.map some))

/-- The results of a run on the list. -/
def listResults (ops : List (Queue.Op α)) : List (Queue.Result α) :=
  (Mealy.trace listStep initListQueue ops).map (·.output)

namespace Queue

/-! ## What the threads have found -/

section

variable {q q' : Queue α}

theorem found_setNext {p next : Option Nat} (h : q.setNext p next = some q') :
    q'.found = q.found := by
  simp only [setNext, Option.bind_eq_bind, Option.bind_eq_some_iff, Option.some_inj] at h
  obtain ⟨a, -, node, -, rfl⟩ := h
  rfl

theorem found_enqueue {node : Nat} (h : q.enqueue node = some q') : q'.found = q.found := by
  unfold enqueue at h
  cases hfirst : q.first with
  | none =>
    rw [hfirst] at h
    cases h
    rfl
  | some a =>
    rw [hfirst] at h
    obtain ⟨q₁, hlink, heq⟩ := Option.bind_eq_some_iff.1 h
    cases heq
    show q₁.found = q.found
    rw [found_setNext hlink]

theorem found_dequeue {elem : Option α} (h : q.dequeue = some (q', elem)) :
    q'.found = q.found := by
  cases hfirst : q.first with
  | none =>
    rw [dequeue, hfirst] at h
    cases h
    rfl
  | some a =>
    rw [dequeue, hfirst] at h
    simp only [Option.bind_eq_bind, Option.bind_eq_some_iff, Option.some_inj] at h
    obtain ⟨node, -, heq⟩ := h
    cases heq
    rfl

theorem found_unlink {prev next : Option Nat} {node : Nat}
    (h : q.unlink prev node next = some q') : q'.found = q.found := by
  unfold unlink at h
  split at h
  · cases h
    rfl
  · split at h
    · exact (found_setNext h).trans rfl
    · exact found_setNext h

theorem found_removeElemLoop {cmp : α → Bool} {fuel : Nat} {prev node : Option Nat}
    (h : q.removeElemLoop cmp fuel prev node = some q') : q'.found = q.found := by
  induction fuel generalizing prev node with
  | zero => cases h
  | succ fuel ih =>
    cases node with
    | none =>
      cases h
      rfl
    | some a =>
      simp only [removeElemLoop, Option.bind_eq_bind, Option.bind_eq_some_iff] at h
      obtain ⟨node, -, h⟩ := h
      split at h
      · simp only [Option.bind_eq_some_iff, Option.some_inj] at h
        obtain ⟨q₁, hunlink, rfl⟩ := h
        show q₁.found = q.found
        rw [found_unlink hunlink]
      · exact ih h

end

/-! ## One operation, and a run -/

/-- The queue, its nodes, and the list: besides the shape, whatever a thread has found is a node of
the queue, and the answer it owes is the element there. -/
structure Represents (q : Queue α) (cells : List (Nat × α)) (s : ListQueue α) : Prop
    extends q.Shape cells where
  elems : elems cells = s.elems
  small : cells.length < 2 ^ 31
  found : ∀ thread, ∃ w : Option (Option (Nat × α)),
    q.found thread = w.map (Option.map Prod.fst) ∧ s.answers thread = w.map (Option.map Prod.snd) ∧
      ∀ c, w = some (some c) → c ∈ cells

theorem represents_initQueue : (initQueue : Queue α).Represents [] initListQueue where
  toShape := shape_initQueue
  elems := rfl
  small := Nat.two_pow_pos 31
  found _ := ⟨none, rfl, rfl, by rintro c ⟨⟩⟩

namespace Represents

variable {q q' : Queue α} {cells cells' : List (Nat × α)} {s : ListQueue α}

/-- What the threads have found stays in the queue if the cells they point to do. -/
theorem found_of_mem (h : q.Represents cells s)
    (hmem : ∀ c ∈ cells, (∃ thread, q.found thread = some (some c.1)) → c ∈ cells')
    (thread : Nat) : ∃ w : Option (Option (Nat × α)),
      q.found thread = w.map (Option.map Prod.fst) ∧
        s.answers thread = w.map (Option.map Prod.snd) ∧ ∀ c, w = some (some c) → c ∈ cells' := by
  obtain ⟨w, hfound, hanswer, hcells⟩ := h.found thread
  refine ⟨w, hfound, hanswer, fun c hc => hmem c (hcells c hc) ⟨thread, ?_⟩⟩
  rw [hfound, hc]
  rfl

theorem malloc (h : q.Represents cells s) {node : Nat} (hnode : q.heap node = none) (elem : α) :
    (q.malloc node elem).Represents cells s where
  toShape := h.toShape.malloc hnode elem
  elems := h.elems
  small := h.small
  found := h.found

/-- Among the elements that are not erased are all but the first match. -/
theorem enqueue (h : q.Represents cells s) {node : Nat} {elem : α}
    (hpending : (node, elem) ∈ q.pending) (hroom : q.numElems + 1 < 2 ^ 31) :
    ∃ q', q.enqueue node = some q' ∧
      q'.Represents (cells ++ [(node, elem)]) { s with elems := s.elems ++ [elem] } := by
  obtain ⟨q', hexec, hshape⟩ := h.toShape.enqueue hpending
  have hcount : q.numElems = cells.length := h.count.trans (int32_of_lt h.small)
  refine ⟨q', hexec, ?_⟩
  exact {
    toShape := hshape
    elems := by rw [elems_append, h.elems]; rfl
    small := by
      rw [List.length_append, List.length_singleton]
      omega
    found := by
      rw [found_enqueue hexec]
      exact h.found_of_mem fun c hc _ => List.mem_append_left _ hc }

theorem dequeue (h : q.Represents cells s)
    (hkept : ∀ thread node, q.found thread = some (some node) → q.first ≠ some node) :
    ∃ q', q.dequeue = some (q', s.elems.head?) ∧
      q'.Represents cells.tail { s with elems := s.elems.tail } := by
  obtain ⟨q', hexec, hshape⟩ := h.toShape.dequeue
  rw [h.elems] at hexec
  refine ⟨q', hexec, ?_⟩
  exact {
    toShape := hshape
    elems := by
      rw [← h.elems]
      exact List.map_tail
    small := by
      have hsmall := h.small
      rw [List.length_tail]
      omega
    found := by
      rw [found_dequeue hexec]
      refine h.found_of_mem fun c hc ⟨thread, hfound⟩ => ?_
      have hne := hkept thread c.1 hfound
      cases cells with
      | nil => cases hc
      | cons d cells =>
        refine (List.mem_cons.1 hc).resolve_left fun heq => hne ?_
        rw [h.first, heq]
        rfl }

theorem getElem (h : q.Represents cells s) (thread : Nat) (cmp : α → Bool) {fuel : Nat}
    (hfuel : cells.length < fuel) :
    ∃ q', q.getElem thread cmp fuel = some q' ∧ q'.Represents cells
      { s with answers := Function.update s.answers thread (some (s.elems.find? cmp)) } := by
  have hnil : q.Shape ([] ++ cells) := h.toShape
  have hloop := hnil.getElemLoop cmp hfuel
  rw [← h.first] at hloop
  have hfind : s.elems.find? cmp = (cells.find? fun c => cmp c.2).map Prod.snd := by
    rw [← h.elems, LinkedList.elems, List.find?_map]
    rfl
  refine ⟨q.keep thread (some ((cells.find? fun c => cmp c.2).map Prod.fst)), ?_, ?_⟩
  · rw [Queue.getElem, hloop]
    rfl
  · exact {
      toShape := { h with }
      elems := h.elems
      small := h.small
      found := by
        intro t
        by_cases heq : t = thread
        · refine ⟨some (cells.find? fun c => cmp c.2), ?_, ?_, fun c hc => ?_⟩
          · rw [heq]
            exact Function.update_self ..
          · show Function.update _ _ _ t = _
            rw [heq, Function.update_self, hfind]
            rfl
          · exact List.mem_of_find?_eq_some (Option.some_inj.1 hc)
        · obtain ⟨w, hfound, hanswer, hmem⟩ := h.found t
          exact ⟨w, (Function.update_of_ne heq ..).trans hfound,
            (Function.update_of_ne heq ..).trans hanswer, hmem⟩ }

theorem getElemReturn (h : q.Represents cells s) {thread : Nat} (hfound : q.found thread ≠ none) :
    ∃ q', q.getElemReturn thread = some (q', (s.answers thread).join) ∧
      q'.Represents cells { s with answers := Function.update s.answers thread none } := by
  obtain ⟨w, hw, hanswer, hmem⟩ := h.found thread
  refine ⟨q.keep thread none, ?_, ?_⟩
  · rw [Queue.getElemReturn, hanswer, hw]
    cases w with
    | none => exact absurd hw hfound
    | some w =>
      cases w with
      | none => rfl
      | some c =>
        obtain ⟨as, bs, rfl⟩ := List.append_of_mem (hmem c rfl)
        have hnode : q.heap c.1 = some ⟨c.2, head bs⟩ := by
          rw [h.linked.lookup, Option.or_none]
        show (do let node ← q.heap c.1; some (_, some node.elem)) = _
        rw [hnode]
        rfl
  · exact {
      toShape := { h with }
      elems := h.elems
      small := h.small
      found := by
        intro t
        by_cases heq : t = thread
        · refine ⟨none, ?_, ?_, by rintro c ⟨⟩⟩
          · rw [heq]
            exact Function.update_self ..
          · rw [heq]
            exact Function.update_self ..
        · obtain ⟨w, hfound, hanswer, hmem⟩ := h.found t
          exact ⟨w, (Function.update_of_ne heq ..).trans hfound,
            (Function.update_of_ne heq ..).trans hanswer, hmem⟩ }

theorem removeElem (h : q.Represents cells s) {cmp : α → Bool} {fuel : Nat}
    (hfuel : cells.length < fuel)
    (hkept : ∀ thread node, q.found thread = some (some node) →
      q.getElemLoop cmp fuel q.first ≠ some (some node)) :
    ∃ q', q.removeElem cmp fuel = some q' ∧
      q'.Represents (cells.eraseP fun c => cmp c.2) { s with elems := s.elems.eraseP cmp } := by
  have hnil : q.Shape ([] ++ cells) := h.toShape
  have hloop := hnil.getElemLoop cmp hfuel
  obtain ⟨q', hexec, hshape⟩ := h.toShape.removeElem cmp hfuel
  rw [← h.first] at hloop
  refine ⟨q', hexec, ?_⟩
  exact {
    toShape := hshape
    elems := by
      rw [← h.elems]
      exact List.eraseP_map.symm
    small := Nat.lt_of_le_of_lt List.length_eraseP_le h.small
    found := by
      rw [found_removeElemLoop hexec]
      refine h.found_of_mem fun c hc ⟨thread, hfound⟩ => ?_
      refine Fifo.mem_eraseP_of_find?_ne hc fun y hfind hy => hkept thread c.1 hfound ?_
      rw [hloop, hfind, hy]
      rfl }

theorem getAllElems (h : q.Represents cells s) {fuel : Nat} (hfuel : cells.length < fuel) :
    q.getAllElems fuel = some (s.elems.map some) := by
  have hnil : q.Shape ([] ++ cells) := h.toShape
  have hcount : q.numElems.toNat = cells.length := by
    rw [h.count, int32_of_lt h.small, Int.toNat_natCast]
  have hexec := hnil.getAllElemsLoop 0 hfuel
  rw [List.length_nil, elems_nil, List.map_nil, List.nil_append, Nat.add_zero, ← h.first] at hexec
  rw [Queue.getAllElems, hcount, hexec, ← h.elems]
  exact congrArg some (List.append_nil _)

/-- What one operation does: what it does on the list. -/
theorem exec (h : q.Represents cells s) {op : Op α} {fuel : Nat} (hop : q.Permits op)
    (hkept : q.Undisturbed fuel op) (hfuel : cells.length < fuel) :
    ∃ q' cells', q.exec fuel op = some (q', (listStep s op).2) ∧
      q'.Represents cells' (listStep s op).1 := by
  cases op with
  | malloc node elem => exact ⟨_, cells, rfl, h.malloc hop elem⟩
  | enqueue node elem =>
    obtain ⟨q', hexec, hq'⟩ := h.enqueue hop hkept
    exact ⟨q', _, exec_enqueue hexec elem, hq'⟩
  | dequeue =>
    obtain ⟨q', hexec, hq'⟩ := h.dequeue hkept
    exact ⟨q', _, exec_dequeue hexec, hq'⟩
  | getElem thread cmp =>
    obtain ⟨q', hexec, hq'⟩ := h.getElem thread cmp hfuel
    refine ⟨q', cells, ?_, hq'⟩
    rw [Queue.exec, hexec]
    rfl
  | getElemReturn thread =>
    obtain ⟨q', hexec, hq'⟩ := h.getElemReturn hop
    refine ⟨q', cells, ?_, hq'⟩
    rw [Queue.exec, hexec]
    rfl
  | removeElem cmp =>
    obtain ⟨q', hexec, hq'⟩ := h.removeElem hfuel hkept
    exact ⟨q', _, exec_removeElem hexec, hq'⟩
  | numElems =>
    refine ⟨q, cells, ?_, h⟩
    rw [Queue.exec, h.count, int32_of_lt h.small, ← length_elems, h.elems]
    rfl
  | getAllElems =>
    refine ⟨q, cells, ?_, h⟩
    rw [Queue.exec, h.getAllElems hfuel]
    rfl

theorem length_listStep (s : ListQueue α) (op : Op α) :
    (listStep s op).1.elems.length ≤ s.elems.length + 1 := by
  cases op with
  | enqueue node elem => simp [listStep]
  | dequeue => simp [listStep]; omega
  | removeElem cmp => exact Nat.le_succ_of_le List.length_eraseP_le
  | _ => exact Nat.le_succ _

/-- A whole run does what it does on the list. Every operation adds at most one node, so fuel for
the nodes and the operations is enough. -/
theorem execAll (h : q.Represents cells s) {ops : List (Op α)} {fuel : Nat}
    (hops : q.Along Permits fuel ops) (hkept : q.Along (Undisturbed fuel) fuel ops)
    (hfuel : cells.length + ops.length < fuel) :
    ∃ q' cells', q.execAll fuel ops =
        some (q', (Mealy.trace listStep s ops).map (·.output)) ∧
      q'.Represents cells' (Mealy.final listStep s ops) := by
  induction ops generalizing q cells s with
  | nil => exact ⟨q, cells, rfl, h⟩
  | cons op ops ih =>
    rw [List.length_cons] at hfuel
    obtain ⟨q₁, cells₁, hexec, h₁⟩ := h.exec hops.1 hkept.1 (by omega : cells.length < fuel)
    have hlength : cells₁.length ≤ cells.length + 1 := by
      have hstep := length_listStep s op
      rwa [← h₁.elems, ← h.elems, length_elems, length_elems] at hstep
    obtain ⟨q₂, cells₂, hexecAll, h₂⟩ :=
      ih h₁ (hops.2 _ hexec) (hkept.2 _ hexec) (by omega)
    refine ⟨q₂, cells₂, ?_, h₂⟩
    rw [Queue.execAll, hexec]
    simp only [Option.bind_eq_bind, Option.bind_some, hexecAll]
    rfl

end Represents

/-- Whatever `last` holds, the operations do the same, and it stays what it is as long as the queue
stays empty: nobody follows it. -/
def LastUnused (q : Queue α) : Prop :=
  ∀ (fuel : Nat) (p : Option Nat) (op : Op α),
    ({ q with last := p } : Queue α).exec fuel op = (q.exec fuel op).map fun r =>
      (if r.1.first = none then { r.1 with last := p } else r.1, r.2)

/-- In an empty queue `last` may point to a node that is freed, or not to a queue node at all. -/
theorem lastUnused_of_first {q : Queue α} (hfirst : q.first = none) : q.LastUnused := by
  intro fuel p op
  cases op with
  | malloc node elem => simp [exec, malloc, hfirst]
  | enqueue node elem => simp [exec, enqueue, hfirst, count]
  | dequeue => simp [exec, dequeue, hfirst]
  | getElem thread cmp => cases fuel <;> simp [exec, getElem, getElemLoop, hfirst, keep]
  | getElemReturn thread =>
    simp only [exec, getElemReturn]
    cases q.found thread with
    | none => rfl
    | some found =>
      cases found with
      | none => simp [keep, hfirst]
      | some a => cases hnode : q.heap a <;> simp [keep, hfirst, hnode]
  | removeElem cmp => cases fuel <;> simp [exec, removeElem, removeElemLoop, hfirst]
  | numElems => simp [exec, hfirst]
  | getAllElems => cases fuel <;> simp [exec, getAllElems, getAllElemsLoop, hfirst]

end Queue

/-- A run in which no node is freed that a `get_elem` has found and not yet read, and in which the
`int` can count the elements: every operation returns what it returns on the list, and in the end
(so, the run being any, throughout) the chain from `first` is finite, holds the elements of the
list, has as many nodes as `num_elems` says and ends at `last`, which is not used while the chain is
empty. -/
theorem queue_refines (ops : List (Queue.Op α)) (fuel : Nat) (hfuel : ops.length < fuel)
    (hpermits : (initQueue : Queue α).Along Queue.Permits fuel ops)
    (hkept : (initQueue : Queue α).Along (Queue.Undisturbed fuel) fuel ops) :
    ∃ q cells, (initQueue : Queue α).execAll fuel ops = some (q, listResults ops) ∧
      q.Chain cells ∧ (addresses cells).Nodup ∧
      elems cells = (Mealy.final listStep initListQueue ops).elems ∧
      q.numElems = cells.length ∧ (cells = [] → q.LastUnused) := by
  obtain ⟨q, cells, hexec, h⟩ :=
    Queue.represents_initQueue.execAll hpermits hkept (by rwa [List.length_nil, Nat.zero_add])
  refine ⟨q, cells, hexec, h.toChain, (List.nodup_append.1 h.nodup).1, h.elems,
    h.count.trans (int32_of_lt h.small), ?_⟩
  rintro rfl
  exact Queue.lastUnused_of_first h.first

end

/-- Thread 0 looks for 8 and reads it after the 7 before it has left the queue. -/
def steadyRun : List (Queue.Op Nat) :=
  [.malloc 0 7, .enqueue 0 7, .malloc 1 8, .enqueue 1 8, .getElem 0 (· == 8), .dequeue,
    .getElemReturn 0, .numElems]

theorem queue_refines_steadyRun :
    ∃ q cells, (initQueue : Queue Nat).execAll 9 steadyRun = some (q, listResults steadyRun) ∧
      q.Chain cells ∧ (addresses cells).Nodup ∧
      elems cells = (Mealy.final listStep initListQueue steadyRun).elems ∧
      q.numElems = cells.length ∧ (cells = [] → q.LastUnused) := by
  refine queue_refines steadyRun 9 (by decide) ?_ ?_
  · decide
  · have hfirst : (initQueue : Queue Nat).numElems + 1 < 2 ^ 31 := by decide
    have hsecond : int32 ((initQueue : Queue Nat).numElems + 1) + 1 < 2 ^ 31 := by decide
    refine Queue.along_cons rfl trivial <| Queue.along_cons rfl hfirst <|
      Queue.along_cons rfl trivial <| Queue.along_cons rfl hsecond <|
      Queue.along_cons rfl trivial <| Queue.along_cons rfl ?_ <|
      Queue.along_cons rfl trivial <| Queue.along_cons rfl trivial trivial
    -- thread 0 holds node 1, and node 0 leaves
    intro thread node hfound
    by_cases heq : thread = 0
    · rw [heq] at hfound
      cases hfound
      decide
    · have hnone : some (some node) = none := hfound.symm.trans (Function.update_of_ne heq ..)
      cases hnone

/-- Thread 0 finds 7. Before it reads the element there, another thread takes the 7 out, and `malloc`
returns the freed node to a thread that is about to enqueue 8. -/
def reuseRun : List (Queue.Op Nat) :=
  [.malloc 0 7, .enqueue 0 7, .getElem 0 (· == 7), .dequeue, .malloc 0 8, .getElemReturn 0]

/-- It returns 8 for a 7. -/
theorem not_queue_refines_reuseRun :
    (initQueue : Queue Nat).Along Queue.Permits 7 reuseRun ∧
      ((initQueue : Queue Nat).execAll 7 reuseRun).map Prod.snd ≠ some (listResults reuseRun) := by
  decide

end GlfsNdmp
