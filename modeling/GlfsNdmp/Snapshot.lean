import GlfsNdmp.Lib.Lts
import GlfsNdmp.QueueRun

/-!
# A snapshot of the queue

`get_all_elems` counts the elements in one critical section, reads `hdr->first` in none, allocates
an array of as many pointers as it has counted, and follows the nodes in a second critical section.
What other threads do in between, they do to a queue that has been counted already, or to a node
that is already pointed at. Null pointers are no elements: `dequeue` and `get_elem` return them for
none.

`snapshot_exact_iff`: an interleaving of one call with `enqueue`, `dequeue` and `remove_elem` gives
an exact snapshot if and only if `first` is null only where nothing was counted, the node it points
to stays in the queue, and the queue has in the end as many elements as were counted.
-/

namespace GlfsNdmp

open LinkedList

variable {α : Type}

/-! ## One call among others -/

/-- The nodes that the loop of `get_all_elems` reads, each with the index it writes the element to.
From a node that was freed nobody knows where it goes. -/
def Queue.visits (q : Queue α) : Nat → Nat → Option Nat → List (Nat × Nat)
  | 0, _, _ => []
  | _ + 1, _, none => []
  | fuel + 1, i, some a =>
    (a, i) :: match q.heap a with
      | none => []
      | some node => q.visits fuel (i + 1) node.next

/-- The node is in the queue. -/
def Queue.Holds (q : Queue α) (a : Nat) : Prop := ∃ cells, q.Chain cells ∧ a ∈ addresses cells

namespace Snapshot

/-- How far the call has come, with its variables `n` and `node`. What it returns is `none` if the
loop has left the array or read a node that was freed. -/
inductive Pc (α : Type)
  | before
  | counted (n : Int)
  | pointed (n : Int) (node : Option Nat)
  | returned (retval : Option (List (Option α)))
  deriving DecidableEq

structure State (α : Type) where
  queue : Queue α
  pc : Pc α

/-- A new queue, and nothing called yet. -/
def start : State α := ⟨initQueue, .before⟩

/-- A step of another thread, or the next step of the call. -/
inductive Action (α : Type)
  | other (op : Queue.Op α)
  /-- `n = num_elems(hdr)`. -/
  | count
  /-- `node = hdr->first`. -/
  | point
  /-- `calloc`, and the critical section with the loop. -/
  | walk

def exec (fuel : Nat) (s : State α) : Action α → Option (State α)
  | .other op => (s.queue.exec fuel op).map fun r => { s with queue := r.1 }
  | .count =>
    match s.pc with
    | .before => some { s with pc := .counted s.queue.numElems }
    | _ => none
  | .point =>
    match s.pc with
    | .counted n => some { s with pc := .pointed n s.queue.first }
    | _ => none
  | .walk =>
    match s.pc with
    | .pointed n node =>
      let retval := List.replicate n.toNat none
      some { s with pc := .returned (s.queue.getAllElemsLoop fuel 0 retval node) }
    | _ => none

/-- Without other threads the three steps are `getAllElems`. -/
theorem execAll_alone (fuel : Nat) (q : Queue α) :
    Lts.execAll (exec fuel) ⟨q, .before⟩ [.count, .point, .walk] =
      some ⟨q, .returned (q.getAllElems fuel)⟩ := rfl

/-- The operations the other threads do, with the two halves of `enqueue`. -/
def Updates : Queue.Op α → Prop
  | .malloc _ _ | .enqueue _ _ | .dequeue | .removeElem _ => True
  | _ => False

instance : DecidablePred (Updates : Queue.Op α → Prop)
  | .malloc _ _ | .enqueue _ _ | .dequeue | .removeElem _ => isTrue trivial
  | .getElem _ _ | .getElemReturn _ | .numElems | .getAllElems => isFalse id

/-- The other threads use the queue as they should. -/
def Allowed (s : State α) : Action α → Prop
  | .other op => Updates op ∧ s.queue.Permits op
  | _ => True

instance [DecidableEq α] (s : State α) : DecidablePred (Allowed s)
  | .other op => inferInstanceAs (Decidable (Updates op ∧ s.queue.Permits op))
  | .count | .point | .walk => isTrue trivial

/-- The operations of the other threads. -/
def operations (as : List (Action α)) : List (Queue.Op α) :=
  as.filterMap fun
    | .other op => some op
    | _ => none

theorem operations_append (as bs : List (Action α)) :
    operations (as ++ bs) = operations as ++ operations bs :=
  List.filterMap_append

/-! ## What makes a snapshot exact -/

/-- The queue, at each instant of the call. -/
def instant (s : State α) (_ : Action α) : List (Queue α) :=
  match s.pc with
  | .counted _ | .pointed _ _ => [s.queue]
  | _ => []

/-- A node the call has a pointer to, at each instant at which it has one. -/
def held (fuel : Nat) (s : State α) (a : Action α) : List (Queue α × Nat) :=
  match s.pc, a with
  | .pointed _ node, .walk => (s.queue.visits fuel 0 node).map fun v => (s.queue, v.1)
  | .pointed _ (some node), _ => [(s.queue, node)]
  | _, _ => []

/-- An index that is written to, and the length of the array. -/
def written (fuel : Nat) (s : State α) (a : Action α) : List (Nat × Nat) :=
  match s.pc, a with
  | .pointed n node, .walk => (s.queue.visits fuel 0 node).map fun v => (v.2, n.toNat)
  | _, _ => []

def instants (fuel : Nat) (as : List (Action α)) : List (Queue α) :=
  Lts.log (exec fuel) instant start as

def pointers (fuel : Nat) (as : List (Action α)) : List (Queue α × Nat) :=
  Lts.log (exec fuel) (held fuel) start as

def writes (fuel : Nat) (as : List (Action α)) : List (Nat × Nat) :=
  Lts.log (exec fuel) (written fuel) start as

/-- Nothing is written behind the array, whatever the call points to is in the queue as long as it
points to it, and what it returns are the elements at an instant of the call. A node that is freed
and comes back with new contents was not in the queue in between. -/
structure Exact (fuel : Nat) (as : List (Action α)) (retval : Option (List (Option α))) : Prop where
  inside : ∀ w ∈ writes fuel as, w.1 < w.2
  queued : ∀ h ∈ pointers fuel as, h.1.Holds h.2
  atInstant : ∃ q ∈ instants fuel as, ∃ cells, q.Chain cells ∧
    retval = some ((elems cells).map some)

/-- A step that spares the snapshot. `first` is null only where nothing was counted, the node it
points to, which is the one that `dequeue` takes, is not taken out, and in the end there are as many
nodes as were counted. -/
def Spares (s : State α) (a : Action α) : Prop :=
  match s.pc, a with
  | .counted n, .point => s.queue.first = none → n ≤ 0
  | .pointed _ (some _), .other .dequeue => False
  | .pointed _ (some node), .other (.removeElem cmp) =>
    ∀ c ∈ s.queue.heap node, cmp c.elem = false
  | .pointed n (some _), .walk => ∃ cells, s.queue.Chain cells ∧ n = cells.length
  | _, _ => True

/-! ## The other threads -/

/-- The cells after an operation. -/
def cellsAfter (cells : List (Nat × α)) : Queue.Op α → List (Nat × α)
  | .enqueue node elem => cells ++ [(node, elem)]
  | .dequeue => cells.tail
  | .removeElem cmp => cells.eraseP fun c => cmp c.2
  | _ => cells

section

variable {q q' : Queue α} {cells : List (Nat × α)} {op : Queue.Op α} {fuel : Nat}

theorem length_cellsAfter (cells : List (Nat × α)) (op : Queue.Op α) :
    (cellsAfter cells op).length ≤ cells.length + 1 := by
  cases op with
  | enqueue node elem => simp [cellsAfter]
  | dequeue =>
    rw [cellsAfter, List.length_tail]
    omega
  | removeElem cmp => exact Nat.le_succ_of_le List.length_eraseP_le
  | _ => exact Nat.le_succ _

/-- The elements are those of the list. -/
theorem elems_cellsAfter {s : ListQueue α} (h : elems cells = s.elems) (op : Queue.Op α) :
    elems (cellsAfter cells op) = (listStep s op).1.elems := by
  cases op with
  | enqueue node elem =>
    rw [cellsAfter, elems_append, h]
    rfl
  | dequeue =>
    rw [cellsAfter, listStep, ← h]
    exact List.map_tail
  | removeElem cmp =>
    rw [cellsAfter, listStep, ← h]
    exact List.eraseP_map.symm
  | _ => exact h

/-- An operation goes through, and keeps the shape. -/
theorem shape_exec (h : q.Shape cells) (hop : Updates op) (hpermits : q.Permits op)
    (hfuel : cells.length < fuel) :
    ∃ q' r, q.exec fuel op = some (q', r) ∧ q'.Shape (cellsAfter cells op) := by
  cases op with
  | malloc node elem => exact ⟨_, _, rfl, h.malloc hpermits elem⟩
  | enqueue node elem =>
    obtain ⟨q', hexec, hq'⟩ := h.enqueue hpermits
    exact ⟨q', _, Queue.exec_enqueue hexec elem, hq'⟩
  | dequeue =>
    obtain ⟨q', hexec, hq'⟩ := h.dequeue
    exact ⟨q', _, Queue.exec_dequeue hexec, hq'⟩
  | removeElem cmp =>
    obtain ⟨q', hexec, hq'⟩ := h.removeElem cmp hfuel
    exact ⟨q', _, Queue.exec_removeElem hexec, hq'⟩
  | _ => exact hop.elim

theorem shape_of_exec {r : Queue.Result α} (h : q.Shape cells) (hop : Updates op)
    (hpermits : q.Permits op) (hfuel : cells.length < fuel)
    (hexec : q.exec fuel op = some (q', r)) : q'.Shape (cellsAfter cells op) := by
  obtain ⟨q'', r', hexec', hshape⟩ := shape_exec h hop hpermits hfuel
  rw [hexec, Option.some_inj, Prod.mk.injEq] at hexec'
  rwa [hexec'.1]

theorem holds_iff (h : q.Chain cells) (a : Nat) : q.Holds a ↔ a ∈ addresses cells := by
  constructor
  · intro ⟨cells', hchain, ha⟩
    rwa [h.unique hchain]
  · intro ha
    exact ⟨cells, h, ha⟩

theorem not_holds_of_first (hfirst : q.first = none) {a : Nat} : ¬ q.Holds a := by
  intro ⟨cells, hchain, ha⟩
  rw [hchain.first] at hfirst
  cases cells with
  | nil => cases ha
  | cons c cells => cases hfirst

/-- An operation spares the first node and leaves it where it is, or takes it out. -/
theorem cellsAfter_cons {a : Nat} {e : α} (n : Int) (h : q.Shape ((a, e) :: cells))
    (hop : Updates op) :
    (Spares ⟨q, .pointed n (some a)⟩ (.other op) ∧
        ∃ rest, cellsAfter ((a, e) :: cells) op = (a, e) :: rest) ∨
      (¬ Spares ⟨q, .pointed n (some a)⟩ (.other op) ∧
        cellsAfter ((a, e) :: cells) op = cells) := by
  cases op with
  | malloc node elem => exact .inl ⟨trivial, cells, rfl⟩
  | enqueue node elem => exact .inl ⟨trivial, cells ++ [(node, elem)], rfl⟩
  | dequeue => exact .inr ⟨id, rfl⟩
  | removeElem cmp =>
    have hnode : q.heap a = some ⟨e, head cells⟩ :=
      Queue.Shape.node (show q.Shape ([] ++ (a, e) :: cells) from h)
    have hspares : Spares ⟨q, .pointed n (some a)⟩ (.other (.removeElem cmp)) ↔ cmp e = false := by
      show (∀ c ∈ q.heap a, cmp c.elem = false) ↔ _
      rw [hnode]
      simp
    rw [hspares, cellsAfter, List.eraseP_cons]
    cases cmp e with
    | false => exact .inl ⟨rfl, _, rfl⟩
    | true => exact .inr ⟨Bool.noConfusion, rfl⟩
  | _ => exact hop.elim

theorem first_cell {a : Nat} (h : q.Shape cells) (hfirst : q.first = some a) :
    ∃ e rest, cells = (a, e) :: rest := by
  rw [h.first] at hfirst
  cases cells with
  | nil => cases hfirst
  | cons c cells =>
    have hc : c.1 = a := Option.some.inj hfirst
    exact ⟨c.2, cells, by rw [← hc]⟩

/-- The first node stays in the queue if the operation spares it, and then it stays the first. -/
theorem holds_after {a : Nat} {e : α} {r : Queue.Result α} (n : Int)
    (h : q.Shape ((a, e) :: cells)) (hop : Updates op) (hpermits : q.Permits op)
    (hfuel : ((a, e) :: cells).length < fuel) (hexec : q.exec fuel op = some (q', r)) :
    (Spares ⟨q, .pointed n (some a)⟩ (.other op) ↔ q'.Holds a) ∧
      (q'.Holds a → q'.first = some a) := by
  have hshape := shape_of_exec h hop hpermits hfuel hexec
  rw [holds_iff hshape.toChain, hshape.first]
  rcases cellsAfter_cons n h hop with ⟨hspares, rest, heq⟩ | ⟨hspares, heq⟩
  · rw [heq]
    exact ⟨iff_of_true hspares List.mem_cons_self, fun _ => rfl⟩
  · have hnot : a ∉ addresses cells := (List.nodup_cons.1 (List.nodup_append.1 h.nodup).1).1
    rw [heq]
    exact ⟨iff_of_false hspares hnot, fun hin => absurd hin hnot⟩

end

/-! ## The walk -/

section

variable {q : Queue α} {cells : List (Nat × α)} {fuel : Nat}

/-- From some node on, the loop reads the nodes in their order. -/
theorem visits_of_shape {as bs : List (Nat × α)} (h : q.Shape (as ++ bs)) (i : Nat)
    (hfuel : bs.length < fuel) : q.visits fuel i (head bs) = (addresses bs).zipIdx i := by
  refine h.loop (motive := fun _ bs fuel =>
    ∀ i, q.visits fuel i (head bs) = (addresses bs).zipIdx i) hfuel (fun _ _ _ _ => rfl) ?_ i
  intro as c bs fuel h hnode ih i
  rw [head_cons, Queue.visits, hnode]
  show (c.1, i) :: q.visits fuel (i + 1) (head bs) = _
  rw [ih (i + 1), addresses_cons, List.zipIdx_cons]

/-- From the first node on, the loop reads all of them, and leaves null pointers behind them. -/
theorem walk_of_first {a n : Nat} (h : q.Shape cells) (hfirst : q.first = some a)
    (hfuel : cells.length < fuel) :
    q.visits fuel 0 (some a) = (addresses cells).zipIdx ∧
      (cells.length ≤ n → q.getAllElemsLoop fuel 0 (List.replicate n none) (some a) =
        some ((elems cells).map some ++ List.replicate (n - cells.length) none)) := by
  have hnil : q.Shape ([] ++ cells) := h
  rw [← hfirst, h.first]
  refine ⟨visits_of_shape hnil 0 hfuel, fun hle => ?_⟩
  have hloop := hnil.getAllElemsLoop (n - cells.length) hfuel
  rwa [Nat.add_sub_cancel' hle] at hloop

/-- The indices are below a bound if there are not more nodes than that. -/
theorem written_inside_iff (l : List Nat) (n : Nat) :
    (∀ w ∈ l.zipIdx.map fun v => (v.2, n), w.1 < w.2) ↔ l.length ≤ n := by
  constructor
  · intro h
    by_contra hlt
    rw [Nat.not_le] at hlt
    have hin : (l[n], n) ∈ l.zipIdx :=
      List.mk_mem_zipIdx_iff_getElem?.2 (List.getElem?_eq_getElem hlt)
    exact Nat.lt_irrefl n (h (n, n) (List.mem_map.2 ⟨_, hin, rfl⟩))
  · intro hle w hw
    obtain ⟨v, hv, rfl⟩ := List.mem_map.1 hw
    exact Nat.lt_of_lt_of_le (List.snd_lt_of_mem_zipIdx hv) hle

/-- A null pointer is no element. -/
theorem eq_zero_of_elems {l l' : List α} {k : Nat}
    (h : l.map some ++ List.replicate k none = l'.map some) : k = 0 := by
  by_contra hk
  have hin : none ∈ l'.map some := h ▸ List.mem_append_right _ (List.mem_replicate.2 ⟨hk, rfl⟩)
  obtain ⟨e, -, he⟩ := List.mem_map.1 hin
  cases he

end

/-! ## Runs -/

/-- A run whose steps all spare the snapshot. -/
def Spared (fuel : Nat) (as : List (Action α)) (s : State α) : Prop :=
  Lts.Run (exec fuel) (fun t a => Allowed t a ∧ Spares t a) start as s

/-- Where a run has brought the call. Until `first` is read there is nothing to spare; from then on
either nothing is pointed to, or the node that is. -/
def Stands (fuel : Nat) (as : List (Action α)) (s : State α) : Prop :=
  match s.pc with
  | .before | .counted _ => Spared fuel as s ∧ pointers fuel as = [] ∧ writes fuel as = []
  | .pointed n none =>
    (Spared fuel as s ↔ n ≤ 0) ∧ pointers fuel as = [] ∧ writes fuel as = [] ∧
      ∃ q ∈ instants fuel as, q.Chain []
  | .pointed _ (some a) =>
    (Spared fuel as s ↔ (∀ h ∈ pointers fuel as, h.1.Holds h.2) ∧ s.queue.Holds a) ∧
      (Spared fuel as s → s.queue.first = some a) ∧ writes fuel as = []
  | .returned retval => Exact fuel as retval ↔ Spared fuel as s

section

variable {fuel : Nat} {as : List (Action α)} {s t : State α} {a : Action α}

theorem stands_start : Stands fuel [] (start : State α) := ⟨.nil _, rfl, rfl⟩

/-- The chain of nodes keeps its shape, grows by at most one node with every step, and holds what
the operations of the other threads make of a list. -/
theorem shape_of_run (run : Lts.Run (exec fuel) Allowed start as s) (hfuel : as.length < fuel) :
    ∃ cells, s.queue.Shape cells ∧ cells.length ≤ as.length ∧
      elems cells = (Mealy.final listStep initListQueue (operations as)).elems := by
  induction run with
  | nil => exact ⟨[], Queue.shape_initQueue, Nat.le_refl 0, rfl⟩
  | @concat t u as a run hok hexec ih =>
    rw [List.length_append, List.length_singleton] at hfuel ⊢
    obtain ⟨cells, hshape, hlength, helems⟩ := ih (by omega)
    rw [operations_append]
    cases a with
    | other op =>
      obtain ⟨⟨q, r⟩, hop, rfl⟩ := Option.map_eq_some_iff.1 hexec
      have hcells := length_cellsAfter cells op
      refine ⟨_, shape_of_exec hshape hok.1 hok.2 (by omega) hop, by omega, ?_⟩
      rw [Mealy.final_append]
      exact elems_cellsAfter helems op
    | count | point | walk =>
      have hqueue : u.queue = t.queue := by
        simp only [exec] at hexec
        split at hexec
        · rw [← Option.some.inj hexec]
        · cases hexec
      rw [hqueue]
      exact ⟨cells, hshape, by omega, helems.trans (by rw [Mealy.final_append]; rfl)⟩

theorem spared_concat (run : Lts.Run (exec fuel) Allowed start as s) (hok : Allowed s a)
    (hexec : exec fuel s a = some t) :
    Spared fuel (as ++ [a]) t ↔ Spared fuel as s ∧ Spares s a :=
  (run.concat_iff hexec).trans (and_congr_right fun _ => and_iff_right hok)

theorem pointers_concat (run : Lts.Run (exec fuel) Allowed start as s) (a : Action α) :
    pointers fuel (as ++ [a]) = pointers fuel as ++ held fuel s a :=
  run.log_concat a

theorem writes_concat (run : Lts.Run (exec fuel) Allowed start as s) (a : Action α) :
    writes fuel (as ++ [a]) = writes fuel as ++ written fuel s a :=
  run.log_concat a

theorem instants_concat (run : Lts.Run (exec fuel) Allowed start as s) (a : Action α) :
    instants fuel (as ++ [a]) = instants fuel as ++ instant s a :=
  run.log_concat a

/-- A step that does nothing with pointers. -/
theorem pointers_same (run : Lts.Run (exec fuel) Allowed start as s) (h : held fuel s a = []) :
    pointers fuel (as ++ [a]) = pointers fuel as := by
  rw [pointers_concat run, h, List.append_nil]

/-- A step that writes nothing. -/
theorem writes_same (run : Lts.Run (exec fuel) Allowed start as s) (h : written fuel s a = []) :
    writes fuel (as ++ [a]) = writes fuel as := by
  rw [writes_concat run, h, List.append_nil]

theorem written_other (fuel : Nat) (s : State α) (op : Queue.Op α) :
    written fuel s (.other op) = [] := by
  unfold written
  split
  · contradiction
  · rfl

theorem exact_congr {as' : List (Action α)} {retval : Option (List (Option α))}
    (hwrites : writes fuel as' = writes fuel as) (hpointers : pointers fuel as' = pointers fuel as)
    (hinstants : instants fuel as' = instants fuel as) :
    Exact fuel as' retval ↔ Exact fuel as retval := by
  constructor
  · intro h
    exact ⟨hwrites ▸ h.inside, hpointers ▸ h.queued, hinstants ▸ h.atInstant⟩
  · intro h
    exact ⟨hwrites ▸ h.inside, hpointers ▸ h.queued, hinstants ▸ h.atInstant⟩

/-- As long as the node that is pointed to is the first one, another thread spares the snapshot if
and only if it leaves the node in the queue. -/
theorem holds_of_other {q q' : Queue α} {n : Int} {b : Nat} {op : Queue.Op α} {r : Queue.Result α}
    (run : Lts.Run (exec fuel) Allowed start as ⟨q, .pointed n (some b)⟩) (hfuel : as.length < fuel)
    (hok : Allowed ⟨q, .pointed n (some b)⟩ (.other op)) (hop : q.exec fuel op = some (q', r))
    (hfirst : q.first = some b) :
    (Spares ⟨q, .pointed n (some b)⟩ (.other op) ↔ q'.Holds b) ∧
      (q'.Holds b → q'.first = some b) := by
  obtain ⟨cells, hshape, hlength, -⟩ := shape_of_run run hfuel
  obtain ⟨e, rest, rfl⟩ := first_cell hshape hfirst
  exact holds_after n hshape hok.1 hok.2 (by omega) hop

/-- A step of another thread. -/
theorem stands_other {q q' : Queue α} {pc : Pc α} {op : Queue.Op α} {r : Queue.Result α}
    (run : Lts.Run (exec fuel) Allowed start as ⟨q, pc⟩) (hfuel : as.length < fuel)
    (hok : Allowed ⟨q, pc⟩ (.other op)) (hop : q.exec fuel op = some (q', r))
    (h : Stands fuel as ⟨q, pc⟩) : Stands fuel (as ++ [.other op]) ⟨q', pc⟩ := by
  have hexec : exec fuel ⟨q, pc⟩ (.other op) = some ⟨q', pc⟩ := by
    rw [exec, hop]
    rfl
  have hspared := spared_concat run hok hexec
  have hwrites := writes_same run (written_other fuel _ op)
  cases pc with
  | before | counted n =>
    obtain ⟨hs, hp, hw⟩ := h
    exact ⟨hspared.2 ⟨hs, trivial⟩, (pointers_same run rfl).trans hp, hwrites.trans hw⟩
  | pointed n node =>
    cases node with
    | none =>
      obtain ⟨hs, hp, hw, q₁, hq₁, hchain⟩ := h
      refine ⟨hspared.trans ((and_iff_left trivial).trans hs), (pointers_same run rfl).trans hp,
        hwrites.trans hw, q₁, ?_, hchain⟩
      rw [instants_concat run]
      exact List.mem_append_left _ hq₁
    | some b =>
      obtain ⟨hs, hfirst, hw⟩ := h
      have hholds : Spared fuel (as ++ [.other op]) ⟨q', .pointed n (some b)⟩ ↔
          Spared fuel as ⟨q, .pointed n (some b)⟩ ∧ q'.Holds b :=
        hspared.trans (and_congr_right fun hsp =>
          (holds_of_other run hfuel hok hop (hfirst hsp)).1)
      refine ⟨?_, fun hsp => ?_, hwrites.trans hw⟩
      · have hheld : held fuel ⟨q, .pointed n (some b)⟩ (.other op) = [(q, b)] := rfl
        rw [hholds, hs, pointers_concat run, hheld, List.forall_mem_append,
          List.forall_mem_singleton]
      · obtain ⟨hsp, hb⟩ := hholds.1 hsp
        exact (holds_of_other run hfuel hok hop (hfirst hsp)).2 hb
  | returned retval =>
    have hsame : Exact fuel (as ++ [.other op]) retval ↔ Exact fuel as retval :=
      exact_congr hwrites (pointers_same run rfl)
        ((instants_concat run _).trans (List.append_nil _))
    exact hsame.trans (h.trans ((and_iff_left trivial).symm.trans hspared.symm))

theorem stands_count {q : Queue α} (run : Lts.Run (exec fuel) Allowed start as ⟨q, .before⟩)
    (h : Stands fuel as ⟨q, .before⟩) :
    Stands fuel (as ++ [.count]) ⟨q, .counted q.numElems⟩ := by
  obtain ⟨hs, hp, hw⟩ := h
  exact ⟨(spared_concat run (a := .count) trivial rfl).2 ⟨hs, trivial⟩,
    (pointers_same run rfl).trans hp, (writes_same run rfl).trans hw⟩

/-- `first` is read, and points to a node of the queue if it points to one. -/
theorem stands_point {q : Queue α} {n : Int}
    (run : Lts.Run (exec fuel) Allowed start as ⟨q, .counted n⟩) (hfuel : as.length < fuel)
    (h : Stands fuel as ⟨q, .counted n⟩) :
    Stands fuel (as ++ [.point]) ⟨q, .pointed n q.first⟩ := by
  obtain ⟨hs, hp, hw⟩ := h
  have hspared : Spared fuel (as ++ [.point]) ⟨q, .pointed n q.first⟩ ↔
      (q.first = none → n ≤ 0) :=
    (spared_concat run (a := .point) trivial rfl).trans (and_iff_right hs)
  have hpointers := (pointers_same run (a := .point) rfl).trans hp
  have hwrites := (writes_same run (a := .point) rfl).trans hw
  cases hfirst : q.first with
  | none =>
    rw [hfirst] at hspared
    refine ⟨hspared.trans (imp_iff_right rfl), hpointers, hwrites, q, ?_, ?_⟩
    · rw [instants_concat run]
      exact List.mem_append_right _ List.mem_cons_self
    · exact ⟨hfirst, trivial, by rintro c ⟨⟩⟩
  | some b =>
    obtain ⟨cells, hshape, -, -⟩ := shape_of_run run hfuel
    obtain ⟨e, rest, rfl⟩ := first_cell hshape hfirst
    rw [hfirst] at hspared
    refine ⟨?_, fun _ => hfirst, hwrites⟩
    rw [hspared, hpointers, holds_iff hshape.toChain]
    simp

/-- Nothing is pointed to: all that is returned are the null pointers of `calloc`. -/
theorem stands_walk_null {q : Queue α} {n : Int}
    (run : Lts.Run (exec fuel) Allowed start as ⟨q, .pointed n none⟩) (hfuel : as.length < fuel)
    (h : Stands fuel as ⟨q, .pointed n none⟩) :
    Exact fuel (as ++ [.walk])
        (q.getAllElemsLoop fuel 0 (List.replicate n.toNat none) none) ↔ n ≤ 0 := by
  obtain ⟨-, hp, hw, q₁, hq₁, hchain⟩ := h
  obtain ⟨fuel, rfl⟩ := Nat.exists_eq_add_of_lt hfuel
  rw [← Int.toNat_eq_zero]
  constructor
  · intro hexact
    obtain ⟨q₂, -, cells, -, heq⟩ := hexact.atInstant
    exact eq_zero_of_elems (l := []) (Option.some.inj heq)
  · intro hn
    exact {
      inside := by
        rw [writes_same run rfl, hw]
        rintro w ⟨⟩
      queued := by
        rw [pointers_same run rfl, hp]
        rintro p ⟨⟩
      atInstant := by
        refine ⟨q₁, ?_, [], hchain, by rw [hn]; rfl⟩
        rw [instants_concat run]
        exact List.mem_append_left _ hq₁ }

theorem pointers_walk {q : Queue α} {n : Int} {node : Option Nat}
    (run : Lts.Run (exec fuel) Allowed start as ⟨q, .pointed n node⟩) :
    pointers fuel (as ++ [.walk]) =
      pointers fuel as ++ (q.visits fuel 0 node).map fun v => (q, v.1) :=
  pointers_concat run .walk

theorem writes_walk {q : Queue α} {n : Int} {node : Option Nat}
    (run : Lts.Run (exec fuel) Allowed start as ⟨q, .pointed n node⟩) :
    writes fuel (as ++ [.walk]) =
      writes fuel as ++ (q.visits fuel 0 node).map fun v => (v.2, n.toNat) :=
  writes_concat run .walk

/-- The walk reads the node it was pointed to before anything else. -/
theorem queued_of_walk {q : Queue α} {n : Int} {b : Nat}
    (run : Lts.Run (exec fuel) Allowed start as ⟨q, .pointed n (some b)⟩) (hfuel : as.length < fuel)
    (hqueued : ∀ h ∈ pointers fuel (as ++ [.walk]), h.1.Holds h.2) :
    (∀ h ∈ pointers fuel as, h.1.Holds h.2) ∧ q.Holds b := by
  rw [pointers_walk run, List.forall_mem_append] at hqueued
  refine ⟨hqueued.1, hqueued.2 (q, b) ?_⟩
  obtain ⟨fuel, rfl⟩ := Nat.exists_eq_add_of_lt hfuel
  exact List.mem_cons_self

/-- A node is pointed to: if it is still there, so are the ones behind it. -/
theorem stands_walk_first {q : Queue α} {n : Int} {b : Nat}
    (run : Lts.Run (exec fuel) Allowed start as ⟨q, .pointed n (some b)⟩) (hfuel : as.length < fuel)
    (h : Stands fuel as ⟨q, .pointed n (some b)⟩) :
    Exact fuel (as ++ [.walk])
        (q.getAllElemsLoop fuel 0 (List.replicate n.toNat none) (some b)) ↔
      Spared fuel as ⟨q, .pointed n (some b)⟩ ∧ ∃ cells, q.Chain cells ∧ n = cells.length := by
  obtain ⟨hs, hfirst, hw⟩ := h
  obtain ⟨cells, hshape, hlength, -⟩ := shape_of_run run hfuel
  have hcells : cells.length < fuel := Nat.lt_of_le_of_lt hlength hfuel
  have hwrites := writes_walk run
  rw [hw, List.nil_append] at hwrites
  constructor
  · intro hexact
    have hspared := hs.2 (queued_of_walk run hfuel hexact.queued)
    obtain ⟨hvisits, hloop⟩ := walk_of_first (n := n.toNat) hshape (hfirst hspared) hcells
    -- All nodes are visited, so there are not more of them than the array has room for.
    have hle : cells.length ≤ n.toNat := by
      have hinside := hexact.inside
      rwa [hwrites, hvisits, written_inside_iff, length_addresses] at hinside
    -- Behind them there is no room, or the array would hold null pointers.
    have hgap : n.toNat - cells.length = 0 := by
      obtain ⟨q', -, cells', -, heq⟩ := hexact.atInstant
      rw [hloop hle, Option.some_inj] at heq
      exact eq_zero_of_elems heq
    obtain ⟨e, rest, rfl⟩ := first_cell hshape (hfirst hspared)
    refine ⟨hspared, _, hshape.toChain, ?_⟩
    rw [List.length_cons] at hle hgap ⊢
    omega
  · intro ⟨hspared, cells', hchain, hn⟩
    obtain ⟨hvisits, hloop⟩ := walk_of_first (n := n.toNat) hshape (hfirst hspared) hcells
    have hlen : n.toNat = cells.length := by
      rw [hn, hchain.unique hshape.toChain, Int.toNat_natCast]
    have hloop := hloop (Nat.le_of_eq hlen.symm)
    rw [hlen, Nat.sub_self, List.replicate_zero, List.append_nil] at hloop
    exact {
      inside := by
        rw [hwrites, hvisits, written_inside_iff, length_addresses]
        exact Nat.le_of_eq hlen.symm
      queued := by
        rw [pointers_walk run, hvisits, List.forall_mem_append]
        refine ⟨(hs.1 hspared).1, fun p hp => ?_⟩
        obtain ⟨v, hv, rfl⟩ := List.mem_map.1 hp
        exact ⟨cells, hshape.toChain, List.fst_mem_of_mem_zipIdx hv⟩
      atInstant := by
        refine ⟨q, ?_, cells, hshape.toChain, ?_⟩
        · rw [instants_concat run]
          exact List.mem_append_right _ List.mem_cons_self
        · rw [hlen, hloop] }

/-- The walk. -/
theorem stands_walk {q : Queue α} {n : Int} {node : Option Nat}
    (run : Lts.Run (exec fuel) Allowed start as ⟨q, .pointed n node⟩) (hfuel : as.length < fuel)
    (h : Stands fuel as ⟨q, .pointed n node⟩) :
    Stands fuel (as ++ [.walk])
      ⟨q, .returned (q.getAllElemsLoop fuel 0 (List.replicate n.toNat none) node)⟩ := by
  have hspared := spared_concat run (a := .walk) trivial rfl
  cases node with
  | none =>
    have hsame : Spared fuel (as ++ [.walk]) _ ↔ n ≤ 0 :=
      hspared.trans ((and_iff_left trivial).trans h.1)
    exact (stands_walk_null run hfuel h).trans hsame.symm
  | some a => exact (stands_walk_first run hfuel h).trans hspared.symm

/-- Every run stands somewhere. -/
theorem stands_of_run (run : Lts.Run (exec fuel) Allowed start as s) (hfuel : as.length < fuel) :
    Stands fuel as s := by
  induction run with
  | nil => exact stands_start
  | @concat t u as a run hok hexec ih =>
    have hfuel' : as.length < fuel := by
      rw [List.length_append] at hfuel
      omega
    have h := ih hfuel'
    obtain ⟨q, pc⟩ := t
    cases a with
    | other op =>
      obtain ⟨⟨q', r⟩, hop, rfl⟩ := Option.map_eq_some_iff.1 hexec
      exact stands_other run hfuel' hok hop h
    | count =>
      cases pc with
      | before =>
        cases hexec
        exact stands_count run h
      | _ => cases hexec
    | point =>
      cases pc with
      | counted n =>
        cases hexec
        exact stands_point run hfuel' h
      | _ => cases hexec
    | walk =>
      cases pc with
      | pointed n node =>
        cases hexec
        exact stands_walk run hfuel' h
      | _ => cases hexec

/-- Nobody is held up: whatever the other threads may do goes through. -/
theorem exists_exec (run : Lts.Run (exec fuel) Allowed start as s) (hfuel : as.length < fuel)
    {op : Queue.Op α} (hok : Allowed s (.other op)) : ∃ t, exec fuel s (.other op) = some t := by
  obtain ⟨cells, hshape, hlength, -⟩ := shape_of_run run hfuel
  obtain ⟨q, r, hop, -⟩ := shape_exec hshape hok.1 hok.2 (by omega : cells.length < fuel)
  refine ⟨{ s with queue := q }, ?_⟩
  rw [exec, hop]
  rfl

/-- **What it takes to get a snapshot.** In any interleaving of one `get_all_elems` with the
operations of other threads, the call writes inside its array, points to nodes of the queue only and
returns the elements at an instant of the call if and only if every step spares it: `first` is not
read as a null pointer unless nothing was counted, the node it points to is not taken out before the
walk, and at the walk the queue has as many nodes as were counted. -/
theorem snapshot_exact_iff {retval : Option (List (Option α))}
    (run : Lts.Run (exec fuel) Allowed start as s) (hfuel : as.length < fuel)
    (hreturned : s.pc = .returned retval) :
    Exact fuel as retval ↔
      Lts.Run (exec fuel) (fun t a => Allowed t a ∧ Spares t a) start as s := by
  obtain ⟨q, pc⟩ := s
  cases hreturned
  exact stands_of_run run hfuel

end

/-- Between the count and the read of `first`, 8 is put in and 7 is taken out. -/
def balancedRun : List (Action Nat) :=
  [.other (.malloc 0 7), .other (.enqueue 0 7), .other (.malloc 1 8), .count,
    .other (.enqueue 1 8), .other .dequeue, .point, .walk]

theorem snapshot_exact_balancedRun : Exact 9 balancedRun (some [some 8]) := by
  obtain ⟨s, run, hreturned⟩ : ∃ s, Lts.Run (exec 9) (fun t a => Allowed t a ∧ Spares t a) start
      balancedRun s ∧ s.pc = .returned (some [some 8]) := by
    refine ⟨_, .cons ⟨⟨trivial, rfl⟩, trivial⟩ rfl <|
      .cons ⟨⟨trivial, List.mem_cons_self⟩, trivial⟩ rfl <|
      .cons ⟨⟨trivial, rfl⟩, trivial⟩ rfl <| .cons ⟨trivial, trivial⟩ rfl <|
      .cons ⟨⟨trivial, List.mem_cons_self⟩, trivial⟩ rfl <|
      .cons ⟨⟨trivial, trivial⟩, trivial⟩ rfl <| .cons ⟨trivial, nofun⟩ rfl <|
      .cons ⟨trivial, [(1, 8)], ⟨rfl, ⟨rfl, trivial⟩, ?_⟩, rfl⟩ rfl <| .nil _, rfl⟩
    rintro c ⟨⟩
    rfl
  exact (snapshot_exact_iff (run.mono fun _ _ h => h.1) (by decide) hreturned).2 run

/-- 8 is put in after the count. -/
def crowdedRun : List (Action Nat) :=
  [.other (.malloc 0 7), .other (.enqueue 0 7), .count, .other (.malloc 1 8),
    .other (.enqueue 1 8), .point, .walk]

/-- 7 is taken out after `first` was read. -/
def freedRun : List (Action Nat) :=
  [.other (.malloc 0 7), .other (.enqueue 0 7), .count, .point, .other .dequeue, .walk]

/-- 7 is taken out before `first` is read. -/
def emptiedRun : List (Action Nat) :=
  [.other (.malloc 0 7), .other (.enqueue 0 7), .count, .other .dequeue, .point, .walk]

/-- The first run writes behind the array, the second one reads a freed node, and what the third one
returns was the queue at no instant. -/
theorem not_snapshot_exact :
    (∃ s, Lts.Run (exec 8) Allowed start crowdedRun s ∧ s.pc = .returned none ∧
      ¬ ∀ w ∈ writes 8 crowdedRun, w.1 < w.2) ∧
    (∃ s, Lts.Run (exec 8) Allowed start freedRun s ∧ s.pc = .returned none ∧
      ¬ ∀ h ∈ pointers 8 freedRun, h.1.Holds h.2) ∧
    ∃ s, Lts.Run (exec 8) Allowed start emptiedRun s ∧ s.pc = .returned (some [none]) ∧
      ¬ ∃ q ∈ instants 8 emptiedRun, ∃ cells, q.Chain cells ∧
        some [none] = some ((elems cells).map some) := by
  have hruns (as : List (Action Nat)) (retval : Option (List (Option Nat)))
      (h : (Lts.execWhile (exec 8) Allowed start as).any fun s => s.pc = .returned retval) :
      ∃ s, Lts.Run (exec 8) Allowed start as s ∧ s.pc = .returned retval := by
    obtain ⟨s, run, hs⟩ := Lts.Run.exists_of_execWhile h
    exact ⟨s, run, of_decide_eq_true hs⟩
  refine ⟨?_, ?_, ?_⟩
  · obtain ⟨s, run, hs⟩ := hruns crowdedRun none (by decide)
    exact ⟨s, run, hs, by decide⟩
  · obtain ⟨s, run, hs⟩ := hruns freedRun none (by decide)
    refine ⟨s, run, hs, fun hqueued => ?_⟩
    have hempty : ∃ h ∈ pointers 8 freedRun, h.1.first = none := by decide
    obtain ⟨h, hin, hfirst⟩ := hempty
    exact not_holds_of_first hfirst (hqueued h hin)
  · obtain ⟨s, run, hs⟩ := hruns emptiedRun (some [none]) (by decide)
    refine ⟨s, run, hs, ?_⟩
    rintro ⟨q, -, cells, -, heq⟩
    have hzero := eq_zero_of_elems (l := []) (k := 1) (Option.some.inj heq)
    cases hzero

end Snapshot

end GlfsNdmp
