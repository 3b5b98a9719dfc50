import Mathlib.Data.List.Induction

/-!
# Records from a stream

A stream arrives in chunks that know nothing of the records in it. A reader takes one record off the
front of what it has, or waits for more. `readAll` takes as many as there are, and `feed` keeps what
is left for the next chunk.

**Theorem (`foldl_feed`).** How the stream is cut makes no difference, for every reader that takes
something with each record and that more input does not make change its mind.
-/

namespace Reassembly

variable {α β : Type*}

/-- A reader takes a record off the front, and returns it with the rest. -/
abbrev Reader (α β : Type*) := List α → Option (β × List α)

/-- A reader that takes something with each record, and stays with a record once it is there. -/
structure Reader.Lawful (read : Reader α β) : Prop where
  length_lt : ∀ {as rest b}, read as = some (b, rest) → rest.length < as.length
  append : ∀ {as rest b} (bs), read as = some (b, rest) → read (as ++ bs) = some (b, rest ++ bs)

variable {read : Reader α β}

/-- At most so many records. -/
def readMany (read : Reader α β) : Nat → List α → List β × List α
  | 0, as => ([], as)
  | n + 1, as =>
    match read as with
    | none => ([], as)
    | some (b, rest) => (b :: (readMany read n rest).1, (readMany read n rest).2)

/-- All records there are: no more than elements. -/
def readAll (read : Reader α β) (as : List α) : List β × List α := readMany read as.length as

theorem readMany_of_none {as : List α} (h : read as = none) (n : Nat) :
    readMany read n as = ([], as) := by
  cases n with
  | zero => rfl
  | succ n => rw [readMany, h]

theorem readMany_of_some {as rest : List α} {b : β} (h : read as = some (b, rest)) (n : Nat) :
    readMany read (n + 1) as = (b :: (readMany read n rest).1, (readMany read n rest).2) := by
  rw [readMany, h]

/-- With enough tries the number of tries makes no difference. -/
theorem readMany_eq (h : read.Lawful) {n : Nat} {as : List α} (hn : as.length ≤ n) :
    readMany read n as = readAll read as := by
  suffices haux : ∀ m, as.length ≤ m → readMany read n as = readMany read m as from
    haux _ (Nat.le_refl _)
  induction n generalizing as with
  | zero =>
    intro m _
    cases hread : read as with
    | none => rw [readMany_of_none hread, readMany_of_none hread]
    | some r =>
      have hlt := h.length_lt hread
      omega
  | succ n ih =>
    intro m hm
    cases hread : read as with
    | none => rw [readMany_of_none hread, readMany_of_none hread]
    | some r =>
      obtain ⟨b, rest⟩ := r
      have hlt := h.length_lt hread
      obtain ⟨m, rfl⟩ : ∃ k, m = k + 1 := ⟨m - 1, by omega⟩
      rw [readMany_of_some hread, readMany_of_some hread, ih (by omega) m (by omega)]

theorem readAll_of_none {as : List α} (h : read as = none) : readAll read as = ([], as) :=
  readMany_of_none h _

theorem readAll_of_some (h : read.Lawful) {as rest : List α} {b : β}
    (hread : read as = some (b, rest)) :
    readAll read as = (b :: (readAll read rest).1, (readAll read rest).2) := by
  have hlt := h.length_lt hread
  obtain ⟨n, hn⟩ : ∃ n, as.length = n + 1 := ⟨as.length - 1, by omega⟩
  rw [readAll, hn, readMany_of_some hread, readMany_eq h (by omega)]

/-- More input continues with what was left. -/
theorem readAll_append (h : read.Lawful) (as bs : List α) :
    readAll read (as ++ bs) =
      ((readAll read as).1 ++ (readAll read ((readAll read as).2 ++ bs)).1,
        (readAll read ((readAll read as).2 ++ bs)).2) := by
  induction hn : as.length using Nat.strongRecOn generalizing as with
  | ind n ih =>
    cases hread : read as with
    | none => simp [readAll_of_none hread]
    | some r =>
      obtain ⟨b, rest⟩ := r
      rw [readAll_of_some h hread, readAll_of_some h (h.append bs hread),
        ih _ (hn ▸ h.length_lt hread) rest rfl]
      rfl

/-- A stream that is made of records is read as these. -/
theorem readAll_flatMap (h : read.Lawful) {γ : Type*} {enc : γ → List α} {dec : γ → β}
    {cs : List γ} (hread : ∀ c ∈ cs, read (enc c) = some (dec c, [])) (rest : List α) :
    readAll read (cs.flatMap enc ++ rest) =
      (cs.map dec ++ (readAll read rest).1, (readAll read rest).2) := by
  induction cs with
  | nil => rfl
  | cons c cs ih =>
    rw [List.forall_mem_cons] at hread
    have hfirst := h.append (cs.flatMap enc ++ rest) hread.1
    rw [List.nil_append] at hfirst
    rw [List.flatMap_cons, List.append_assoc, readAll_of_some h hfirst, ih hread.2]
    rfl

/-! ## Chunks -/

/-- A chunk arrives: the records so far, and what is left. -/
def feed (read : Reader α β) (s : List β × List α) (chunk : List α) : List β × List α :=
  (s.1 ++ (readAll read (s.2 ++ chunk)).1, (readAll read (s.2 ++ chunk)).2)

/-- **How the stream is cut makes no difference.** -/
theorem foldl_feed (h : read.Lawful) (hnil : read [] = none) (chunks : List (List α)) :
    chunks.foldl (feed read) ([], []) = readAll read chunks.flatten := by
  induction chunks using List.reverseRecOn with
  | nil => exact (readAll_of_none hnil).symm
  | append_singleton chunks chunk ih =>
    rw [List.foldl_append, ih, List.flatten_append, readAll_append h]
    simp [feed]

end Reassembly
