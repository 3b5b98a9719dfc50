import Mathlib.Algebra.Order.BigOperators.Group.List
import Mathlib.Algebra.Order.Ring.Nat

/-!
# Chunks and tokens

A text is read into a buffer of limited size, up to a symbol that ends a line (`chunks`), and cut
at a separator into its maximal nonempty runs (`tokens`). Joined with one separator each, these
are the text with its outer separators removed and the inner ones reduced to one (`squeeze`).
-/

namespace Tokens

variable {α : Type*} {sep : α}

/-! ## Joining -/

theorem intercalate_concat {ts : List (List α)} (h : ts ≠ []) (t : List α) :
    [sep].intercalate (ts ++ [t]) = [sep].intercalate ts ++ sep :: t := by
  induction ts with
  | nil => exact absurd rfl h
  | cons u us ih =>
    cases us with
    | nil => simp
    | cons v vs =>
      rw [List.cons_append, List.cons_append, List.intercalate_cons_cons,
        List.intercalate_cons_cons, ← List.cons_append, ih (List.cons_ne_nil v vs)]
      simp

/-- How much some runs take, each with a separator. -/
def weight (ts : List (List α)) : Nat := (ts.map fun t => t.length + 1).sum

theorem length_intercalate (sep : α) {ts : List (List α)} (h : ts ≠ []) :
    ([sep].intercalate ts).length + 1 = weight ts := by
  induction ts with
  | nil => exact absurd rfl h
  | cons t ts ih =>
    cases ts with
    | nil => simp [weight]
    | cons u us =>
      have hlength := ih (List.cons_ne_nil u us)
      rw [List.intercalate_cons_cons, List.length_append, List.length_append,
        List.length_singleton]
      unfold weight at hlength ⊢
      rw [List.map_cons, List.sum_cons, ← hlength]
      omega

theorem weight_le_of_sublist {ts us : List (List α)} (h : ts.Sublist us) : weight ts ≤ weight us :=
  (h.map _).sum_le_sum fun _ _ => Nat.zero_le _

variable [DecidableEq α]

/-! ## Chunks -/

/-- The chunks behind what has been read of the first. -/
def chunksFrom (size : Nat) (stop : α) (read : List α) : List α → List (List α)
  | [] => if read = [] then [] else [read]
  | a :: as =>
    if a = stop ∨ read.length + 1 = size then (read ++ [a]) :: chunksFrom size stop [] as
    else chunksFrom size stop (read ++ [a]) as

/-- What is read into a buffer of a given size, one time after the other. -/
def chunks (size : Nat) (stop : α) (as : List α) : List (List α) := chunksFrom size stop [] as

variable {size : Nat} {stop : α}

theorem chunksFrom_nil (read : List α) :
    chunksFrom size stop read [] = if read = [] then [] else [read] := rfl

theorem chunksFrom_cons (read : List α) (a : α) (as : List α) :
    chunksFrom size stop read (a :: as) =
      if a = stop ∨ read.length + 1 = size then (read ++ [a]) :: chunksFrom size stop [] as
      else chunksFrom size stop (read ++ [a]) as := rfl

theorem chunksFrom_append {read as : List α} (hstop : stop ∉ as)
    (hsize : read.length + as.length < size) (rest : List α) :
    chunksFrom size stop read (as ++ rest) = chunksFrom size stop (read ++ as) rest := by
  induction as generalizing read with
  | nil => rw [List.append_nil, List.nil_append]
  | cons a as ih =>
    rw [List.mem_cons, not_or] at hstop
    rw [List.length_cons] at hsize
    have hread : (read ++ [a]).length = read.length + 1 := List.length_append
    rw [List.cons_append, chunksFrom_cons, if_neg, ih hstop.2 (by omega), List.append_assoc,
      List.singleton_append]
    rintro (rfl | hfull)
    · exact hstop.1 rfl
    · omega

/-- A line that fits is read whole. -/
theorem chunks_line {line : List α} (hstop : stop ∉ line) (hsize : line.length < size)
    (rest : List α) :
    chunks size stop (line ++ stop :: rest) = (line ++ [stop]) :: chunks size stop rest := by
  rw [chunks, chunksFrom_append hstop (by simpa using hsize), List.nil_append, chunksFrom_cons,
    if_pos (Or.inl rfl)]
  rfl

/-- Of a longer line, as much is read as fits. -/
theorem chunks_full {line : List α} (hstop : stop ∉ line) (hsize : line.length = size)
    (hne : line ≠ []) (rest : List α) :
    chunks size stop (line ++ rest) = line :: chunks size stop rest := by
  obtain ⟨first, last, rfl⟩ := List.eq_nil_or_concat line |>.resolve_left hne
  rw [List.concat_eq_append] at *
  rw [List.mem_append, not_or] at hstop
  rw [List.length_append, List.length_singleton] at hsize
  rw [chunks, List.append_assoc, chunksFrom_append hstop.1 (by simp; omega), List.nil_append,
    List.singleton_append, chunksFrom_cons, if_pos (Or.inr hsize)]
  rfl

theorem length_le_of_mem_chunksFrom {read as chunk : List α} (hread : read.length < size)
    (h : chunk ∈ chunksFrom size stop read as) : chunk.length ≤ size := by
  induction as generalizing read with
  | nil =>
    rw [chunksFrom_nil] at h
    split at h
    · cases h
    · rw [List.mem_singleton.1 h]
      exact Nat.le_of_lt hread
  | cons a as ih =>
    have hlength : (read ++ [a]).length = read.length + 1 := List.length_append
    rw [chunksFrom_cons] at h
    split at h
    · rcases List.mem_cons.1 h with rfl | h
      · omega
      · have hnil : ([] : List α).length < size := Nat.zero_lt_of_lt hread
        exact ih hnil h
    · rename_i hnot
      rw [not_or] at hnot
      exact ih (by omega) h

theorem mem_of_mem_chunksFrom {read as chunk : List α} (h : chunk ∈ chunksFrom size stop read as)
    {a : α} (ha : a ∈ chunk) : a ∈ read ∨ a ∈ as := by
  induction as generalizing read with
  | nil =>
    rw [chunksFrom_nil] at h
    split at h
    · cases h
    · rw [List.mem_singleton.1 h] at ha
      exact Or.inl ha
  | cons b as ih =>
    have hconcat : a ∈ read ++ [b] → a ∈ read ∨ a ∈ b :: as := by
      intro ha
      rw [List.mem_append, List.mem_singleton] at ha
      rcases ha with ha | rfl
      · exact Or.inl ha
      · exact Or.inr List.mem_cons_self
    rw [chunksFrom_cons] at h
    split at h
    · rcases List.mem_cons.1 h with rfl | h
      · exact hconcat ha
      · rcases ih h with ha | ha
        · cases ha
        · exact Or.inr (List.mem_cons_of_mem b ha)
    · rcases ih h with ha | ha
      · exact hconcat ha
      · exact Or.inr (List.mem_cons_of_mem b ha)

/-! ## Tokens -/

/-- What stands between separators. -/
theorem splitOn_piece {s n : List α} (h : n ∈ s.splitOn sep) : sep ∉ n ∧ ∀ d ∈ n, d ∈ s := by
  induction s generalizing n with
  | nil => simp_all [List.splitOn]
  | cons a s ih =>
    rw [List.splitOn_cons_eq_if_modifyHead] at h
    split at h
    · rcases List.mem_cons.1 h with rfl | h
      · simp
      · exact ⟨(ih h).1, fun d hd => List.mem_cons_of_mem a ((ih h).2 d hd)⟩
    · rename_i hne
      cases hs : s.splitOn sep with
      | nil => exact absurd hs (List.splitOn_ne_nil sep s)
      | cons p ps =>
        rw [hs, List.modifyHead_cons] at h
        rw [hs] at ih
        rcases List.mem_cons.1 h with rfl | h
        · obtain ⟨hnot, hsub⟩ := ih List.mem_cons_self
          refine ⟨fun hmem => ?_, fun d hd => ?_⟩
          · rcases List.mem_cons.1 hmem with rfl | hmem
            · simp at hne
            · exact hnot hmem
          · rcases List.mem_cons.1 hd with rfl | hd
            · exact List.mem_cons_self
            · exact List.mem_cons_of_mem a (hsub d hd)
        · obtain ⟨hnot, hsub⟩ := ih (List.mem_cons_of_mem p h)
          exact ⟨hnot, fun d hd => List.mem_cons_of_mem a (hsub d hd)⟩

/-- The maximal nonempty runs without the separator. -/
def tokens (sep : α) (s : List α) : List (List α) := (s.splitOn sep).filter (· ≠ [])

/-- A run without the separator. -/
def IsToken (sep : α) (t : List α) : Prop := t ≠ [] ∧ sep ∉ t

theorem tokens_append (s t : List α) :
    tokens sep (s ++ sep :: t) = tokens sep s ++ tokens sep t := by
  rw [tokens, List.splitOn_append_cons_self, List.filter_append]
  rfl

@[simp] theorem tokens_nil : tokens sep [] = [] := rfl

@[simp] theorem tokens_cons_sep (s : List α) : tokens sep (sep :: s) = tokens sep s :=
  tokens_append [] s

theorem tokens_of_isToken {t : List α} (h : IsToken sep t) : tokens sep t = [t] := by
  rw [tokens, List.splitOn_eq_singleton h.2]
  simp [h.1]

theorem isToken_of_mem {s t : List α} (h : t ∈ tokens sep s) : IsToken sep t := by
  obtain ⟨hmem, hne⟩ := List.mem_filter.1 h
  exact ⟨of_decide_eq_true hne, (splitOn_piece hmem).1⟩

theorem mem_of_mem_tokens {s t : List α} (h : t ∈ tokens sep s) : ∀ a ∈ t, a ∈ s :=
  (splitOn_piece (List.mem_filter.1 h).1).2

/-! ## Joined tokens -/

/-- The text with its outer separators removed and the inner ones reduced to one. -/
def squeeze (sep : α) (s : List α) : List α := [sep].intercalate (tokens sep s)

/-- Tokens that are joined can be told apart again. -/
theorem tokens_intercalate {ts : List (List α)} (h : ∀ t ∈ ts, IsToken sep t) :
    tokens sep ([sep].intercalate ts) = ts := by
  induction ts with
  | nil => rfl
  | cons t ts ih =>
    rw [List.forall_mem_cons] at h
    cases ts with
    | nil => rw [List.intercalate_singleton, tokens_of_isToken h.1]
    | cons u us =>
      rw [List.intercalate_cons_cons, List.append_assoc, List.singleton_append, tokens_append,
        tokens_of_isToken h.1, ih h.2]
      rfl

theorem tokens_squeeze (s : List α) : tokens sep (squeeze sep s) = tokens sep s :=
  tokens_intercalate fun _ => isToken_of_mem

theorem squeeze_eq_nil_iff {s : List α} : squeeze sep s = [] ↔ tokens sep s = [] := by
  constructor
  · intro h
    rw [← tokens_squeeze, h, tokens_nil]
  · intro h
    rw [squeeze, h]
    rfl

/-- What stands behind the last separator. -/
theorem exists_tail (sep : α) (s : List α) :
    ∃ t, sep ∉ t ∧ (s = t ∨ ∃ p, s = p ++ sep :: t) := by
  induction s with
  | nil => exact ⟨[], List.not_mem_nil, Or.inl rfl⟩
  | cons a s ih =>
    obtain ⟨t, ht, rfl | ⟨p, rfl⟩⟩ := ih
    · by_cases ha : sep = a
      · exact ⟨s, ht, Or.inr ⟨[], by rw [ha, List.nil_append]⟩⟩
      · exact ⟨a :: s, by simp [ha, ht], Or.inl rfl⟩
    · exact ⟨t, ht, Or.inr ⟨a :: p, rfl⟩⟩

/-- A symbol behind a text is part of the last token. -/
theorem squeeze_concat {s : List α} (hlast : s.getLast? ≠ some sep) {c : α} (hc : c ≠ sep) :
    squeeze sep (s ++ [c]) = squeeze sep s ++ [c] := by
  obtain ⟨t, ht, hs⟩ := exists_tail sep s
  have hend : sep ∉ t ++ [c] := by simp [ht, hc.symm]
  have htc : IsToken sep (t ++ [c]) := ⟨by simp, hend⟩
  by_cases hnil : t = []
  · obtain rfl | ⟨p, rfl⟩ := hs
    · rw [hnil, List.nil_append, squeeze, tokens_of_isToken (by simpa [hnil] using htc)]
      rfl
    · rw [hnil] at hlast
      simp at hlast
  · have htoken : tokens sep t = [t] := tokens_of_isToken ⟨hnil, ht⟩
    obtain rfl | ⟨p, rfl⟩ := hs
    · rw [squeeze, squeeze, tokens_of_isToken htc, htoken, List.intercalate_singleton,
        List.intercalate_singleton]
    · rw [List.append_assoc, List.cons_append, squeeze, squeeze, tokens_append, tokens_append,
        tokens_of_isToken htc, htoken]
      by_cases hp : tokens sep p = []
      · simp [hp]
      · rw [intercalate_concat hp, intercalate_concat hp, List.append_assoc, List.cons_append]

/-- A symbol behind a text ends a token of its own, or that of the text. -/
theorem mem_tokens_concat {s t : List α} {c : α} (hc : c ≠ sep)
    (h : t ∈ tokens sep (s ++ [c])) : t ∈ tokens sep s ∨ t.getLast? = some c := by
  obtain ⟨u, hu, hs⟩ := exists_tail sep s
  have huc : IsToken sep (u ++ [c]) := ⟨by simp, by simp [hu, hc.symm]⟩
  obtain rfl | ⟨p, rfl⟩ := hs
  · rw [tokens_of_isToken huc, List.mem_singleton] at h
    rw [h]
    simp
  · rw [List.append_assoc, List.cons_append, tokens_append, tokens_of_isToken huc,
      List.mem_append, List.mem_singleton] at h
    rcases h with h | rfl
    · rw [tokens_append]
      exact Or.inl (List.mem_append_left _ h)
    · simp

theorem mem_squeeze {s : List α} {c : α} (h : c ∈ squeeze sep s) : c ∈ s ∨ c = sep := by
  have hmem : ∀ ts : List (List α), (∀ t ∈ ts, ∀ a ∈ t, a ∈ s) →
      c ∈ [sep].intercalate ts → c ∈ s ∨ c = sep := by
    intro ts hts h
    induction ts with
    | nil => cases h
    | cons t ts ih =>
      rw [List.forall_mem_cons] at hts
      cases ts with
      | nil => exact Or.inl (hts.1 c (by simpa using h))
      | cons u us =>
        rw [List.intercalate_cons_cons, List.mem_append, List.mem_append,
          List.mem_singleton] at h
        rcases h with (h | h) | h
        · exact Or.inl (hts.1 c h)
        · exact Or.inr h
        · exact ih hts.2 h
  exact hmem _ (fun t ht => mem_of_mem_tokens ht) h

/-- A symbol behind a separator is a token of its own. -/
theorem squeeze_concat_sep {s : List α} (hs : tokens sep s ≠ []) {c : α} (hc : c ≠ sep) :
    squeeze sep (s ++ [sep, c]) = squeeze sep s ++ [sep, c] := by
  have htoken : IsToken sep [c] := ⟨List.cons_ne_nil c [], by simp [hc.symm]⟩
  rw [squeeze, tokens_append, tokens_of_isToken htoken, intercalate_concat hs]
  rfl

theorem squeeze_concat_of_tokens_eq_nil {s : List α} (hs : tokens sep s = []) {c : α}
    (hc : c ≠ sep) : squeeze sep (s ++ [c]) = [c] := by
  by_cases hlast : s.getLast? = some sep
  · obtain ⟨p, rfl⟩ := List.getLast?_eq_some_iff.1 hlast
    have htoken : IsToken sep [c] := ⟨List.cons_ne_nil c [], by simp [hc.symm]⟩
    rw [tokens_append, List.append_eq_nil_iff] at hs
    rw [List.append_assoc, List.singleton_append, squeeze, tokens_append, hs.1,
      tokens_of_isToken htoken]
    rfl
  · rw [squeeze_concat hlast hc, squeeze_eq_nil_iff.2 hs, List.nil_append]

/-! ## Lengths -/

theorem weight_tokens_le (s : List α) : weight (tokens sep s) ≤ s.length + 1 := by
  have hall := length_intercalate sep (List.splitOn_ne_nil sep s)
  rw [List.intercalate_splitOn] at hall
  rw [hall]
  exact weight_le_of_sublist List.filter_sublist

theorem length_intercalate_le {ts : List (List α)} {s : List α} (h : ts.Sublist (tokens sep s)) :
    ([sep].intercalate ts).length ≤ s.length := by
  by_cases hts : ts = []
  · rw [hts]
    exact Nat.zero_le _
  · have hlength := length_intercalate sep hts
    have hweight := Nat.le_trans (weight_le_of_sublist h) (weight_tokens_le s)
    omega

theorem length_squeeze_le (sep : α) (s : List α) : (squeeze sep s).length ≤ s.length :=
  length_intercalate_le (List.Sublist.refl _)

end Tokens
