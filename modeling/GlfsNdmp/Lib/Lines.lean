import Mathlib.Data.List.Basic

/-!
# Lines and fields

A text of lines, each with a symbol after it that ends it (`unlines`), is read back line by line
(`lines`; without the empty ones, `fullLines`), and a line is cut at the first of a symbol that
ends a field (`cut`).
-/

namespace Lines

variable {α : Type*}

/-- Lines, each ended by a symbol. -/
def unlines (stop : α) (ls : List (List α)) : List α := ls.flatMap (· ++ [stop])

theorem unlines_cons (stop : α) (l : List α) (ls : List (List α)) :
    unlines stop (l :: ls) = l ++ stop :: unlines stop ls := by
  rw [unlines, List.flatMap_cons, List.append_assoc]
  rfl

variable [DecidableEq α]

/-- The lines behind what has been read of the first; what is not ended is no line. -/
def linesFrom (stop : α) (read : List α) : List α → List (List α)
  | [] => []
  | a :: as =>
    if a = stop then read :: linesFrom stop [] as else linesFrom stop (read ++ [a]) as

def lines (stop : α) (as : List α) : List (List α) := linesFrom stop [] as

/-- The lines with something in them. -/
def fullLines (stop : α) (as : List α) : List (List α) :=
  (lines stop as).filter fun l => !l.isEmpty

/-- The field up to the first `stop`, and what comes after it. -/
def cut (stop : α) : List α → Option (List α × List α)
  | [] => none
  | a :: as => if a = stop then some ([], as) else (cut stop as).map fun x => (a :: x.1, x.2)

variable {stop : α}

theorem linesFrom_append {l : List α} (h : stop ∉ l) (read rest : List α) :
    linesFrom stop read (l ++ stop :: rest) = (read ++ l) :: linesFrom stop [] rest := by
  induction l generalizing read with
  | nil => rw [List.nil_append, linesFrom, if_pos rfl, List.append_nil]
  | cons a l ih =>
    rw [List.mem_cons, not_or] at h
    rw [List.cons_append, linesFrom, if_neg (Ne.symm h.1), ih h.2, List.append_assoc]
    rfl

theorem fullLines_append {l : List α} (h : stop ∉ l) (hfull : l ≠ []) (rest : List α) :
    fullLines stop (l ++ stop :: rest) = l :: fullLines stop rest := by
  rw [fullLines, lines, linesFrom_append h, List.nil_append, List.filter_cons_of_pos]
  · rfl
  · simpa using hfull

/-- An empty line is passed over. -/
theorem fullLines_stop (rest : List α) : fullLines stop (stop :: rest) = fullLines stop rest := by
  rw [fullLines, lines, linesFrom, if_pos rfl, List.filter_cons_of_neg (by simp)]
  rfl

theorem not_mem_of_mem_linesFrom {read as l : List α} (hread : stop ∉ read)
    (h : l ∈ linesFrom stop read as) : stop ∉ l := by
  induction as generalizing read with
  | nil => exact (List.not_mem_nil h).elim
  | cons a as ih =>
    unfold linesFrom at h
    split at h
    · rcases List.mem_cons.1 h with rfl | h
      · exact hread
      · exact ih List.not_mem_nil h
    · rename_i hne
      refine ih ?_ h
      rw [List.mem_append, List.mem_singleton, not_or]
      exact ⟨hread, Ne.symm hne⟩

/-- No line that is read contains the symbol that ends lines. -/
theorem not_mem_of_mem_fullLines {as l : List α} (h : l ∈ fullLines stop as) : stop ∉ l :=
  not_mem_of_mem_linesFrom List.not_mem_nil (List.mem_of_mem_filter h)

theorem cut_append {field : List α} (h : stop ∉ field) (rest : List α) :
    cut stop (field ++ stop :: rest) = some (field, rest) := by
  induction field with
  | nil => rw [List.nil_append, cut, if_pos rfl]
  | cons a field ih =>
    rw [List.mem_cons, not_or] at h
    rw [List.cons_append, cut, if_neg (Ne.symm h.1), ih h.2]
    rfl

/-- What comes after a field is part of the line. -/
theorem mem_of_cut {as field rest : List α} (h : cut stop as = some (field, rest)) {a : α}
    (ha : a ∈ rest) : a ∈ as := by
  induction as generalizing field with
  | nil => cases h
  | cons b as ih =>
    unfold cut at h
    split at h
    · cases h
      exact List.mem_cons_of_mem _ ha
    · obtain ⟨⟨field', rest'⟩, hcut, heq⟩ := Option.map_eq_some_iff.1 h
      cases heq
      exact List.mem_cons_of_mem _ (ih hcut)

/-- What is read from some lines is read from one of them. -/
theorem exists_of_mem_mapM {β γ : Type*} {f : β → Option γ} {ls : List β} {rs : List γ}
    (h : ls.mapM f = some rs) {r : γ} (hr : r ∈ rs) : ∃ l ∈ ls, f l = some r := by
  induction ls generalizing rs with
  | nil =>
    rw [List.mapM_nil] at h
    cases h
    exact (List.not_mem_nil hr).elim
  | cons l ls ih =>
    rw [List.mapM_cons] at h
    obtain ⟨r', hl, h⟩ := Option.bind_eq_some_iff.1 h
    obtain ⟨rs', hls, heq⟩ := Option.bind_eq_some_iff.1 h
    cases heq
    rcases List.mem_cons.1 hr with rfl | hr
    · exact ⟨l, List.mem_cons_self, hl⟩
    · obtain ⟨l', hl', hread⟩ := ih hls hr
      exact ⟨l', List.mem_cons_of_mem l hl', hread⟩

end Lines
