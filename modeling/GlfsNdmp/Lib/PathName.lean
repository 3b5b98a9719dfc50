import GlfsNdmp.Lib.Tokens

/-!
# Path names

A directory is the list of names from the root down to it. `resolve` follows names from a
directory: the name `parent` leads one level up and stays at the root, every other name leads one
level down. Whatever the names are, they amount to a `Walk`: some levels up, then some names down.

`exists_applyTo_eq_iff`: two walks lead from children of some directory to the same directory, if
and only if the longer climb comes down again through the levels the other did not leave.
-/

namespace PathName

/-! ## Following names -/

section

variable {ν : Type*} [DecidableEq ν] (parent : ν)

/-- One name. -/
def follow (dir : List ν) (name : ν) : List ν :=
  if name = parent then dir.dropLast else dir ++ [name]

/-- Where names lead from a directory. -/
def resolve (dir names : List ν) : List ν := names.foldl (follow parent) dir

theorem resolve_append (dir as bs : List ν) :
    resolve parent dir (as ++ bs) = resolve parent (resolve parent dir as) bs :=
  List.foldl_append

/-- Without `parent`, names lead down. -/
theorem resolve_of_not_mem {names : List ν} (h : parent ∉ names) (dir : List ν) :
    resolve parent dir names = dir ++ names := by
  induction names generalizing dir with
  | nil => exact (List.append_nil dir).symm
  | cons name names ih =>
    rw [List.mem_cons, not_or] at h
    show resolve parent (follow parent dir name) names = _
    rw [ih h.2, follow, if_neg fun heq => h.1 heq.symm, List.append_assoc]
    rfl

/-- Levels up, then names down. -/
structure Walk (ν : Type*) where
  up : Nat
  down : List ν
  deriving DecidableEq, Repr

/-- One name more. -/
def Walk.go (w : Walk ν) (name : ν) : Walk ν :=
  if name = parent then
    match w.down with
    | [] => ⟨w.up + 1, []⟩
    | d :: ds => ⟨w.up, (d :: ds).dropLast⟩
  else ⟨w.up, w.down ++ [name]⟩

/-- What names amount to. -/
def walk (names : List ν) : Walk ν := names.foldl (Walk.go parent) ⟨0, []⟩

/-- Where a walk leads from a directory. -/
def Walk.applyTo {ν : Type*} (w : Walk ν) (dir : List ν) : List ν :=
  dir.take (dir.length - w.up) ++ w.down

theorem Walk.applyTo_go (w : Walk ν) (name : ν) (dir : List ν) :
    (w.go parent name).applyTo dir = follow parent (w.applyTo dir) name := by
  obtain ⟨up, down⟩ := w
  unfold Walk.go follow
  by_cases h : name = parent
  · rw [if_pos h, if_pos h]
    cases down with
    | nil =>
      simp only [Walk.applyTo, List.append_nil, List.dropLast_eq_take, List.take_take,
        List.length_take]
      congr 1
      omega
    | cons d ds =>
      simp only [Walk.applyTo]
      rw [List.dropLast_append_of_ne_nil (List.cons_ne_nil d ds)]
  · rw [if_neg h, if_neg h]
    simp [Walk.applyTo]

theorem resolve_eq_applyTo (dir names : List ν) :
    resolve parent dir names = (walk parent names).applyTo dir := by
  have hfold (w : Walk ν) : (names.foldl (Walk.go parent) w).applyTo dir =
      resolve parent (w.applyTo dir) names := by
    induction names generalizing w with
    | nil => rfl
    | cons name names ih =>
      show (names.foldl _ (w.go parent name)).applyTo dir = _
      rw [ih, Walk.applyTo_go]
      rfl
  rw [walk, hfold]
  simp [Walk.applyTo]

/-- The names a walk goes down are among those it was made of. -/
theorem mem_of_mem_walk_down {names : List ν} {n : ν} (h : n ∈ (walk parent names).down) :
    n ∈ names := by
  have hfold (as : List ν) : ∀ w : Walk ν, n ∈ (as.foldl (Walk.go parent) w).down →
      n ∈ w.down ∨ n ∈ as := by
    induction as with
    | nil => exact fun w hn => Or.inl hn
    | cons name as ih =>
      intro w hn
      rcases ih (w.go parent name) hn with hn | hn
      · unfold Walk.go at hn
        split at hn
        · split at hn
          · cases hn
          · rename_i d ds hdown
            rw [hdown]
            exact Or.inl (List.dropLast_subset _ hn)
        · rcases List.mem_append.1 hn with hn | hn
          · exact Or.inl hn
          · rw [List.mem_singleton.1 hn]
            exact Or.inr List.mem_cons_self
      · exact Or.inr (List.mem_cons_of_mem _ hn)
  rcases hfold names ⟨0, []⟩ h with hn | hn
  · cases hn
  · exact hn

theorem ne_of_mem_walk_down {names : List ν} {n : ν} (h : n ∈ (walk parent names).down) :
    n ≠ parent := by
  have hfold (as : List ν) : ∀ w : Walk ν, parent ∉ w.down →
      parent ∉ (as.foldl (Walk.go parent) w).down := by
    induction as with
    | nil => exact fun w hw => hw
    | cons name as ih =>
      intro w hw
      refine ih (w.go parent name) ?_
      unfold Walk.go
      split
      · split
        · exact List.not_mem_nil
        · rename_i d ds hdown
          exact fun hmem => hw (hdown ▸ List.dropLast_subset _ hmem)
      · rename_i hne
        simp [hw, Ne.symm hne]
  rintro rfl
  exact hfold names ⟨0, []⟩ List.not_mem_nil h

theorem walk_of_not_mem {names : List ν} (h : parent ∉ names) :
    walk parent names = ⟨0, names⟩ := by
  have hfold (w : Walk ν) : names.foldl (Walk.go parent) w = ⟨w.up, w.down ++ names⟩ := by
    induction names generalizing w with
    | nil => simp
    | cons name names ih =>
      rw [List.mem_cons, not_or] at h
      rw [List.foldl_cons, ih h.2, Walk.go, if_neg fun heq => h.1 heq.symm]
      simp
  rw [walk, hfold]
  rfl

end

/-! ## Walks that meet -/

section

variable {ν : Type*} (allowed : ν → Prop)

/-- The walk `y` climbs at least as far as `x`, and comes down to `x` through the levels `x` did not
leave, all of them allowed as names. -/
def Walk.Meets (x y : Walk ν) : Prop :=
  ∃ between : List ν, (∀ n ∈ between, allowed n) ∧ y.down = between ++ x.down ∧
    between.length ≤ y.up - x.up ∧ (between = [] → (x.up = 0 ↔ y.up = 0))

variable {allowed}

theorem Walk.meets_of_applyTo_eq {x y : Walk ν} (hup : x.up ≤ y.up) {dir : List ν} {a b : ν}
    (hdir : ∀ n ∈ dir, allowed n) (ha : allowed a)
    (h : x.applyTo (dir ++ [a]) = y.applyTo (dir ++ [b])) : x.Meets allowed y := by
  unfold Walk.applyTo at h
  simp only [List.length_append, List.length_singleton] at h
  by_cases hy : y.up = 0
  · have hx : x.up = 0 := by omega
    rw [hx, hy, List.take_of_length_le (by simp), List.take_of_length_le (by simp),
      List.append_assoc, List.append_assoc] at h
    have hdown := List.tail_eq_of_cons_eq (List.append_cancel_left h)
    exact ⟨[], by simp, hdown.symm, by simp, by simp [hx, hy]⟩
  · -- from one level up on, it makes no difference which child the walk started in
    have hshort : (dir ++ [b]).take (dir.length + 1 - y.up) =
        (dir ++ [a]).take (dir.length + 1 - y.up) := by
      rw [List.take_append_of_le_length (by omega), List.take_append_of_le_length (by omega)]
    have hsplit : (dir ++ [a]).take (dir.length + 1 - x.up) =
        (dir ++ [a]).take (dir.length + 1 - y.up) ++
          ((dir ++ [a]).take (dir.length + 1 - x.up)).drop (dir.length + 1 - y.up) := by
      conv_lhs => rw [← List.take_append_drop (dir.length + 1 - y.up)
        ((dir ++ [a]).take (dir.length + 1 - x.up))]
      rw [List.take_take, Nat.min_eq_left (by omega)]
    rw [hshort, hsplit, List.append_assoc] at h
    refine ⟨_, fun n hn => ?_, (List.append_cancel_left h).symm, ?_, fun hnil => ?_⟩
    · rcases List.mem_append.1 (List.mem_of_mem_take (List.mem_of_mem_drop hn)) with hn | hn
      · exact hdir n hn
      · rwa [List.mem_singleton.1 hn]
    · simp only [List.length_drop, List.length_take, List.length_append, List.length_singleton]
      omega
    · have hlength := congrArg List.length hnil
      simp only [List.length_drop, List.length_take, List.length_append, List.length_singleton,
        List.length_nil] at hlength
      omega

theorem Walk.Meets.exists_applyTo_eq {x y : Walk ν} (h : x.Meets allowed y) {c : ν}
    (hc : allowed c) :
    ∃ dir a, (∀ n ∈ dir, allowed n) ∧ allowed a ∧
      x.applyTo (dir ++ [a]) = y.applyTo (dir ++ [a]) := by
  obtain ⟨between, hallowed, hdown, hlength, hlevel⟩ := h
  by_cases hnil : between = []
  · subst hnil
    refine ⟨[], c, by simp, hc, ?_⟩
    have hzero : x.up = 0 ↔ y.up = 0 := hlevel rfl
    rw [Walk.applyTo, Walk.applyTo, hdown]
    by_cases hx : x.up = 0
    · rw [hx, hzero.1 hx]
      rfl
    · have hy : y.up ≠ 0 := fun hy => hx (hzero.2 hy)
      have hone : ([] ++ [c]).length = 1 := rfl
      rw [hone, show 1 - x.up = 0 by omega, show 1 - y.up = 0 by omega]
      rfl
  · -- the directory the walk `y` comes down through, with as many levels below as `x` climbs
    have hpos : 0 < between.length := List.length_pos_iff.2 hnil
    have hne : between ++ List.replicate x.up c ≠ [] := by simp [hnil]
    have hall : ∀ n ∈ between ++ List.replicate x.up c, allowed n := by
      intro n hn
      rcases List.mem_append.1 hn with hn | hn
      · exact hallowed n hn
      · rw [(List.mem_replicate.1 hn).2]
        exact hc
    refine ⟨_, _, fun n hn => hall n (List.dropLast_subset _ hn), hall _ (List.getLast_mem hne), ?_⟩
    rw [List.dropLast_append_getLast hne, Walk.applyTo, Walk.applyTo, hdown, List.length_append,
      List.length_replicate, show between.length + x.up - x.up = between.length by omega,
      show between.length + x.up - y.up = 0 by omega, List.take_left]
    rfl

/-- **Meeting walks.** -/
theorem exists_applyTo_eq_iff {c : ν} (hc : allowed c) (x y : Walk ν) :
    (∃ dir a b, (∀ n ∈ dir, allowed n) ∧ allowed a ∧ allowed b ∧
      x.applyTo (dir ++ [a]) = y.applyTo (dir ++ [b])) ↔
      x.Meets allowed y ∨ y.Meets allowed x := by
  constructor
  · rintro ⟨dir, a, b, hdir, ha, hb, h⟩
    rcases Nat.le_total x.up y.up with hup | hup
    · exact Or.inl (Walk.meets_of_applyTo_eq hup hdir ha h)
    · exact Or.inr (Walk.meets_of_applyTo_eq hup hdir hb h.symm)
  · rintro (h | h)
    · obtain ⟨dir, a, hdir, ha, heq⟩ := h.exists_applyTo_eq hc
      exact ⟨dir, a, a, hdir, ha, ha, heq⟩
    · obtain ⟨dir, a, hdir, ha, heq⟩ := h.exists_applyTo_eq hc
      exact ⟨dir, a, a, hdir, ha, ha, heq.symm⟩

end

/-! ## Path strings -/

/-- A name in a path that stands for itself. -/
def IsName (n : List Char) : Prop := n ≠ [] ∧ n ≠ ['.'] ∧ '/' ∉ n

instance (n : List Char) : Decidable (IsName n) := inferInstanceAs (Decidable (_ ∧ _))

/-- The names between the slashes; empty ones and `.` lead nowhere. -/
def namesOf (path : List Char) : List (List Char) :=
  (path.splitOn '/').filter fun n => n ≠ [] ∧ n ≠ ['.']

theorem namesOf_slash (s t : List Char) : namesOf (s ++ '/' :: t) = namesOf s ++ namesOf t := by
  rw [namesOf, List.splitOn_append_cons_self, List.filter_append]
  rfl

theorem namesOf_of_isName {n : List Char} (h : IsName n) : namesOf n = [n] := by
  rw [namesOf, List.splitOn_eq_singleton h.2.2]
  simp [h.1, h.2.1]

theorem isName_of_mem_namesOf {path n : List Char} (h : n ∈ namesOf path) : IsName n := by
  obtain ⟨hmem, hne⟩ := List.mem_filter.1 h
  simp only [decide_eq_true_eq] at hne
  exact ⟨hne.1, hne.2, (Tokens.splitOn_piece hmem).1⟩

theorem mem_of_mem_namesOf {path n : List Char} (h : n ∈ namesOf path) : ∀ c ∈ n, c ∈ path :=
  (Tokens.splitOn_piece (List.mem_filter.1 h).1).2

/-- The path of a directory below the root. -/
def pathOf (dir : List (List Char)) : List Char := '/' :: dir.flatMap (· ++ ['/'])

theorem namesOf_pathOf {dir : List (List Char)} (h : ∀ n ∈ dir, IsName n) :
    namesOf (pathOf dir) = dir := by
  have hflat : namesOf (dir.flatMap (· ++ ['/'])) = dir := by
    induction dir with
    | nil => rfl
    | cons n dir ih =>
      rw [List.flatMap_cons, List.append_assoc, List.singleton_append, namesOf_slash,
        namesOf_of_isName (h n List.mem_cons_self), ih fun m hm => h m (List.mem_cons_of_mem n hm)]
      rfl
  rw [pathOf, ← List.nil_append ('/' :: _), namesOf_slash, hflat]
  rfl

end PathName
