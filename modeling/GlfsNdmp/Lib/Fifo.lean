import Mathlib.Data.List.Basic

/-!
# Searching and updating a queue

A queue of records reached by key: the first record that matches is the one found, changed or
erased. `List.find?` and `List.eraseP` are the search and the removal; `modifyFirst` is the change
in place.
-/

namespace Fifo

variable {α : Type*}

/-- Change the first element that satisfies `p`. -/
def modifyFirst (p : α → Bool) (f : α → α) : List α → List α
  | [] => []
  | x :: xs => if p x then f x :: xs else x :: modifyFirst p f xs

/-- The elements a search looks at: up to the first that satisfies `p`. -/
def visited (p : α → Bool) : List α → List α
  | [] => []
  | x :: xs => if p x then [x] else x :: visited p xs

theorem visited_subset (p : α → Bool) (l : List α) : visited p l ⊆ l := by
  induction l with
  | nil => exact List.Subset.refl _
  | cons x xs ih =>
    unfold visited
    split
    · exact List.cons_subset_cons x (List.nil_subset xs)
    · exact List.cons_subset_cons x ih

theorem find?_modifyFirst_self {p : α → Bool} {f : α → α} (hf : ∀ x, p (f x) = p x)
    (l : List α) : (modifyFirst p f l).find? p = (l.find? p).map f := by
  induction l with
  | nil => rfl
  | cons x xs ih =>
    cases hx : p x with
    | true => simp [modifyFirst, hx, hf]
    | false => simpa [modifyFirst, hx] using ih

/-- A change under one key does not touch what another key finds. -/
theorem find?_modifyFirst_other {p q : α → Bool} {f : α → α} (hf : ∀ x, q (f x) = q x)
    (hpq : ∀ x, p x → q x = false) (l : List α) :
    (modifyFirst p f l).find? q = l.find? q := by
  induction l with
  | nil => rfl
  | cons x xs ih =>
    cases hx : p x with
    | true => simp [modifyFirst, hx, hf, hpq x hx]
    | false => simp [modifyFirst, hx, List.find?_cons, ih]

theorem map_modifyFirst {β : Type*} {p : α → Bool} {f : α → α} {key : α → β}
    (hf : ∀ x, key (f x) = key x) (l : List α) : (modifyFirst p f l).map key = l.map key := by
  induction l with
  | nil => rfl
  | cons x xs ih =>
    unfold modifyFirst
    split
    · rw [List.map_cons, List.map_cons, hf]
    · rw [List.map_cons, List.map_cons, ih]

/-- A removal under one key does not touch what another key finds. -/
theorem find?_eraseP_other {p q : α → Bool} (hpq : ∀ x, p x → q x = false) (l : List α) :
    (l.eraseP p).find? q = l.find? q := by
  induction l with
  | nil => rfl
  | cons x xs ih =>
    cases hx : p x with
    | true => rw [List.eraseP_cons_of_pos hx, List.find?_cons, hpq x hx]
    | false => rw [List.eraseP_cons_of_neg (by simp [hx]), List.find?_cons, List.find?_cons, ih]

/-- The removal takes the element the search finds, and no other. -/
theorem mem_eraseP_of_find?_ne {p : α → Bool} {l : List α} {x : α} (hx : x ∈ l)
    (hne : ∀ y, l.find? p = some y → y ≠ x) : x ∈ l.eraseP p := by
  induction l with
  | nil => exact hx
  | cons y l ih =>
    cases hy : p y with
    | true =>
      rw [List.eraseP_cons_of_pos hy]
      rcases List.mem_cons.1 hx with rfl | hx
      · exact absurd rfl (hne x (List.find?_cons_of_pos hy))
      · exact hx
    | false =>
      rw [List.eraseP_cons_of_neg (by simp [hy])]
      rcases List.mem_cons.1 hx with rfl | hx
      · exact List.mem_cons_self
      · refine List.mem_cons_of_mem _ (ih hx fun z hz => hne z ?_)
        rw [List.find?_cons_of_neg (by simp [hy]), hz]

/-- Where each key is there once, a removal leaves nothing to find. -/
theorem find?_eraseP_self {κ : Type*} [BEq κ] [LawfulBEq κ] {key : α → κ} {k : κ} {l : List α}
    (h : (l.map key).Nodup) : (l.eraseP (key · == k)).find? (key · == k) = none := by
  induction l with
  | nil => rfl
  | cons x xs ih =>
    obtain ⟨hx, hxs⟩ := List.nodup_cons.1 h
    by_cases hk : key x = k
    · rw [List.eraseP_cons_of_pos (by simp [hk]), List.find?_eq_none]
      intro y hy heq
      apply hx
      rw [hk, ← eq_of_beq heq]
      exact List.mem_map_of_mem hy
    · rw [List.eraseP_cons_of_neg (by simp [hk]), List.find?_cons_of_neg (by simp [hk])]
      exact ih hxs

/-- Of a queue without duplicates nothing is left of what the removal takes. -/
theorem not_mem_eraseP_of_find? {p : α → Bool} {l : List α} {x : α} (hl : l.Nodup)
    (hx : l.find? p = some x) : x ∉ l.eraseP p := by
  induction l with
  | nil => cases hx
  | cons y l ih =>
    obtain ⟨hy, hl⟩ := List.nodup_cons.1 hl
    cases hp : p y with
    | true =>
      rw [List.find?_cons_of_pos hp] at hx
      cases hx
      rwa [List.eraseP_cons_of_pos hp]
    | false =>
      rw [List.find?_cons_of_neg (by simp [hp])] at hx
      rw [List.eraseP_cons_of_neg (by simp [hp]), List.mem_cons, not_or]
      refine ⟨fun heq => hy (heq ▸ List.mem_of_find?_eq_some hx), ih hl hx⟩

/-! ## The elements of one key -/

/-- Only the element that is found is changed. -/
theorem modifyFirst_congr {p : α → Bool} {f g : α → α} {l : List α}
    (h : ∀ x ∈ l.find? p, f x = g x) : modifyFirst p f l = modifyFirst p g l := by
  induction l with
  | nil => rfl
  | cons x xs ih =>
    cases hp : p x with
    | true =>
      rw [modifyFirst, modifyFirst, if_pos hp, if_pos hp, h x (List.find?_cons_of_pos hp)]
    | false =>
      have hneg : ¬ p x = true := by simp [hp]
      rw [List.find?_cons_of_neg hneg] at h
      rw [modifyFirst, modifyFirst, if_neg hneg, if_neg hneg, ih h]

theorem modifyFirst_of_eq {p : α → Bool} {f : α → α} (hf : ∀ x, f x = x) (l : List α) :
    modifyFirst p f l = l := by
  induction l with
  | nil => rfl
  | cons x xs ih => rw [modifyFirst, hf, ih, ite_self]

/-- A change under a key is the same change among the elements of that key. -/
theorem filter_modifyFirst_self {p : α → Bool} {f : α → α} (hf : ∀ x, p (f x) = p x)
    (l : List α) : (modifyFirst p f l).filter p = modifyFirst p f (l.filter p) := by
  induction l with
  | nil => rfl
  | cons x xs ih =>
    cases hx : p x with
    | true => simp [modifyFirst, hx, hf]
    | false => simpa [modifyFirst, hx] using ih

theorem filter_modifyFirst_other {p q : α → Bool} {f : α → α} (hf : ∀ x, q (f x) = q x)
    (hpq : ∀ x, p x → q x = false) (l : List α) :
    (modifyFirst p f l).filter q = l.filter q := by
  induction l with
  | nil => rfl
  | cons x xs ih =>
    cases hx : p x with
    | true => simp [modifyFirst, hx, hf, hpq x hx]
    | false => simp [modifyFirst, hx, List.filter_cons, ih]

/-- A removal under a key is the same removal among the elements of that key. -/
theorem filter_eraseP_self (p : α → Bool) (l : List α) :
    (l.eraseP p).filter p = (l.filter p).eraseP p := by
  induction l with
  | nil => rfl
  | cons x xs ih =>
    cases hx : p x with
    | true => simp [hx]
    | false => simpa [hx] using ih

theorem filter_eraseP_other {p q : α → Bool} (hpq : ∀ x, p x → q x = false) (l : List α) :
    (l.eraseP p).filter q = l.filter q := by
  induction l with
  | nil => rfl
  | cons x xs ih =>
    cases hx : p x with
    | true => rw [List.eraseP_cons_of_pos hx, List.filter_cons_of_neg (by simp [hpq x hx])]
    | false => rw [List.eraseP_cons_of_neg (by simp [hx]), List.filter_cons, List.filter_cons, ih]

end Fifo
