import GlfsNdmp.Lib.Mealy

/-!
# The last write wins

A register is a component of the state that a step either overwrites with a value its event
determines, or leaves alone. Its content at the end of a run is then decided by the last event
that wrote it (`lastWrite`), whatever the events were.
-/

namespace Register

variable {α β : Type*}

/-- The value of the last event that writes, if one does. -/
def lastWrite (w : α → Option β) (l : List α) : Option β := (l.filterMap w).getLast?

variable (w : α → Option β)

@[simp] theorem lastWrite_nil : lastWrite w [] = none := rfl

theorem lastWrite_append (as bs : List α) :
    lastWrite w (as ++ bs) = (lastWrite w bs).or (lastWrite w as) := by
  simp [lastWrite, List.filterMap_append, List.getLast?_append]

theorem lastWrite_concat (as : List α) (a : α) :
    lastWrite w (as ++ [a]) = (w a).or (lastWrite w as) := by
  rw [lastWrite_append]
  cases h : w a <;> simp [lastWrite, h]

theorem lastWrite_eq_none {l : List α} : lastWrite w l = none ↔ ∀ a ∈ l, w a = none := by
  simp [lastWrite]

/-- The last write is some event's, and nothing after that event writes. -/
theorem lastWrite_eq_some {l : List α} {b : β} :
    lastWrite w l = some b ↔
      ∃ as a bs, l = as ++ a :: bs ∧ w a = some b ∧ ∀ x ∈ bs, w x = none := by
  constructor
  · induction l using List.reverseRecOn with
    | nil => simp
    | append_singleton l a ih =>
      intro h
      rw [lastWrite_concat] at h
      cases ha : w a with
      | some c =>
        rw [ha, Option.some_or, Option.some.injEq] at h
        exact ⟨l, a, [], rfl, by rw [ha, h], by simp⟩
      | none =>
        rw [ha, Option.none_or] at h
        obtain ⟨as, x, bs, rfl, hx, hbs⟩ := ih h
        refine ⟨as, x, bs ++ [a], by simp, hx, fun y hy => ?_⟩
        rcases List.mem_append.1 hy with hy | hy
        · exact hbs y hy
        · rw [List.mem_singleton.1 hy, ha]
  · rintro ⟨as, a, bs, rfl, ha, hbs⟩
    have hnone : lastWrite w bs = none := (lastWrite_eq_none w).2 hbs
    rw [List.append_cons, lastWrite_append, lastWrite_concat, ha, hnone]
    rfl

/-- A write that later events only repeat is the last one. -/
theorem lastWrite_of_repeat {as bs : List α} {a : α} {b : β} (ha : w a = some b)
    (hbs : ∀ x ∈ bs, w x = none ∨ w x = some b) : lastWrite w (as ++ a :: bs) = some b := by
  induction bs using List.reverseRecOn with
  | nil => rw [lastWrite_concat, ha, Option.some_or]
  | append_singleton bs x ih =>
    rw [← List.cons_append, ← List.append_assoc, lastWrite_concat,
      ih fun y hy => hbs y (List.mem_append_left _ hy)]
    rcases hbs x (by simp) with hx | hx <;> rw [hx] <;> rfl

/-! ## The last writer -/

/-- The last event that writes. -/
def lastWriter (l : List α) : Option α := (l.filter fun a => (w a).isSome).getLast?

theorem lastWriter_eq_none {l : List α} : lastWriter w l = none ↔ lastWrite w l = none := by
  simp [lastWriter, lastWrite]

/-- The last writer is somewhere in the list, it writes, and nothing after it does. -/
theorem lastWriter_eq_some {l : List α} {a : α} (h : lastWriter w l = some a) :
    ∃ as bs b, l = as ++ a :: bs ∧ w a = some b ∧ ∀ x ∈ bs, w x = none := by
  induction l using List.reverseRecOn with
  | nil => cases h
  | append_singleton l x ih =>
    unfold lastWriter at h
    rw [List.filter_append] at h
    cases hx : w x with
    | some c =>
      rw [List.filter_singleton, hx, Option.isSome_some, cond_true, List.getLast?_concat,
        Option.some.injEq] at h
      exact ⟨l, [], c, by rw [h], by rw [← h, hx], by simp⟩
    | none =>
      rw [List.filter_singleton, hx, Option.isSome_none, cond_false, List.append_nil] at h
      obtain ⟨as, bs, b, rfl, ha, hbs⟩ := ih h
      refine ⟨as, bs ++ [x], b, by simp, ha, fun y hy => ?_⟩
      rcases List.mem_append.1 hy with hy | hy
      · exact hbs y hy
      · rw [List.mem_singleton.1 hy, hx]

/-- Leaving events out changes what a register holds, unless the last writer stays or wrote what
the rest leave anyway. -/
theorem lastWrite_filter_iff (p : α → Bool) (d : β) (l : List α) :
    (lastWrite w l).getD d = (lastWrite w (l.filter p)).getD d ↔
      ∀ a, lastWriter w l = some a → p a = false →
        w a = some ((lastWrite w (l.filter p)).getD d) := by
  cases h : lastWriter w l with
  | none =>
    have hnone := (lastWrite_eq_none w).1 ((lastWriter_eq_none w).1 h)
    have hfilter : lastWrite w (l.filter p) = none :=
      (lastWrite_eq_none w).2 fun x hx => hnone x (List.mem_of_mem_filter hx)
    rw [(lastWrite_eq_none w).2 hnone, hfilter]
    simp
  | some a =>
    obtain ⟨as, bs, b, rfl, ha, hbs⟩ := lastWriter_eq_some w h
    have hlast : lastWrite w (as ++ a :: bs) = some b :=
      (lastWrite_eq_some w).2 ⟨as, a, bs, rfl, ha, hbs⟩
    rw [hlast, Option.getD_some]
    cases hp : p a with
    | true =>
      have hfilter : lastWrite w ((as ++ a :: bs).filter p) = some b := by
        rw [List.filter_append, List.filter_cons_of_pos hp]
        exact (lastWrite_eq_some w).2
          ⟨_, a, _, rfl, ha, fun x hx => hbs x (List.mem_of_mem_filter hx)⟩
      rw [hfilter, Option.getD_some]
      simp [hp]
    | false => simp [ha, hp]

/-- **The register law.** A component that every step either overwrites as `w` says or keeps
holds the last write of the run. `Inv` is what the law may assume of the states of the run. -/
theorem final_eq_lastWrite {σ ι ω γ : Type*} {step : σ → ι → σ × ω} (reg : σ → γ)
    {w : Mealy.Event σ ι ω → Option γ} {Inv : σ → Prop}
    (hinv : ∀ s i, Inv s → Inv (step s i).1)
    (hstep : ∀ s i, Inv s → reg (step s i).1 = (w ⟨s, i, (step s i).2⟩).getD (reg s)) {s : σ}
    (hs : Inv s) (is : List ι) :
    reg (Mealy.final step s is) = (lastWrite w (Mealy.trace step s is)).getD (reg s) := by
  induction is using List.reverseRecOn with
  | nil => rfl
  | append_singleton is i ih =>
    rw [Mealy.final_append, Mealy.trace_append, Mealy.trace_cons, Mealy.trace_nil, lastWrite_concat,
      Mealy.final_cons, Mealy.final_nil, hstep _ _ (Mealy.final_invariant step hinv hs is), ih]
    cases w ⟨Mealy.final step s is, i, (step (Mealy.final step s is) i).2⟩ <;> rfl

end Register
