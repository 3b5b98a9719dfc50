import GlfsNdmp.Lib.Lts
import Mathlib.Algebra.BigOperators.Group.Finset.Basic
import Mathlib.Algebra.Order.Group.Multiset
import Mathlib.Data.Fintype.Basic

/-!
# What a run conserves, and how long it lasts

Two rules for runs. Where every step accounts for what it brings in and what it gives away, a run
does (`Run.conserved`). Where every step lowers a variant, a run is no longer than the variant
(`Run.length_le`), and some run goes on until no step is possible (`exists_stuck`).
-/

namespace Lts

variable {σ α β : Type*} {exec : σ → α → Option σ} {ok : σ → α → Prop} {s t : σ} {as : List α}

/-- **What has come in is held or has gone out.** -/
theorem Run.conserved {held : σ → Multiset β} {inn out : σ → α → List β}
    (run : Run exec ok s as t)
    (hstep : ∀ {s a t}, exec s a = some t →
      held t + (out s a : Multiset β) = held s + (inn s a : Multiset β)) :
    held t + (log exec out s as : Multiset β) = held s + (log exec inn s as : Multiset β) := by
  induction run with
  | nil => rfl
  | @concat t u as a run _ hexec ih =>
    have hlast := hstep hexec
    rw [run.log_concat, run.log_concat, ← Multiset.coe_add, ← Multiset.coe_add]
    calc held u + ((log exec out s as : Multiset β) + (out t a : Multiset β))
        = held u + (out t a : Multiset β) + (log exec out s as : Multiset β) := by
          rw [add_comm (log exec out s as : Multiset β), add_assoc]
      _ = held t + (log exec out s as : Multiset β) + (inn t a : Multiset β) := by
          rw [hlast, add_right_comm]
      _ = held s + ((log exec inn s as : Multiset β) + (inn t a : Multiset β)) := by
          rw [ih, add_assoc]

/-! ## Variants -/

/-- Every allowed step lowers the variant: `V s n` says that `n` steps are enough in `s`. -/
def Lowers (exec : σ → α → Option σ) (ok : σ → α → Prop) (V : σ → Nat → Prop) : Prop :=
  ∀ {s a t n}, V s n → ok s a → exec s a = some t → ∃ m < n, V t m

/-- **A run is no longer than the variant.** -/
theorem Run.length_le {V : σ → Nat → Prop} (run : Run exec ok s as t) (hV : Lowers exec ok V)
    {n : Nat} (hs : V s n) : ∃ m, as.length + m ≤ n ∧ V t m := by
  induction run with
  | nil => exact ⟨n, by simp, hs⟩
  | concat _ hok hexec ih =>
    obtain ⟨m, hm, ht⟩ := ih
    obtain ⟨k, hk, hu⟩ := hV ht hok hexec
    refine ⟨k, ?_, hu⟩
    rw [List.length_append, List.length_singleton]
    omega

/-- **With a variant, runs come to an end.** -/
theorem exists_stuck {V : σ → Nat → Prop} (hV : Lowers exec ok V) {n : Nat} (hs : V s n) :
    ∃ as t, Run exec ok s as t ∧ ∀ a, ok t a → exec t a = none := by
  induction n using Nat.strong_induction_on generalizing s with
  | _ n ih =>
    by_cases hstuck : ∀ a, ok s a → exec s a = none
    · exact ⟨[], s, .nil s, hstuck⟩
    · push Not at hstuck
      obtain ⟨a, hok, hsome⟩ := hstuck
      obtain ⟨u, hu⟩ := Option.ne_none_iff_exists'.1 hsome
      obtain ⟨m, hm, hVu⟩ := hV hs hok hu
      obtain ⟨as, t, run, hend⟩ := ih m hm hVu
      exact ⟨a :: as, t, .cons hok hu run, hend⟩

end Lts

/-! ## Totals -/

/-- What the total of a family gains and loses when one member changes. -/
theorem sum_update {ι γ M : Type*} [Fintype ι] [DecidableEq ι] [AddCommMonoid M] (w : γ → M)
    (f : ι → γ) (i : ι) (x : γ) :
    ∑ j, w (Function.update f i x j) + w (f i) = ∑ j, w (f j) + w x := by
  have hothers : ∑ j ∈ Finset.univ.erase i, w (Function.update f i x j) =
      ∑ j ∈ Finset.univ.erase i, w (f j) :=
    Finset.sum_congr rfl fun j hj => by rw [Function.update_of_ne (Finset.ne_of_mem_erase hj)]
  rw [← Finset.add_sum_erase _ _ (Finset.mem_univ i), hothers, Function.update_self,
    ← Finset.add_sum_erase _ (fun j => w (f j)) (Finset.mem_univ i), add_right_comm,
    add_comm (w x), add_right_comm]
