import Mathlib.Data.List.Basic
import Mathlib.Data.List.Induction

/-!
# Runs of a machine with outputs

A machine is a function `step : σ → ι → σ × ω`. `final` is the state after a list of inputs and
`trace` what happened on the way: the state each input met, the input, and the output.

Every fact about a whole run is proved from one step: an invariant by `final_invariant`, a
statement about a place in the run by splitting the trace there (`trace_eq_append_cons`).
-/

namespace Mealy

/-- The places of a list with one more element: the old places, and the last. -/
theorem forall_place_concat {α : Type*} {P : List α → α → Prop} (l : List α) (a : α) :
    (∀ as x bs, l ++ [a] = as ++ x :: bs → P as x) ↔
      (∀ as x bs, l = as ++ x :: bs → P as x) ∧ P l a := by
  constructor
  · intro hP
    exact ⟨fun as x bs hx => hP as x (bs ++ [a]) (by simp [hx]), hP l a [] rfl⟩
  · rintro ⟨hP, hlast⟩ as x bs hx
    rcases List.eq_nil_or_concat bs with rfl | ⟨bs, y, rfl⟩
    · obtain ⟨rfl, hxs⟩ := List.append_inj' hx rfl
      obtain ⟨rfl, -⟩ := List.cons.inj hxs
      exact hlast
    · rw [List.concat_eq_append, ← List.cons_append, ← List.append_assoc] at hx
      exact hP as x bs (List.append_inj' hx rfl).1

variable {σ ι ω : Type*}

/-- One step of a run: the state it started in, its input and its output. -/
structure Event (σ ι ω : Type*) where
  before : σ
  input : ι
  output : ω

/-- The state after a list of inputs. -/
def final (step : σ → ι → σ × ω) (s : σ) : List ι → σ
  | [] => s
  | i :: is => final step (step s i).1 is

/-- The steps of a run, in order. -/
def trace (step : σ → ι → σ × ω) (s : σ) : List ι → List (Event σ ι ω)
  | [] => []
  | i :: is => ⟨s, i, (step s i).2⟩ :: trace step (step s i).1 is

variable (step : σ → ι → σ × ω)

@[simp] theorem final_nil (s : σ) : final step s [] = s := rfl

@[simp] theorem final_cons (s : σ) (i : ι) (is : List ι) :
    final step s (i :: is) = final step (step s i).1 is := rfl

@[simp] theorem trace_nil (s : σ) : trace step s [] = [] := rfl

@[simp] theorem trace_cons (s : σ) (i : ι) (is : List ι) :
    trace step s (i :: is) = ⟨s, i, (step s i).2⟩ :: trace step (step s i).1 is := rfl

theorem final_append (s : σ) (as bs : List ι) :
    final step s (as ++ bs) = final step (final step s as) bs := by
  induction as generalizing s with
  | nil => rfl
  | cons a as ih => exact ih _

theorem trace_append (s : σ) (as bs : List ι) :
    trace step s (as ++ bs) = trace step s as ++ trace step (final step s as) bs := by
  induction as generalizing s with
  | nil => rfl
  | cons a as ih => simp [ih]

/-- What every step keeps, every run keeps. -/
theorem final_invariant {Inv : σ → Prop} (hstep : ∀ s i, Inv s → Inv (step s i).1) {s : σ}
    (hs : Inv s) (is : List ι) : Inv (final step s is) := by
  induction is generalizing s with
  | nil => exact hs
  | cons i is ih => exact ih (hstep s i hs)

/-- The events of a run are steps from states the invariant holds in. -/
theorem event_invariant {Inv : σ → Prop} (hstep : ∀ s i, Inv s → Inv (step s i).1) {s : σ}
    (hs : Inv s) {is : List ι} {e : Event σ ι ω} (he : e ∈ trace step s is) :
    Inv e.before ∧ e.output = (step e.before e.input).2 := by
  induction is generalizing s with
  | nil => cases he
  | cons i is ih =>
    rcases List.mem_cons.1 he with rfl | he
    · exact ⟨hs, rfl⟩
    · exact ih (hstep s i hs) he

/-- In a run on inputs of one kind, an invariant that these keep holds before every event. -/
theorem event_invariant_of_mem {Inv : σ → Prop} {P : ι → Prop}
    (hstep : ∀ s i, P i → Inv s → Inv (step s i).1) {s : σ} (hs : Inv s) {is : List ι}
    (his : ∀ i ∈ is, P i) {e : Event σ ι ω} (he : e ∈ trace step s is) : Inv e.before := by
  induction is generalizing s with
  | nil => cases he
  | cons i is ih =>
    rw [List.forall_mem_cons] at his
    rcases List.mem_cons.1 he with rfl | he
    · exact hs
    · exact ih (hstep s i his.1 hs) his.2 he

/-- A log that every step extends by what its event determines holds what all events added. -/
theorem final_eq_flatMap {β : Type*} (log : σ → List β) {out : Event σ ι ω → List β}
    (hstep : ∀ s i, log (step s i).1 = log s ++ out ⟨s, i, (step s i).2⟩) (s : σ) (is : List ι) :
    log (final step s is) = log s ++ (trace step s is).flatMap out := by
  induction is generalizing s with
  | nil => simp
  | cons i is ih => rw [final_cons, ih, hstep, trace_cons, List.flatMap_cons, List.append_assoc]

/-- A place in the trace is a place in the inputs. -/
theorem trace_eq_append_cons {s : σ} {is : List ι} {pre post : List (Event σ ι ω)}
    {e : Event σ ι ω} (h : trace step s is = pre ++ e :: post) :
    ∃ as bs, is = as ++ e.input :: bs ∧ pre = trace step s as ∧ e.before = final step s as ∧
      e.output = (step e.before e.input).2 ∧ post = trace step (step e.before e.input).1 bs := by
  induction is generalizing s pre with
  | nil => simp at h
  | cons i is ih =>
    cases pre with
    | nil =>
      simp only [trace_cons, List.nil_append, List.cons.injEq] at h
      obtain ⟨rfl, rfl⟩ := h
      exact ⟨[], is, rfl, rfl, rfl, rfl, rfl⟩
    | cons x pre =>
      simp only [trace_cons, List.cons_append, List.cons.injEq] at h
      obtain ⟨rfl, h⟩ := h
      obtain ⟨as, bs, rfl, rfl, hbefore, hout, rfl⟩ := ih h
      exact ⟨i :: as, bs, rfl, rfl, hbefore, hout, rfl⟩

/-- Every place in the inputs is a place in the trace. -/
theorem trace_append_cons (s : σ) (as bs : List ι) (i : ι) :
    trace step s (as ++ i :: bs) = trace step s as ++
      ⟨final step s as, i, (step (final step s as) i).2⟩ ::
        trace step (step (final step s as) i).1 bs := by
  rw [trace_append, trace_cons]

end Mealy
