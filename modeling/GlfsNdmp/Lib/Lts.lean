import Mathlib.Data.List.Basic

/-!
# Runs of an interleaving system

A system is a partial function `exec : σ → α → Option σ`: the state an action leads to, or `none`
where the action is not enabled. The action names the thread that moves, so a list of actions is a
schedule. `Run exec ok s as t` says that the schedule `as` leads from `s` to `t` and that each of
its actions meets `ok` in the state it starts from.
-/

namespace Lts

variable {σ α : Type*}

/-- A run whose steps all meet `ok`. -/
inductive Run (exec : σ → α → Option σ) (ok : σ → α → Prop) : σ → List α → σ → Prop
  | nil (s : σ) : Run exec ok s [] s
  | concat {s t u : σ} {as : List α} {a : α} (run : Run exec ok s as t) (hok : ok t a)
      (hstep : exec t a = some u) : Run exec ok s (as ++ [a]) u

variable {exec : σ → α → Option σ} {ok ok' : σ → α → Prop} {s t u : σ} {as bs : List α}

/-- What every step keeps, every run keeps. -/
theorem Run.invariant {Inv : σ → Prop} (run : Run exec ok s as t)
    (hstep : ∀ {s a t}, Inv s → ok s a → exec s a = some t → Inv t) (hs : Inv s) : Inv t := by
  induction run with
  | nil => exact hs
  | concat _ hok he ih => exact hstep ih hok he

theorem Run.mono (run : Run exec ok s as t) (h : ∀ s a, ok s a → ok' s a) :
    Run exec ok' s as t := by
  induction run with
  | nil => exact .nil _
  | concat _ hok he ih => exact .concat ih (h _ _ hok) he

theorem Run.append (run : Run exec ok s as t) (run' : Run exec ok t bs u) :
    Run exec ok s (as ++ bs) u := by
  induction run' with
  | nil => simpa using run
  | concat _ hok he ih =>
    rw [← List.append_assoc]
    exact .concat ih hok he

theorem Run.cons {a : α} (hok : ok s a) (hstep : exec s a = some t) (run : Run exec ok t as u) :
    Run exec ok s (a :: as) u :=
  Run.append (.concat (.nil s) hok hstep) run

/-! ## Schedules -/

/-- The state a schedule leads to. -/
def execAll (exec : σ → α → Option σ) (s : σ) : List α → Option σ
  | [] => some s
  | a :: as => (exec s a).bind fun t => execAll exec t as

theorem Run.of_execAll (h : execAll exec s as = some t) :
    Run exec (fun _ _ => True) s as t := by
  induction as generalizing s with
  | nil =>
    cases h
    exact .nil _
  | cons a as ih =>
    obtain ⟨s', hs', h⟩ := Option.bind_eq_some_iff.1 h
    exact .cons trivial hs' (ih h)

theorem execAll_append (s : σ) (as bs : List α) :
    execAll exec s (as ++ bs) = (execAll exec s as).bind fun t => execAll exec t bs := by
  induction as generalizing s with
  | nil => rfl
  | cons a as ih =>
    show (exec s a).bind _ = ((exec s a).bind _).bind _
    rw [Option.bind_assoc]
    exact Option.bind_congr fun t _ => ih t

theorem Run.execAll_eq (run : Run exec ok s as t) : execAll exec s as = some t := by
  induction run with
  | nil => rfl
  | concat _ _ hstep ih =>
    rw [execAll_append, ih]
    show (exec _ _).bind _ = _
    rw [hstep]
    rfl

/-- What the steps of a run that is one step longer meet. The run is the one of its schedule, so
what holds it together before the last step does not matter. -/
theorem Run.concat_iff (run : Run exec ok s as t) {a : α} (hstep : exec t a = some u) :
    Run exec ok' s (as ++ [a]) u ↔ Run exec ok' s as t ∧ ok' t a := by
  constructor
  · intro run'
    generalize hbs : as ++ [a] = bs at run'
    cases run' with
    | nil => simp at hbs
    | @concat t' _ as' a' run' hok' hstep' =>
      obtain ⟨rfl, heq⟩ := List.append_inj' hbs rfl
      cases heq
      have ht : t' = t := Option.some.inj (run'.execAll_eq.symm.trans run.execAll_eq)
      rw [ht] at run' hok'
      exact ⟨run', hok'⟩
  · intro ⟨run', hok'⟩
    exact .concat run' hok' hstep

/-- The state a schedule leads to, if each of its actions is enabled and meets `ok`. -/
def execWhile (exec : σ → α → Option σ) (ok : σ → α → Prop) [∀ s a, Decidable (ok s a)] (s : σ) :
    List α → Option σ
  | [] => some s
  | a :: as => if ok s a then (exec s a).bind fun t => execWhile exec ok t as else none

theorem Run.of_execWhile [∀ s a, Decidable (ok s a)] (h : execWhile exec ok s as = some t) :
    Run exec ok s as t := by
  induction as generalizing s with
  | nil =>
    cases h
    exact .nil _
  | cons a as ih =>
    unfold execWhile at h
    split at h
    · rename_i hok
      obtain ⟨s', hs', h⟩ := Option.bind_eq_some_iff.1 h
      exact .cons hok hs' (ih h)
    · cases h

/-- A schedule that is enabled, and what its last state passes. -/
theorem Run.exists_of_execAll {p : σ → Bool} (h : (execAll exec s as).any p) :
    ∃ t, Run exec (fun _ _ => True) s as t ∧ p t := by
  obtain ⟨t, ht, hp⟩ := (Option.any_eq_true _ _).1 h
  exact ⟨t, .of_execAll ht, hp⟩

theorem Run.exists_of_execWhile [∀ s a, Decidable (ok s a)] {p : σ → Bool}
    (h : (execWhile exec ok s as).any p) : ∃ t, Run exec ok s as t ∧ p t := by
  obtain ⟨t, ht, hp⟩ := (Option.any_eq_true _ _).1 h
  exact ⟨t, .of_execWhile ht, hp⟩

/-! ## Logs -/

/-- What the steps of a schedule give out, one after the other. -/
def log {β : Type*} (exec : σ → α → Option σ) (out : σ → α → List β) (s : σ) : List α → List β
  | [] => []
  | a :: as => out s a ++ ((exec s a).map fun t => log exec out t as).getD []

theorem log_append {β : Type*} (out : σ → α → List β) (s : σ) (as bs : List α) :
    log exec out s (as ++ bs) =
      log exec out s as ++ ((execAll exec s as).map fun t => log exec out t bs).getD [] := by
  induction as generalizing s with
  | nil => rfl
  | cons a as ih =>
    show out s a ++ _ = (out s a ++ _) ++ _
    rw [List.append_assoc]
    congr 1
    cases hstep : exec s a with
    | none => simp [execAll, hstep]
    | some t => simp [execAll, hstep, ih]

/-- A run that is one step longer gives out what its last step does. -/
theorem Run.log_concat {β : Type*} {out : σ → α → List β} (run : Run exec ok s as t) (a : α) :
    log exec out s (as ++ [a]) = log exec out s as ++ out t a := by
  rw [log_append, run.execAll_eq]
  cases hstep : exec t a <;> simp [log, hstep]

end Lts
