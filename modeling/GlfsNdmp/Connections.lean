import GlfsNdmp.Pipeline
import Mathlib.Data.List.Nodup

/-!
# Descriptors and connections

What holds between the open descriptors, `ctx->sessions` and the connections the loop has accepted,
in every run and for any number of workers: a descriptor stands for one connection at a time, it is
in `ctx->sessions` from shortly after `accept` until shortly after `close`, and a connection that
has been terminated is not open again.
-/

namespace GlfsNdmp.Pipeline

/-- The connection the loop is working on while its descriptor is open. -/
def MainPc.opened : MainPc → Option (Nat × Nat)
  | .accepted fd conn | .announced fd conn | .closing fd conn => some (fd, conn)
  | _ => none

/-- The connection whose descriptor the loop has closed and whose session is not terminated yet. -/
def MainPc.ended : MainPc → Option (Nat × Nat)
  | .closed fd conn | .find fd conn | .insert fd conn | .mark fd conn _ => some (fd, conn)
  | _ => none

/-- The connection whose accept job is not queued yet. -/
def MainPc.announcing : MainPc → Option (Nat × Nat)
  | .accepted fd conn | .announced fd conn => some (fd, conn)
  | _ => none

variable {ι : Type*}

/-- The connection `fd` stands for, up to the end of `terminate_session`. -/
def State.Current (s : State ι) (fd conn : Nat) : Prop :=
  s.kernel fd = some conn ∨ s.main.ended = some (fd, conn)

/-- How descriptors, sessions and connections fit together. -/
structure Connections (s : State ι) : Prop where
  opened : ∀ fd conn, s.main.opened = some (fd, conn) → s.kernel fd = some conn
  ended : ∀ fd conn, s.main.ended = some (fd, conn) → s.kernel fd = none
  current_lt : ∀ fd conn, s.Current fd conn → conn < s.nextConn
  current_inj : ∀ fd fd' conn, s.Current fd conn → s.Current fd' conn → fd = fd'
  sessions_nodup : s.sessions.Nodup
  sessions : ∀ fd ∈ s.sessions, s.kernel fd = none → ∃ conn, s.main = .closed fd conn
  accepted : ∀ fd conn, s.main = .accepted fd conn → fd ∉ s.sessions
  mem_sessions : ∀ fd conn, s.kernel fd = some conn → s.main = .accepted fd conn ∨ fd ∈ s.sessions
  closed : ∀ fd conn, s.main = .closed fd conn → fd ∈ s.sessions
  terminated : ∀ conn ∈ s.terminated, conn < s.nextConn ∧ ∀ fd, ¬ s.Current fd conn

theorem connections_start : Connections (start : State ι) where
  opened _ _ h := by cases h
  ended _ _ h := by cases h
  current_lt _ _ h := by rcases h with h | h <;> cases h
  current_inj _ _ _ h := by rcases h with h | h <;> cases h
  sessions_nodup := List.nodup_nil
  sessions _ h := by cases h
  accepted _ _ h := by cases h
  mem_sessions _ _ h := by cases h
  closed _ _ h := by cases h
  terminated _ h := by cases h

/-- At most one connection stands behind a descriptor. -/
theorem Connections.current_unique {s : State ι} (h : Connections s) {fd conn conn' : Nat}
    (hc : s.Current fd conn) (hc' : s.Current fd conn') : conn = conn' := by
  rcases hc with hc | hc <;> rcases hc' with hc' | hc'
  · exact Option.some.inj (hc.symm.trans hc')
  · cases (h.ended fd conn' hc').symm.trans hc
  · cases (h.ended fd conn hc).symm.trans hc'
  · cases hc.symm.trans hc'
    rfl

/-- Except right after `close`, what is in `ctx->sessions` is open. -/
theorem Connections.open_of_mem {s : State ι} (h : Connections s)
    (hmain : ∀ fd conn, s.main ≠ .closed fd conn) {fd : Nat} (hfd : fd ∈ s.sessions) :
    s.kernel fd ≠ none := by
  intro hfree
  obtain ⟨conn, hclosed⟩ := h.sessions fd hfd hfree
  exact hmain fd conn hclosed

/-- Except right after `accept`, what is open is in `ctx->sessions`. -/
theorem Connections.mem_of_open {s : State ι} (h : Connections s)
    (hmain : ∀ fd conn, s.main ≠ .accepted fd conn) {fd conn : Nat}
    (hopen : s.kernel fd = some conn) : fd ∈ s.sessions := by
  rcases h.mem_sessions fd conn hopen with hc | hfd
  · exact absurd hc (hmain fd conn)
  · exact hfd

variable [DecidableEq ι]

/-- A connection becomes current when it is accepted, and only then. -/
theorem Connections.current_of_step {s s' : State ι} {a : Action ι} (h : Connections s)
    (hstep : Step s a s') {fd conn : Nat} (hc : s'.Current fd conn) :
    s.Current fd conn ∨ a = .accept fd ∧ conn = s.nextConn := by
  cases hstep with
  | @accept fd' hmain hfree =>
    rcases hc with hc | ⟨⟨⟩⟩
    rcases open_of_update hc with ⟨rfl, ⟨⟩⟩ | ⟨-, hc⟩
    · exact Or.inr ⟨rfl, rfl⟩
    · exact Or.inl (Or.inl hc)
  | hangup | announce | connect =>
    rcases hc with hc | ⟨⟨⟩⟩
    exact Or.inl (Or.inl hc)
  | @close fd' conn' hmain =>
    left
    rcases hc with hc | hc
    · rcases open_of_update hc with ⟨-, ⟨⟩⟩ | ⟨-, hc⟩
      exact Or.inl hc
    · cases hc
      exact Or.inl (h.opened fd conn (by rw [hmain]; rfl))
  | forget hmain | hit hmain | miss hmain | insert hmain =>
    rcases hc with hc | ⟨⟨⟩⟩
    · exact Or.inl (Or.inl hc)
    · exact Or.inl (Or.inr (by rw [hmain]; rfl))
  | mark hmain =>
    rcases hc with hc | ⟨⟨⟩⟩
    exact Or.inl (Or.inl hc)
  | _ => exact Or.inl hc

/-- A connection stays current until its session is marked. -/
theorem Connections.current_or_mark {s s' : State ι} {a : Action ι} (h : Connections s)
    (hstep : Step s a s') {fd conn : Nat} (hc : s.Current fd conn) :
    s'.Current fd conn ∨ a = .main ∧ ∃ x, s.main = .mark fd conn x := by
  cases hstep with
  | @accept fd' hmain hfree =>
    rcases hc with hc | hc
    · have hne : fd ≠ fd' := by
        rintro rfl
        cases hfree.symm.trans hc
      exact Or.inl (Or.inl ((Function.update_of_ne hne _ _).trans hc))
    · rw [hmain] at hc
      cases hc
  | hangup hmain | announce hmain | connect hmain =>
    rcases hc with hc | hc
    · exact Or.inl (Or.inl hc)
    · rw [hmain] at hc
      cases hc
  | @close fd' conn' hmain =>
    rcases hc with hc | hc
    · by_cases hne : fd = fd'
      · subst hne
        cases (h.opened fd conn' (by rw [hmain]; rfl)).symm.trans hc
        exact Or.inl (Or.inr rfl)
      · exact Or.inl (Or.inl ((Function.update_of_ne hne _ _).trans hc))
    · rw [hmain] at hc
      cases hc
  | forget hmain | hit hmain | miss hmain | insert hmain =>
    rcases hc with hc | hc
    · exact Or.inl (Or.inl hc)
    · rw [hmain] at hc
      exact Or.inl (Or.inr hc)
  | mark hmain =>
    rcases hc with hc | hc
    · exact Or.inl (Or.inl hc)
    · rw [hmain] at hc
      cases hc
      exact Or.inr ⟨rfl, _, hmain⟩
  | _ => exact Or.inl hc

theorem nextConn_le {s s' : State ι} {a : Action ι} (h : Step s a s') :
    s.nextConn ≤ s'.nextConn := by
  cases h with
  | accept => exact Nat.le_succ _
  | _ => exact Nat.le_refl _

theorem Connections.step_current {s s' : State ι} {a : Action ι} (h : Connections s)
    (hstep : Step s a s') {fd conn : Nat} (hc : s'.Current fd conn) : conn < s'.nextConn := by
  rcases h.current_of_step hstep hc with hc | ⟨rfl, rfl⟩
  · exact Nat.lt_of_lt_of_le (h.current_lt fd conn hc) (nextConn_le hstep)
  · cases hstep
    exact Nat.lt_succ_self _

theorem Connections.step_opened {s s' : State ι} {a : Action ι} (h : Connections s)
    (hstep : Step s a s') {fd conn : Nat} (hc : s'.main.opened = some (fd, conn)) :
    s'.kernel fd = some conn := by
  cases hstep with
  | accept =>
    cases hc
    exact Function.update_self _ _ _
  | hangup _ hopen =>
    cases hc
    exact hopen
  | announce hmain =>
    cases hc
    exact h.opened fd conn (by rw [hmain]; rfl)
  | connect | close | forget | hit | miss | insert | mark => cases hc
  | _ => exact h.opened fd conn hc

theorem Connections.step_ended {s s' : State ι} {a : Action ι} (h : Connections s)
    (hstep : Step s a s') {fd conn : Nat} (hc : s'.main.ended = some (fd, conn)) :
    s'.kernel fd = none := by
  cases hstep with
  | close =>
    cases hc
    exact Function.update_self _ _ _
  | forget hmain | hit hmain | miss hmain | insert hmain =>
    cases hc
    exact h.ended fd conn (by rw [hmain]; rfl)
  | accept | hangup | announce | connect | mark => cases hc
  | _ => exact h.ended fd conn hc

/-- A session is listed until its descriptor is closed, and a little longer. -/
theorem Connections.step_sessions {s s' : State ι} {a : Action ι} (h : Connections s)
    (hstep : Step s a s') {fd : Nat} (hfd : fd ∈ s'.sessions) (hfree : s'.kernel fd = none) :
    ∃ conn, s'.main = .closed fd conn := by
  cases hstep with
  | accept hmain =>
    rcases free_of_update hfree with ⟨-, ⟨⟩⟩ | ⟨-, hfree⟩
    exact absurd hfree (h.open_of_mem (by simp [hmain]) hfd)
  | @announce fd' conn' hmain =>
    rcases List.mem_append.1 hfd with hfd | hfd
    · exact absurd hfree (h.open_of_mem (by simp [hmain]) hfd)
    · cases List.mem_singleton.1 hfd
      cases (h.opened fd conn' (by rw [hmain]; rfl)).symm.trans hfree
  | @close fd' conn' hmain =>
    rcases free_of_update hfree with ⟨rfl, -⟩ | ⟨-, hfree⟩
    · exact ⟨conn', rfl⟩
    · exact absurd hfree (h.open_of_mem (by simp [hmain]) hfd)
  | @forget fd' conn' hmain =>
    obtain ⟨hne, hfd⟩ := (h.sessions_nodup.mem_erase_iff).1 hfd
    obtain ⟨conn, hc⟩ := h.sessions fd hfd hfree
    cases hmain.symm.trans hc
    exact absurd rfl hne
  | hangup hmain | connect hmain | hit hmain | miss hmain | insert hmain | mark hmain =>
    exact absurd hfree (h.open_of_mem (by simp [hmain]) hfd)
  | _ => exact h.sessions fd hfd hfree

/-- It is listed from soon after its descriptor is opened. -/
theorem Connections.step_mem_sessions {s s' : State ι} {a : Action ι} (h : Connections s)
    (hstep : Step s a s') {fd conn : Nat} (hopen : s'.kernel fd = some conn) :
    s'.main = .accepted fd conn ∨ fd ∈ s'.sessions := by
  cases hstep with
  | accept hmain =>
    rcases open_of_update hopen with ⟨rfl, ⟨⟩⟩ | ⟨-, hopen⟩
    · exact Or.inl rfl
    · exact Or.inr (h.mem_of_open (by simp [hmain]) hopen)
  | announce hmain =>
    right
    rcases h.mem_sessions fd conn hopen with hc | hfd
    · cases hmain.symm.trans hc
      exact List.mem_append_right _ (List.mem_singleton_self _)
    · exact List.mem_append_left _ hfd
  | close hmain =>
    rcases open_of_update hopen with ⟨-, ⟨⟩⟩ | ⟨-, hopen⟩
    exact Or.inr (h.mem_of_open (by simp [hmain]) hopen)
  | @forget fd' conn' hmain =>
    have hne : fd ≠ fd' := by
      rintro rfl
      cases (h.ended fd conn' (by rw [hmain]; rfl)).symm.trans hopen
    exact Or.inr ((List.mem_erase_of_ne hne).2 (h.mem_of_open (by simp [hmain]) hopen))
  | hangup hmain | connect hmain | hit hmain | miss hmain | insert hmain | mark hmain =>
    exact Or.inr (h.mem_of_open (by simp [hmain]) hopen)
  | _ => exact h.mem_sessions fd conn hopen

/-- A terminated connection never comes back. -/
theorem Connections.step_terminated {s s' : State ι} {a : Action ι} (h : Connections s)
    (hstep : Step s a s') {conn : Nat} (hconn : conn ∈ s'.terminated) :
    conn < s'.nextConn ∧ ∀ fd, ¬ s'.Current fd conn := by
  have hold : conn ∈ s.terminated → conn < s'.nextConn ∧ ∀ fd, ¬ s'.Current fd conn := by
    intro hconn
    obtain ⟨hlt, hnot⟩ := h.terminated conn hconn
    refine ⟨Nat.lt_of_lt_of_le hlt (nextConn_le hstep), fun fd hc => ?_⟩
    rcases h.current_of_step hstep hc with hc | ⟨-, rfl⟩
    · exact hnot fd hc
    · exact Nat.lt_irrefl _ hlt
  cases hstep with
  | @mark fd' conn' _ hmain =>
    rcases List.mem_append.1 hconn with hconn | hconn
    · exact hold hconn
    · cases List.mem_singleton.1 hconn
      have hended : s.Current fd' conn := Or.inr (by rw [hmain]; rfl)
      refine ⟨h.current_lt fd' conn hended, fun fd hc => ?_⟩
      rcases hc with hc | ⟨⟨⟩⟩
      have heq : fd = fd' := h.current_inj fd fd' conn (Or.inl hc) hended
      subst heq
      cases (h.ended fd conn (by rw [hmain]; rfl)).symm.trans hc
  | _ => exact hold hconn

theorem Connections.step {s s' : State ι} {a : Action ι} (h : Connections s)
    (hstep : Step s a s') : Connections s' where
  opened _ _ hc := h.step_opened hstep hc
  ended _ _ hc := h.step_ended hstep hc
  current_lt fd conn hc := h.step_current hstep hc
  current_inj fd fd' conn hc hc' := by
    rcases h.current_of_step hstep hc with hc | ⟨rfl, rfl⟩ <;>
      rcases h.current_of_step hstep hc' with hc' | ⟨heq, hnext⟩
    · exact h.current_inj fd fd' conn hc hc'
    · exact absurd hnext (Nat.ne_of_lt (h.current_lt fd conn hc))
    · exact absurd (h.current_lt fd' _ hc') (Nat.lt_irrefl _)
    · cases heq
      rfl
  sessions_nodup := by
    cases hstep with
    | @announce fd conn hmain =>
      refine List.nodup_append.2 ⟨h.sessions_nodup, List.nodup_singleton _, fun fd' hfd' x hx => ?_⟩
      rw [List.mem_singleton.1 hx]
      exact fun heq => h.accepted fd conn hmain (heq ▸ hfd')
    | forget => exact h.sessions_nodup.erase _
    | _ => exact h.sessions_nodup
  sessions _ hfd hfree := h.step_sessions hstep hfd hfree
  accepted fd conn hc hfd := by
    cases hstep with
    | accept hmain hfree =>
      cases hc
      exact absurd hfree (h.open_of_mem (by simp [hmain]) hfd)
    | hangup | announce | connect | close | forget | hit | miss | insert | mark => cases hc
    | _ => exact h.accepted fd conn hc hfd
  mem_sessions _ _ hopen := h.step_mem_sessions hstep hopen
  closed fd conn hc := by
    cases hstep with
    | close hmain =>
      cases hc
      exact h.mem_of_open (by simp [hmain]) (h.opened fd conn (by rw [hmain]; rfl))
    | accept | hangup | announce | connect | forget | hit | miss | insert | mark => cases hc
    | _ => exact h.closed fd conn hc
  terminated _ hconn := h.step_terminated hstep hconn

/-- The loop is about to insert or mark a record in `terminate_session`. -/
def MainPc.terminating : MainPc → Option Nat
  | .insert fd _ | .mark fd _ _ => some fd
  | _ => none

theorem MainPc.ended_of_terminating {pc : MainPc} {fd : Nat} (h : pc.terminating = some fd) :
    ∃ conn, pc.ended = some (fd, conn) := by
  cases pc with
  | insert fd' conn | mark fd' conn =>
    cases h
    exact ⟨conn, rfl⟩
  | _ => cases h

omit [DecidableEq ι] in
/-- `terminate_session` is not running for an open descriptor. -/
theorem Connections.not_terminating {s : State ι} (h : Connections s) {fd conn : Nat}
    (hopen : s.kernel fd = some conn) : s.main.terminating ≠ some fd := by
  intro hterm
  obtain ⟨conn', hended⟩ := MainPc.ended_of_terminating hterm
  cases (h.ended fd conn' hended).symm.trans hopen

end GlfsNdmp.Pipeline
