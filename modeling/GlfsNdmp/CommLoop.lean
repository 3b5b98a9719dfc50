import GlfsNdmp.Lib.Lts
import GlfsNdmp.Protocol
import Mathlib.Data.List.Nodup
import Mathlib.Logic.Function.Basic

/-!
# The comm loop

`comm_listen` of `comm.c`. Each turn of its loop builds a descriptor set out of `ctx->sessions`,
hands it to `select`, and then either accepts a connection or walks over all numbers up to
`ctx->maxfds` and serves the ones that are left in the set, taking closed connections off the list
while it walks. No other thread changes the list.

What the operating system answers in a turn is a `Round`. It may clear bits of the set as it likes
and reuse the numbers of closed connections (`Permitted`). It may also hand out numbers the set has
no bit for, which nobody checks.

`sessionsOpen_of_run`: as long as all descriptors have their bits, the sessions are the open
connections, each of them once and none beyond `maxfds`, and every walk finds a session for each
descriptor it serves and serves each ready one once.
-/

namespace GlfsNdmp.CommLoop

/-! ## The code -/

/-- `FD_SETSIZE`. -/
def fdSetSize : Nat := 1024

/-- `fd_set`, and the bits behind it. -/
abbrev FdSet := Nat → Bool

/-- `FD_ZERO`. -/
def fdZero : FdSet := fun _ => false

/-- `FD_SET`, which computes the place of the bit without a check: `none` where it is not in the
set. -/
def fdSet (fd : Nat) (fds : FdSet) : Option FdSet :=
  if fd < fdSetSize then some (Function.update fds fd true) else none

/-- `FD_ISSET`, in the same way. -/
def fdIsset (fd : Nat) (fds : FdSet) : Option Bool := if fd < fdSetSize then some (fds fd) else none

/-- `struct client_endpoint`. -/
structure ClientEndpoint where
  client : CString
  fd : Nat
  deriving DecidableEq, Repr

/-- `struct session`. -/
structure Session where
  sessionId : Nat
  clientInfo : ClientEndpoint
  deriving DecidableEq, Repr

/-- `struct client_txn` as the loop queues it; the accept job has no length. -/
structure Txn where
  clientSession : Session
  isTcpConnect : Bool
  length : Option Int
  deriving DecidableEq, Repr

/-- `struct comm_context`, what the loop has put on `request_jobs` and whom it has called
`terminate_session` for, and the connections that are open in the kernel. -/
structure State where
  sessions : List Session
  maxfds : Nat
  requestJobs : List Txn
  terminated : List Nat
  kernel : Nat → Bool

/-- `session_comparator`. -/
def sessionComparator (target : Nat) (elem : Session) : Bool := elem.sessionId == target

/-- `set_fd_flags`. -/
def setFdFlags (listener : Nat) (s : State) : Option FdSet := do
  let fds ← fdSet listener fdZero
  s.sessions.foldlM (fun fds session => fdSet session.sessionId fds) fds

/-- A new connection is put on the list, raises `maxfds`, and gets a pseudo request. -/
def State.connect (s : State) (endpoint : ClientEndpoint) : State :=
  let newSession : Session := ⟨endpoint.fd, endpoint⟩
  { s with
    sessions := s.sessions ++ [newSession]
    maxfds := if endpoint.fd > s.maxfds then endpoint.fd else s.maxfds
    requestJobs := s.requestJobs ++ [⟨newSession, true, none⟩]
    kernel := Function.update s.kernel endpoint.fd true }

/-- `accept_all_connections`, with what `accept` returns: the set with the new descriptor in it, and
the number of new sessions. -/
def acceptAllConnections (endpoint : Option ClientEndpoint) (readSocks : FdSet) (s : State) :
    Option (State × FdSet × Nat) :=
  match endpoint with
  | none => some (s, readSocks, 0)
  | some endpoint =>
    (fdSet endpoint.fd readSocks).map fun readSocks => (s.connect endpoint, readSocks, 1)

/-- `handle_a_client_request`, with the result of `recv`. The element `get_elem` returns is read
without a test: `none` if there is none. -/
def handleAClientRequest (fd : Nat) (length : Int) (s : State) : Option State :=
  (s.sessions.find? (sessionComparator fd)).map fun tmp =>
    if length = 0 then
      { s with
        kernel := Function.update s.kernel fd false
        sessions := s.sessions.eraseP (sessionComparator tmp.sessionId)
        terminated := s.terminated ++ [fd] }
    else { s with requestJobs := s.requestJobs ++ [⟨tmp, false, some length⟩] }

/-- A call of `handle_a_client_request`, with the state it is made in. -/
structure Call where
  fd : Nat
  before : State

/-- The loop of `handle_client_requests` from `i` on, with `n` numbers left: the state after it, and
its calls of `handle_a_client_request`. -/
def handleFrom (readSocks : FdSet) (recv : Nat → Int) :
    Nat → Nat → State → Option (State × List Call)
  | 0, _, s => some (s, [])
  | n + 1, i, s => do
    let ready ← fdIsset i readSocks
    if ready then
      let s' ← handleAClientRequest i (recv i) s
      let (s', calls) ← handleFrom readSocks recv n (i + 1) s'
      some (s', ⟨i, s⟩ :: calls)
    else handleFrom readSocks recv n (i + 1) s

/-- `handle_client_requests`; the walk does not change `ctx->maxfds`. -/
def handleClientRequests (readSocks : FdSet) (recv : Nat → Int) (s : State) :
    Option (State × List Call) :=
  handleFrom readSocks recv (s.maxfds + 1) 0 s

/-- What the operating system answers in one turn of the loop: the set as `select` leaves it (`none`
for `-1`), what `accept` returns, and what `recv` returns on each descriptor. -/
structure Round where
  select : Option FdSet
  accept : Option ClientEndpoint
  recv : Nat → Int

/-- One turn of the loop in `comm_listen`. -/
def commListen (listener : Nat) (s : State) (round : Round) : Option (State × List Call) := do
  let _ ← setFdFlags listener s
  match round.select with
  | none => some (s, [])
  | some readSocks =>
    let ready ← fdIsset listener readSocks
    if ready then
      let (s, _, _) ← acceptAllConnections round.accept readSocks s
      some (s, [])
    else handleClientRequests readSocks round.recv s

/-- `comm_listen` before its loop. -/
def start (listener : Nat) : State where
  sessions := []
  maxfds := listener
  requestJobs := []
  terminated := []
  kernel := fun _ => false

/-- `select` only clears bits of the set, and `accept` returns no descriptor that is open. -/
structure Permitted (listener : Nat) (s : State) (round : Round) : Prop where
  select : ∀ readSocks fds, round.select = some readSocks → setFdFlags listener s = some fds →
    ∀ fd, readSocks fd → fds fd
  accept : ∀ endpoint, round.accept = some endpoint → s.kernel endpoint.fd = false

/-- `accept` returns a descriptor the set has a bit for. -/
def HasBit (round : Round) : Prop :=
  ∀ endpoint, round.accept = some endpoint → endpoint.fd < fdSetSize

/-! ## The set -/

/-- The ids on the list. -/
def State.ids (s : State) : List Nat := s.sessions.map Session.sessionId

theorem fdSet_of_lt {fd : Nat} (h : fd < fdSetSize) (fds : FdSet) :
    fdSet fd fds = some (Function.update fds fd true) := if_pos h

theorem fdIsset_of_lt {fd : Nat} (h : fd < fdSetSize) (fds : FdSet) :
    fdIsset fd fds = some (fds fd) := if_pos h

theorem foldlM_fdSet {sessions : List Session} (h : ∀ session ∈ sessions,
    session.sessionId < fdSetSize) (fds : FdSet) :
    ∃ fds', sessions.foldlM (fun fds session => fdSet session.sessionId fds) fds = some fds' ∧
      ∀ i, fds' i = (fds i || decide (i ∈ sessions.map Session.sessionId)) := by
  induction sessions generalizing fds with
  | nil => exact ⟨fds, rfl, by simp⟩
  | cons session sessions ih =>
    rw [List.forall_mem_cons] at h
    obtain ⟨fds', hfds', hbits⟩ := ih h.2 (Function.update fds session.sessionId true)
    refine ⟨fds', ?_, fun i => ?_⟩
    · rw [List.foldlM_cons, fdSet_of_lt h.1]
      exact hfds'
    · rw [hbits]
      by_cases hi : i = session.sessionId
      · subst hi
        simp
      · simp [hi]

/-- The set holds the listener and the sessions, if it has bits for them. -/
theorem exists_setFdFlags {listener : Nat} {s : State} (hlistener : listener < fdSetSize)
    (h : ∀ fd ∈ s.ids, fd < fdSetSize) :
    ∃ fds, setFdFlags listener s = some fds ∧ ∀ i, fds i ↔ i = listener ∨ i ∈ s.ids := by
  obtain ⟨fds, hfds, hbits⟩ := foldlM_fdSet (fun session hsession =>
    h _ (List.mem_map_of_mem hsession)) (Function.update fdZero listener true)
  refine ⟨fds, ?_, fun i => ?_⟩
  · rw [setFdFlags, fdSet_of_lt hlistener]
    exact hfds
  · rw [hbits]
    by_cases hi : i = listener
    · subst hi
      simp
    · simp [hi, fdZero, State.ids]

/-! ## The list -/

theorem ids_remove (s : State) (fd : Nat) :
    (s.sessions.eraseP (sessionComparator fd)).map Session.sessionId = s.ids.erase fd := by
  rw [State.ids, List.erase_eq_eraseP', List.eraseP_map]
  rfl

theorem find?_of_mem_ids {s : State} {fd : Nat} (h : fd ∈ s.ids) :
    ∃ tmp, s.sessions.find? (sessionComparator fd) = some tmp ∧ tmp.sessionId = fd := by
  obtain ⟨session, hmem, hid⟩ := List.mem_map.1 h
  have hsome : (s.sessions.find? (sessionComparator fd)).isSome :=
    List.find?_isSome.2 ⟨session, hmem, by simp [sessionComparator, hid]⟩
  obtain ⟨tmp, htmp⟩ := Option.isSome_iff_exists.1 hsome
  exact ⟨tmp, htmp, by simpa [sessionComparator] using List.find?_some htmp⟩

/-- The sessions are the open connections, each of them once, and none exceeds `maxfds`, which has a
bit in the set. -/
structure SessionsOpen (listener : Nat) (s : State) : Prop where
  nodup : s.ids.Nodup
  mem_iff_open : ∀ fd, fd ∈ s.ids ↔ s.kernel fd
  le_maxfds : ∀ fd ∈ s.ids, fd ≤ s.maxfds
  listener_le : listener ≤ s.maxfds
  maxfds_lt : s.maxfds < fdSetSize

theorem sessionsOpen_start {listener : Nat} (h : listener < fdSetSize) :
    SessionsOpen listener (start listener) where
  nodup := List.nodup_nil
  mem_iff_open := by simp [State.ids, start]
  le_maxfds := by simp [State.ids, start]
  listener_le := Nat.le_refl _
  maxfds_lt := h

variable {listener : Nat} {s : State}

/-- The set is built, and holds the listener and the sessions. -/
theorem SessionsOpen.exists_set (h : SessionsOpen listener s) :
    ∃ fds, setFdFlags listener s = some fds ∧ ∀ i, fds i ↔ i = listener ∨ i ∈ s.ids :=
  exists_setFdFlags (Nat.lt_of_le_of_lt h.listener_le h.maxfds_lt)
    fun fd hfd => Nat.lt_of_le_of_lt (h.le_maxfds fd hfd) h.maxfds_lt

/-- A new connection is a new session, and `maxfds` goes up to it. -/
theorem SessionsOpen.connect (h : SessionsOpen listener s) {e : ClientEndpoint}
    (hfree : s.kernel e.fd = false) (hbit : e.fd < fdSetSize) :
    SessionsOpen listener (s.connect e) := by
  have hnew : e.fd ∉ s.ids := by
    intro hmem
    have hopen := (h.mem_iff_open e.fd).1 hmem
    rw [hfree] at hopen
    cases hopen
  have hids : (s.connect e).ids = s.ids ++ [e.fd] := by
    simp [State.connect, State.ids]
  have hmax : s.maxfds ≤ (s.connect e).maxfds ∧ e.fd ≤ (s.connect e).maxfds := by
    simp only [State.connect]
    split <;> omega
  refine ⟨?_, fun fd => ?_, fun fd hfd => ?_, Nat.le_trans h.listener_le hmax.1, ?_⟩
  · rw [hids, ← List.concat_eq_append]
    exact h.nodup.concat hnew
  · rw [hids, List.mem_append, List.mem_singleton, h.mem_iff_open]
    show _ ↔ Function.update s.kernel e.fd true fd
    by_cases heq : fd = e.fd
    · subst heq; simp
    · simp [heq]
  · rw [hids, List.mem_append, List.mem_singleton] at hfd
    rcases hfd with hfd | rfl
    · exact Nat.le_trans (h.le_maxfds fd hfd) hmax.1
    · exact hmax.2
  · have hlt := h.maxfds_lt
    simp only [State.connect]
    split <;> assumption

theorem acceptAllConnections_of_lt {e : ClientEndpoint} (hbit : e.fd < fdSetSize)
    (readSocks : FdSet) : acceptAllConnections (some e) readSocks s =
      some (s.connect e, Function.update readSocks e.fd true, 1) := by
  rw [acceptAllConnections, fdSet_of_lt hbit]
  rfl

/-- `accept` may also fail. -/
theorem SessionsOpen.accept (h : SessionsOpen listener s) {endpoint : Option ClientEndpoint}
    (hfree : ∀ e, endpoint = some e → s.kernel e.fd = false)
    (hbit : ∀ e, endpoint = some e → e.fd < fdSetSize) (readSocks : FdSet) :
    ∃ s' rest, acceptAllConnections endpoint readSocks s = some (s', rest) ∧
      SessionsOpen listener s' := by
  cases endpoint with
  | none => exact ⟨s, _, rfl, h⟩
  | some e =>
    exact ⟨_, _, acceptAllConnections_of_lt (hbit e rfl) readSocks,
      h.connect (hfree e rfl) (hbit e rfl)⟩

/-- A descriptor with a session is served, and the other sessions stay. -/
theorem SessionsOpen.handle (h : SessionsOpen listener s) {fd : Nat} (hfd : fd ∈ s.ids) (length : Int) :
    ∃ s', handleAClientRequest fd length s = some s' ∧ SessionsOpen listener s' ∧
      ∀ i ∈ s.ids, i ≠ fd → i ∈ s'.ids := by
  obtain ⟨tmp, hfind, hid⟩ := find?_of_mem_ids hfd
  unfold handleAClientRequest
  rw [hfind, Option.map_some]
  by_cases hlength : length = 0
  · rw [if_pos hlength, hid]
    refine ⟨_, rfl, ⟨?_, fun i => ?_, fun i hi => ?_, h.listener_le, h.maxfds_lt⟩,
      fun i hi hne => ?_⟩
    · rw [State.ids, ids_remove]
      exact h.nodup.erase fd
    · rw [State.ids, ids_remove, h.nodup.mem_erase_iff, h.mem_iff_open]
      show _ ↔ Function.update s.kernel fd false i
      by_cases heq : i = fd
      · subst heq; simp
      · simp [heq]
    · rw [State.ids, ids_remove] at hi
      exact h.le_maxfds i (List.mem_of_mem_erase hi)
    · rw [State.ids, ids_remove]
      exact (List.mem_erase_of_ne hne).2 hi
  · rw [if_neg hlength]
    exact ⟨_, rfl, ⟨h.nodup, h.mem_iff_open, h.le_maxfds, h.listener_le, h.maxfds_lt⟩,
      fun i hi _ => hi⟩

/-! ## The walk -/

/-- Every call finds the state in order and a session for its descriptor. -/
def FindsSessions (listener : Nat) (calls : List Call) : Prop :=
  ∀ call ∈ calls, SessionsOpen listener call.before ∧
    (call.before.sessions.find? (sessionComparator call.fd)).isSome

/-- A descriptor that has a bit is served if it is set. -/
theorem handleFrom_succ {readSocks : FdSet} {i : Nat} (hi : i < fdSetSize) (recv : Nat → Int)
    (n : Nat) (s : State) :
    handleFrom readSocks recv (n + 1) i s =
      if readSocks i then
        (handleAClientRequest i (recv i) s).bind fun s' =>
          (handleFrom readSocks recv n (i + 1) s').map fun r => (r.1, ⟨i, s⟩ :: r.2)
      else handleFrom readSocks recv n (i + 1) s := by
  rw [handleFrom, fdIsset_of_lt hi]
  simp only [Option.bind_eq_bind, Option.bind_some, Option.map_eq_bind]
  rfl

/-- The walk finds a session for every descriptor it serves, and serves those in the set, in
order. -/
theorem SessionsOpen.handleFrom {readSocks : FdSet} (recv : Nat → Int) (n i : Nat)
    (hn : i + n ≤ fdSetSize)
    (h : SessionsOpen listener s) (hready : ∀ fd, i ≤ fd → readSocks fd → fd ∈ s.ids) :
    ∃ s' calls, handleFrom readSocks recv n i s = some (s', calls) ∧ SessionsOpen listener s' ∧
      FindsSessions listener calls ∧ calls.map Call.fd = (List.range' i n).filter readSocks := by
  induction n generalizing i s with
  | zero => exact ⟨s, [], rfl, h, by simp [FindsSessions], rfl⟩
  | succ n ih =>
    rw [handleFrom_succ (by omega)]
    by_cases hi : readSocks i
    · have hmem : i ∈ s.ids := hready i (Nat.le_refl i) hi
      obtain ⟨s₁, hs₁, h₁, hkeep⟩ := h.handle hmem (recv i)
      have hready₁ : ∀ fd, i + 1 ≤ fd → readSocks fd → fd ∈ s₁.ids := fun fd hle hfd =>
        hkeep fd (hready fd (by omega) hfd) (by omega)
      obtain ⟨s₂, calls, hs₂, h₂, hfinds, hfds⟩ := ih (i + 1) (by omega) h₁ hready₁
      refine ⟨s₂, ⟨i, s⟩ :: calls, ?_, h₂, ?_, ?_⟩
      · rw [if_pos hi, hs₁, Option.bind_some, hs₂]
        rfl
      · obtain ⟨tmp, htmp, -⟩ := find?_of_mem_ids hmem
        have hfirst : (s.sessions.find? (sessionComparator i)).isSome := by rw [htmp]; rfl
        exact List.forall_mem_cons.2 ⟨⟨h, hfirst⟩, hfinds⟩
      · rw [List.map_cons, hfds, List.range'_succ, List.filter_cons_of_pos hi]
    · obtain ⟨s₁, calls, hs₁, h₁, hfinds, hfds⟩ :=
        ih (i + 1) (by omega) h fun fd hle => hready fd (by omega)
      refine ⟨s₁, calls, ?_, h₁, hfinds, ?_⟩
      · rw [if_neg hi, hs₁]
      · rw [hfds, List.range'_succ, List.filter_cons_of_neg hi]

/-- In a turn in which the listener is not ready, every ready session is served once, and nothing
else is. -/
def ServesReady (listener : Nat) (round : Round) (calls : List Call) : Prop :=
  ∀ readSocks, round.select = some readSocks → readSocks listener = false →
    (calls.map Call.fd).Nodup ∧ ∀ fd, fd ∈ calls.map Call.fd ↔ readSocks fd

/-- A turn, once its set is built. -/
theorem SessionsOpen.commListen_eq (h : SessionsOpen listener s) (round : Round) :
    commListen listener s round = match round.select with
      | none => some (s, [])
      | some readSocks =>
        if readSocks listener then
          (acceptAllConnections round.accept readSocks s).map fun r => (r.1, [])
        else handleClientRequests readSocks round.recv s := by
  obtain ⟨fds, hfds, -⟩ := h.exists_set
  rw [CommLoop.commListen, hfds]
  cases round.select with
  | none => rfl
  | some readSocks =>
    simp only [Option.bind_eq_bind, Option.bind_some,
      fdIsset_of_lt (Nat.lt_of_le_of_lt h.listener_le h.maxfds_lt), Option.map_eq_bind]
    rfl

/-- One turn of the loop. -/
theorem SessionsOpen.turn (h : SessionsOpen listener s) {round : Round}
    (hround : Permitted listener s round) (hbit : HasBit round) :
    ∃ s' calls, commListen listener s round = some (s', calls) ∧ SessionsOpen listener s' ∧
      FindsSessions listener calls ∧ ServesReady listener round calls := by
  obtain ⟨fds, hfds, hbits⟩ := h.exists_set
  rw [h.commListen_eq]
  cases hselect : round.select with
  | none =>
    refine ⟨s, [], rfl, h, by simp [FindsSessions], fun readSocks hr => ?_⟩
    cases hselect.symm.trans hr
  | some readSocks =>
    cases hlistener : readSocks listener with
    | true =>
      obtain ⟨s', rest, haccept, h'⟩ := h.accept hround.accept hbit readSocks
      refine ⟨s', [], by simp [hlistener, haccept], h', by simp [FindsSessions],
        fun r hr hfalse => ?_⟩
      rw [hselect, Option.some.injEq] at hr
      rw [← hr, hlistener] at hfalse
      cases hfalse
    | false =>
      have hready : ∀ fd, readSocks fd → fd ∈ s.ids := fun fd hfd => by
        rcases (hbits fd).1 (hround.select readSocks fds hselect hfds fd hfd) with rfl | hmem
        · rw [hlistener] at hfd
          cases hfd
        · exact hmem
      have hmax := h.maxfds_lt
      obtain ⟨s', calls, hs', h', hfinds, hserved⟩ :=
        h.handleFrom round.recv (s.maxfds + 1) 0 (by omega) fun fd _ => hready fd
      refine ⟨s', calls, ?_, h', hfinds, fun r hr _ => ?_⟩
      · simp only [hlistener, Bool.false_eq_true, if_false]
        exact hs'
      · rw [hselect, Option.some.injEq] at hr
        subst hr
        rw [hserved]
        refine ⟨(List.nodup_range').filter _, fun fd => ?_⟩
        rw [List.mem_filter, List.mem_range'_1]
        refine ⟨fun hfd => hfd.2, fun hfd => ⟨⟨Nat.zero_le _, ?_⟩, hfd⟩⟩
        have := h.le_maxfds fd (hready fd hfd)
        omega

/-! ## Runs -/

/-- One turn of the loop, as a step. -/
def exec (listener : Nat) (s : State) (round : Round) : Option State :=
  (commListen listener s round).map Prod.fst

/-- **The sessions are the open connections.** After any number of turns, whatever `select`,
`accept` and `recv` answer, as long as the set has bits for the listener and for what `accept`
returns: each open connection is on the list once and no other is, and neither they nor the listener
exceed `maxfds`. The next turn goes through; whenever it serves a descriptor, all this holds then,
too, and the look-up finds a session; and unless it accepts, it serves every ready session exactly
once. -/
theorem sessionsOpen_of_run (hlistener : listener < fdSetSize) {rounds : List Round}
    (run : Lts.Run (exec listener) (fun s round => Permitted listener s round ∧ HasBit round)
      (start listener) rounds s) :
    SessionsOpen listener s ∧ ∀ round, Permitted listener s round → HasBit round → ∃ s' calls,
      commListen listener s round = some (s', calls) ∧ FindsSessions listener calls ∧
        ServesReady listener round calls := by
  have h : SessionsOpen listener s := by
    refine run.invariant (fun {s round t} h hround hstep => ?_) (sessionsOpen_start hlistener)
    obtain ⟨s', calls, hturn, h', -⟩ := h.turn hround.1 hround.2
    rw [exec, hturn] at hstep
    cases hstep
    exact h'
  refine ⟨h, fun round hround hbit => ?_⟩
  obtain ⟨s', calls, hturn, -, hfinds, hserves⟩ := h.turn hround hbit
  exact ⟨s', calls, hturn, hfinds, hserves⟩

/-- Two clients connect; then the first hangs up while the second sends 20 bytes. -/
def twoClients : List Round :=
  [⟨some (fun fd => fd == 3), some ⟨"10.0.0.1".toList, 4⟩, fun _ => 0⟩,
    ⟨some (fun fd => fd == 3 || fd == 4), some ⟨"10.0.0.2".toList, 5⟩, fun _ => 0⟩,
    ⟨some (fun fd => fd == 4 || fd == 5), none, fun fd => if fd = 4 then 0 else 20⟩]

/-- A round is permitted that leaves the listener and sessions in the set. -/
theorem permitted_of_ids (hlistener : listener < fdSetSize) (hids : ∀ fd ∈ s.ids, fd < fdSetSize)
    {round : Round} {readSocks : FdSet} (hselect : round.select = some readSocks)
    (hset : ∀ fd, readSocks fd → fd = listener ∨ fd ∈ s.ids)
    (haccept : ∀ e, round.accept = some e → s.kernel e.fd = false) :
    Permitted listener s round := by
  refine ⟨fun r fds hr hfds fd hfd => ?_, haccept⟩
  obtain ⟨fds', hfds', hbits⟩ := exists_setFdFlags hlistener hids
  obtain rfl := Option.some.inj (hfds.symm.trans hfds')
  rw [hselect, Option.some.injEq] at hr
  exact (hbits fd).2 (hset fd (hr ▸ hfd))

theorem sessionsOpen_of_run_twoClients : ∃ s : State,
    Lts.Run (exec 3) (fun s round => Permitted 3 s round ∧ HasBit round) (start 3) twoClients s ∧
      s.terminated = [4] ∧ SessionsOpen 3 s := by
  have run : Lts.Run (exec 3) (fun s round => Permitted 3 s round ∧ HasBit round) (start 3)
      twoClients _ :=
    .cons ⟨permitted_of_ids (by decide) (by decide) rfl (by simp) (by simp [start]),
        by rintro e ⟨⟩; decide⟩ rfl <|
      .cons ⟨permitted_of_ids (by decide) (by decide) rfl
          (by simp [State.ids, State.connect, start]) (by simp [State.connect, start]),
          by rintro e ⟨⟩; decide⟩ rfl <|
        .cons ⟨permitted_of_ids (by decide) (by decide) rfl
            (by simp [State.ids, State.connect, start]) (by simp),
            by rintro e ⟨⟩⟩ rfl <|
          .nil _
  exact ⟨_, run, rfl, (sessionsOpen_of_run (by decide) run).1⟩

/-- The operating system has no such limit: a first connection whose number is 1024 is put on the
list, and into a set that has no bit for it. -/
theorem not_sessionsOpen_of_run_fd1024 : ∃ round : Round,
    Permitted 3 (start 3) round ∧ commListen 3 (start 3) round = none := by
  refine ⟨⟨some (fun fd => fd == 3), some ⟨"10.0.0.1".toList, 1024⟩, fun _ => 0⟩,
    permitted_of_ids (by decide) (by decide) rfl (by simp) (by simp [start]), rfl⟩

end GlfsNdmp.CommLoop
