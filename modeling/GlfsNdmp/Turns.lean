import GlfsNdmp.CommLoop
import GlfsNdmp.Drain

/-!
# The loop among the threads

`CommLoop` follows the loop turn by turn, with the descriptor sets and the walk over them, as if
there were no other thread; `Pipeline` takes a turn apart, so that the others may move in between.
Both are `comm_listen`. `turns_of_run`: whatever the threads do in between, what the loop does in
a run of the threads is a number of turns. `run_of_turns`: every sequence of turns, whatever
`select`, `accept` and `recv` answer and however many descriptors are ready, is found among the runs
of the threads. The threads' model has no descriptor set; for both, `accept` returns descriptors the
set has bits for.
-/

namespace GlfsNdmp.Pipeline

/-! ## The rest of a turn -/

namespace MainPc

/-- The sessions at the end of the turn the loop is in. -/
def sessionsAfter (sessions : List Nat) : MainPc → List Nat
  | .accepted fd _ => sessions ++ [fd]
  | .closing fd _ | .closed fd _ => sessions.erase fd
  | .idle | .announced _ _ | .find _ _ | .insert _ _ | .mark _ _ _ => sessions

/-- The open descriptors at its end. -/
def openAfter (kernel : Nat → Option Nat) (pc : MainPc) (fd : Nat) : Bool :=
  match pc with
  | .closing fd' _ => if fd = fd' then false else (kernel fd).isSome
  | _ => (kernel fd).isSome

/-- The transaction that is still to be queued, as far as the loop knows it. -/
def jobsAhead : MainPc → List (Nat × Bool)
  | .accepted fd _ | .announced fd _ => [(fd, true)]
  | _ => []

/-- The session that is still to be terminated. -/
def terminatesAhead : MainPc → List Nat
  | .closing fd _ | .closed fd _ | .find fd _ | .insert fd _ | .mark fd _ _ => [fd]
  | _ => []

end MainPc

/-- A transaction as the loop queues it: its descriptor, and whether `accept` made it. -/
def Job.origin (job : Job) : Nat × Bool := (job.fd, job.isTcpConnect)

def originOf (txn : CommLoop.Txn) : Nat × Bool := (txn.clientSession.sessionId, txn.isTcpConnect)

variable {ι : Type*}

/-- `session->is_terminated = 1` -/
def State.terminates (s : State ι) : Action ι → List Nat
  | .main =>
    match s.main with
    | .mark fd _ _ => [fd]
    | _ => []
  | .accept _ | .request _ _ _ _ | .hangup _ | .worker _ | .responder => []

/-- The loop has made the turns that have led to `c`, up to the rest of the last of them; `jobs`
have been queued and `terminated` marked so far. -/
structure Performs (listener : Nat) (c : CommLoop.State) (s : State ι) (jobs : List (Nat × Bool))
    (terminated : List Nat) : Prop where
  sessionsOpen : CommLoop.SessionsOpen listener c
  apart : listener ∉ c.ids
  sessions : c.ids = s.main.sessionsAfter s.sessions
  kernel : ∀ fd, c.kernel fd = s.main.openAfter s.kernel fd
  jobs : c.requestJobs.map originOf = jobs ++ s.main.jobsAhead
  terminated : c.terminated = terminated ++ s.main.terminatesAhead

theorem performs_start {listener : Nat} (h : listener < CommLoop.fdSetSize) :
    Performs listener (CommLoop.start listener) (start : State ι) [] [] where
  sessionsOpen := CommLoop.sessionsOpen_start h
  apart := List.not_mem_nil
  sessions := rfl
  kernel _ := rfl
  jobs := rfl
  terminated := rfl

variable {listener : Nat} {c : CommLoop.State} {s s' : State ι} {jobs : List (Nat × Bool)}
  {terminated : List Nat}

section

variable [DecidableEq ι]

/-- A step in the midst of a turn. -/
theorem Performs.main (h : Performs listener c s jobs terminated) (hstep : Step s .main s') :
    Performs listener c s' (jobs ++ (s.allocates .main).map Job.origin)
      (terminated ++ s.terminates .main) := by
  obtain ⟨hopen, hapart, hsessions, hkernel, hjobs, hterminated⟩ := h
  cases hstep with
  | announce hmain =>
    rw [hmain] at hsessions hkernel hjobs hterminated
    simp only [State.allocates, State.terminates, hmain, List.map_nil, List.append_nil]
    exact ⟨hopen, hapart, hsessions, hkernel, hjobs, hterminated⟩
  | connect hmain =>
    rw [hmain] at hsessions hkernel hjobs hterminated
    simp only [State.allocates, State.terminates, hmain, List.append_nil]
    exact ⟨hopen, hapart, hsessions, hkernel, hjobs.trans (List.append_nil _).symm, hterminated⟩
  | @close fd conn hmain =>
    rw [hmain] at hsessions hkernel hjobs hterminated
    simp only [State.allocates, State.terminates, hmain, List.map_nil, List.append_nil]
    refine ⟨hopen, hapart, hsessions, fun i => (hkernel i).trans ?_, hjobs, hterminated⟩
    show (if i = fd then false else (s.kernel i).isSome) =
      (Function.update s.kernel fd none i).isSome
    by_cases hi : i = fd
    · subst hi
      rw [if_pos rfl, Function.update_self]
      rfl
    · rw [if_neg hi, Function.update_of_ne hi]
  | forget hmain | hit hmain | miss hmain | insert hmain =>
    rw [hmain] at hsessions hkernel hjobs hterminated
    simp only [State.allocates, State.terminates, hmain, List.map_nil, List.append_nil]
    exact ⟨hopen, hapart, hsessions, hkernel, hjobs, hterminated⟩
  | mark hmain =>
    rw [hmain] at hsessions hkernel hjobs hterminated
    simp only [State.allocates, State.terminates, hmain, List.map_nil, List.append_nil]
    exact ⟨hopen, hapart, hsessions, hkernel, hjobs, hterminated.trans (List.append_nil _).symm⟩

/-- The other threads leave the loop alone. -/
theorem Performs.serve (h : Performs listener c s jobs terminated) {a : Action ι}
    (hstep : Step s a s') (ha : Serves s a) : Performs listener c s' jobs terminated := by
  cases hstep with
  | take | put | handle | receive | check | send =>
    exact ⟨h.sessionsOpen, h.apart, h.sessions, h.kernel, h.jobs, h.terminated⟩
  | _ => cases ha

end

/-! ## The beginning of a turn -/

/-- A new connection. -/
theorem Performs.accept (h : Performs listener c s jobs terminated) (hmain : s.main = .idle)
    (endpoint : CommLoop.ClientEndpoint) (hfree : s.kernel endpoint.fd = none)
    (hlistener : endpoint.fd ≠ listener) (hbit : endpoint.fd < CommLoop.fdSetSize) :
    Performs listener (c.connect endpoint)
      { s with
        main := .accepted endpoint.fd s.nextConn
        kernel := Function.update s.kernel endpoint.fd (some s.nextConn)
        nextConn := s.nextConn + 1 } jobs terminated := by
  obtain ⟨hopen, hapart, hsessions, hkernel, hjobs, hterminated⟩ := h
  rw [hmain] at hsessions hkernel hjobs hterminated
  have hclosed : c.kernel endpoint.fd = false := by
    rw [hkernel]
    exact congrArg Option.isSome hfree
  have hids : (c.connect endpoint).ids = c.ids ++ [endpoint.fd] := by
    simp [CommLoop.State.connect, CommLoop.State.ids]
  refine ⟨hopen.connect hclosed hbit, ?_, ?_, fun i => ?_, ?_, hterminated⟩
  · rw [hids, List.mem_append, List.mem_singleton, not_or]
    exact ⟨hapart, Ne.symm hlistener⟩
  · rw [hids, hsessions]
    rfl
  · show Function.update c.kernel endpoint.fd true i =
      (Function.update s.kernel endpoint.fd (some s.nextConn) i).isSome
    by_cases hi : i = endpoint.fd
    · subst hi
      rw [Function.update_self, Function.update_self]
      rfl
    · rw [Function.update_of_ne hi, Function.update_of_ne hi]
      exact hkernel i
  · show (c.requestJobs ++ [_]).map originOf = jobs ++ [(endpoint.fd, true)]
    rw [List.map_append, hjobs]
    exact congrArg (· ++ [(endpoint.fd, true)]) (List.append_nil jobs)

/-- `handle_a_client_request` for a descriptor of the list. -/
theorem handleAClientRequest_of_mem {fd : Nat} (hfd : fd ∈ c.ids) (length : Int) :
    ∃ tmp : CommLoop.Session, tmp.sessionId = fd ∧
      CommLoop.handleAClientRequest fd length c = some (if length = 0 then
        { c with
          kernel := Function.update c.kernel fd false
          sessions := c.sessions.eraseP (CommLoop.sessionComparator fd)
          terminated := c.terminated ++ [fd] }
        else { c with requestJobs := c.requestJobs ++ [⟨tmp, false, some length⟩] }) := by
  obtain ⟨tmp, hfind, hid⟩ := CommLoop.find?_of_mem_ids hfd
  refine ⟨tmp, hid, ?_⟩
  rw [CommLoop.handleAClientRequest, hfind, Option.map_some, hid]

/-- A request. -/
theorem Performs.request (h : Performs listener c s jobs terminated) (hmain : s.main = .idle)
    {fd : Nat} (hfd : fd ∈ s.sessions) {length : Int} (hlength : length ≠ 0)
    (requestJobs : List Job) (nextJob : Nat) :
    ∃ c', CommLoop.handleAClientRequest fd length c = some c' ∧ Performs listener c'
      { s with requestJobs := requestJobs, nextJob := nextJob } (jobs ++ [(fd, false)])
      terminated := by
  obtain ⟨hopen, hapart, hsessions, hkernel, hjobs, hterminated⟩ := h
  rw [hmain] at hsessions hjobs
  have hmem : fd ∈ c.ids := hsessions ▸ hfd
  obtain ⟨c', hc', hopen', -⟩ := hopen.handle hmem length
  obtain ⟨tmp, hid, heq⟩ := handleAClientRequest_of_mem hmem length
  rw [if_neg hlength] at heq
  obtain rfl := Option.some.inj (hc'.symm.trans heq)
  refine ⟨_, heq, hopen', hapart, hmain ▸ hsessions, hkernel, ?_, hterminated⟩
  show (c.requestJobs ++ [_]).map originOf = jobs ++ [(fd, false)] ++ s.main.jobsAhead
  rw [List.map_append, hjobs, hmain, ← hid]
  exact congrArg (· ++ [(tmp.sessionId, false)]) (List.append_nil jobs) |>.trans
    (List.append_nil _).symm

/-- A closed connection. -/
theorem Performs.hangup (h : Performs listener c s jobs terminated) (hmain : s.main = .idle)
    {fd : Nat} (hfd : fd ∈ s.sessions) (conn : Nat) :
    ∃ c', CommLoop.handleAClientRequest fd 0 c = some c' ∧
      Performs listener c' { s with main := .closing fd conn } jobs terminated := by
  obtain ⟨hopen, hapart, hsessions, hkernel, hjobs, hterminated⟩ := h
  rw [hmain] at hsessions hkernel hjobs hterminated
  have hmem : fd ∈ c.ids := hsessions ▸ hfd
  obtain ⟨c', hc', hopen', -⟩ := hopen.handle hmem 0
  obtain ⟨tmp, -, heq⟩ := handleAClientRequest_of_mem hmem 0
  rw [if_pos rfl] at heq
  obtain rfl := Option.some.inj (hc'.symm.trans heq)
  have hids : (c.sessions.eraseP (CommLoop.sessionComparator fd)).map CommLoop.Session.sessionId =
      c.ids.erase fd := CommLoop.ids_remove c fd
  refine ⟨_, heq, hopen', ?_, ?_, fun i => ?_, hjobs, ?_⟩
  · rw [CommLoop.State.ids, hids]
    exact fun hmem => hapart (List.mem_of_mem_erase hmem)
  · rw [CommLoop.State.ids, hids, hsessions]
    rfl
  · show Function.update c.kernel fd false i = if i = fd then false else (s.kernel i).isSome
    by_cases hi : i = fd
    · subst hi
      rw [if_pos rfl, Function.update_self]
    · rw [if_neg hi, Function.update_of_ne hi]
      exact hkernel i
  · show c.terminated ++ [fd] = terminated ++ [fd]
    rw [hterminated]
    exact congrArg (· ++ [fd]) (List.append_nil terminated)

/-! ## Runs of the threads -/

/-- A set that holds one descriptor. -/
def only (fd : Nat) : CommLoop.FdSet := fun i => i == fd

theorem handleFrom_none {readSocks : CommLoop.FdSet} (recv : Nat → Int) (n i : Nat)
    (hn : i + n ≤ CommLoop.fdSetSize) (h : ∀ j, i ≤ j → readSocks j = false) (c : CommLoop.State) :
    CommLoop.handleFrom readSocks recv n i c = some (c, []) := by
  induction n generalizing i with
  | zero => rfl
  | succ n ih =>
    rw [CommLoop.handleFrom_succ (by omega), h i (Nat.le_refl i), if_neg (by simp)]
    exact ih (i + 1) (by omega) fun j hj => h j (Nat.le_of_succ_le hj)

/-- The walk over a set that holds one descriptor. -/
theorem handleFrom_only (recv : Nat → Int) {fd : Nat} (n i : Nat)
    (hn : i + n ≤ CommLoop.fdSetSize) (hi : i ≤ fd) (hfd : fd < i + n) (c : CommLoop.State) :
    CommLoop.handleFrom (only fd) recv n i c =
      (CommLoop.handleAClientRequest fd (recv fd) c).map fun c' => (c', [⟨fd, c⟩]) := by
  induction n generalizing i with
  | zero => exact absurd hfd (Nat.not_lt.2 hi)
  | succ n ih =>
    rw [CommLoop.handleFrom_succ (by omega)]
    by_cases heq : i = fd
    · subst heq
      have hrest : ∀ j, i + 1 ≤ j → only i j = false := fun j hj => by
        simp only [only, beq_eq_false_iff_ne]
        omega
      rw [if_pos (by simp [only])]
      cases CommLoop.handleAClientRequest i (recv i) c with
      | none => rfl
      | some c' =>
        rw [Option.bind_some, handleFrom_none recv n (i + 1) (by omega) hrest c']
        rfl
    · rw [if_neg (by simp [only, heq])]
      exact ih (i + 1) (by omega) (by omega) (by omega)

/-- A turn in which one session is ready. -/
theorem exec_only (h : CommLoop.SessionsOpen listener c) {fd : Nat} (hfd : fd ∈ c.ids)
    (hlistener : fd ≠ listener) (length : Int) :
    CommLoop.exec listener c ⟨some (only fd), none, fun _ => length⟩ =
      CommLoop.handleAClientRequest fd length c := by
  have hready : only fd listener = false := by
    simp only [only, beq_eq_false_iff_ne]
    exact Ne.symm hlistener
  have hmax := h.le_maxfds fd hfd
  have hlt := h.maxfds_lt
  rw [CommLoop.exec, h.commListen_eq]
  simp only [hready, Bool.false_eq_true, if_false, CommLoop.handleClientRequests]
  rw [handleFrom_only _ _ _ (by omega) (Nat.zero_le fd) (by omega), Option.map_map]
  exact Option.map_id'

/-- A turn in which the listener is ready. -/
theorem exec_listener (h : CommLoop.SessionsOpen listener c) {endpoint : CommLoop.ClientEndpoint}
    (hbit : endpoint.fd < CommLoop.fdSetSize) {readSocks : CommLoop.FdSet}
    (hready : readSocks listener) (recv : Nat → Int) :
    CommLoop.exec listener c ⟨some readSocks, some endpoint, recv⟩ = some (c.connect endpoint) := by
  rw [CommLoop.exec, h.commListen_eq]
  simp only [hready, if_true, CommLoop.acceptAllConnections_of_lt hbit]
  rfl

/-- Every descriptor on the list has a bit. -/
theorem ids_lt (h : CommLoop.SessionsOpen listener c) :
    listener < CommLoop.fdSetSize ∧ ∀ fd ∈ c.ids, fd < CommLoop.fdSetSize :=
  ⟨Nat.lt_of_le_of_lt h.listener_le h.maxfds_lt,
    fun fd hfd => Nat.lt_of_le_of_lt (h.le_maxfds fd hfd) h.maxfds_lt⟩

theorem permitted_only (h : CommLoop.SessionsOpen listener c) {fd : Nat}
    (hfd : fd = listener ∨ fd ∈ c.ids) (recv : Nat → Int)
    {accept : Option CommLoop.ClientEndpoint}
    (haccept : ∀ e, accept = some e → c.kernel e.fd = false) :
    CommLoop.Permitted listener c ⟨some (only fd), accept, recv⟩ := by
  refine CommLoop.permitted_of_ids (ids_lt h).1 (ids_lt h).2 rfl (fun i hi => ?_) haccept
  rw [show i = fd by simpa [only] using hi]
  exact hfd

theorem permitted_session (h : CommLoop.SessionsOpen listener c) {fd : Nat} (hfd : fd ∈ c.ids)
    (recv : Nat → Int) :
    CommLoop.Permitted listener c ⟨some (only fd), none, recv⟩ ∧
      CommLoop.HasBit ⟨some (only fd), none, recv⟩ := by
  refine ⟨permitted_only h (Or.inr hfd) recv ?_, ?_⟩
  all_goals rintro e ⟨⟩

/-- Between two turns a descriptor is open if the loop's turns have left it so. -/
theorem Performs.kernel_idle (h : Performs listener c s jobs terminated) (hmain : s.main = .idle)
    (fd : Nat) : c.kernel fd = (s.kernel fd).isSome := by
  have hkernel := h.kernel fd
  rw [hmain] at hkernel
  exact hkernel

theorem Performs.ids_idle (h : Performs listener c s jobs terminated) (hmain : s.main = .idle) :
    c.ids = s.sessions := by
  have hsessions := h.sessions
  rw [hmain] at hsessions
  exact hsessions

variable [DecidableEq ι]

/-- `accept` does not return the listener, which is open, and what it returns has a bit in the
descriptor set. -/
def NotListener (listener : Nat) (_ : State ι) : Action ι → Prop
  | .accept fd => fd ≠ listener ∧ fd < CommLoop.fdSetSize
  | .request _ _ _ _ | .hangup _ | .main | .worker _ | .responder => True

/-- The turns of a run. -/
structure Turns (listener : Nat) (s : State ι) (jobs : List (Nat × Bool)) (terminated : List Nat)
    (rounds : List CommLoop.Round) (c : CommLoop.State) : Prop where
  run : Lts.Run (CommLoop.exec listener)
    (fun c round => CommLoop.Permitted listener c round ∧ CommLoop.HasBit round)
    (CommLoop.start listener) rounds c
  performs : Performs listener c s jobs terminated

/-- **What the loop does among the threads is a number of turns.** In every run of the threads, for
any number of workers and any schedule, the loop has made the turns of some run of `comm_listen`,
but for the rest of the last of them: it has the same sessions and the same open descriptors, it has
queued the same transactions in the same order, and terminated the same sessions. -/
theorem turns_of_run (hlistener : listener < CommLoop.fdSetSize) {as : List (Action ι)}
    {s : State ι} (run : Lts.Run exec (NotListener listener) start as s) :
    ∃ rounds c, Turns listener s ((Lts.log exec State.allocates start as).map Job.origin)
      (Lts.log exec State.terminates start as) rounds c := by
  induction run with
  | nil => exact ⟨[], _, .nil _, performs_start hlistener⟩
  | @concat t u as a run hok hexec ih =>
    obtain ⟨rounds, c, hturns⟩ := ih
    have hstep := step_of_exec hexec
    rw [run.log_concat, run.log_concat, List.map_append]
    cases a with
    | main => exact ⟨rounds, c, hturns.run, hturns.performs.main hstep⟩
    | worker | responder =>
      simp only [State.allocates, State.terminates, List.map_nil, List.append_nil]
      exact ⟨rounds, c, hturns.run, hturns.performs.serve hstep trivial⟩
    | accept fd =>
      cases hstep with
      | accept hmain hfree =>
        have hclosed : c.kernel fd = false := by
          rw [hturns.performs.kernel_idle hmain, hfree]
          rfl
        have hpermitted : CommLoop.Permitted listener c
            ⟨some (only listener), some ⟨[], fd⟩, fun _ => 0⟩ :=
          permitted_only hturns.performs.sessionsOpen (Or.inl rfl) _ fun e he => by
            rw [← Option.some.inj he]; exact hclosed
        have hbit : CommLoop.HasBit ⟨some (only listener), some ⟨[], fd⟩, fun _ => 0⟩ := by
          rintro e ⟨⟩
          exact hok.2
        simp only [State.allocates, State.terminates, List.map_nil, List.append_nil]
        exact ⟨_, _, hturns.run.concat ⟨hpermitted, hbit⟩
          (exec_listener hturns.performs.sessionsOpen hok.2 (by simp [only]) _),
          hturns.performs.accept hmain ⟨[], fd⟩ hfree hok.1 hok.2⟩
    | request fd request locals failed =>
      cases hstep with
      | @request fd conn request locals failed hmain hopen hfd =>
        obtain ⟨c', hc', hperforms⟩ := hturns.performs.request hmain hfd
          (by decide : (1 : Int) ≠ 0)
          (t.requestJobs ++ [⟨t.nextJob, fd, conn, false, request, locals, failed⟩]) (t.nextJob + 1)
        have hmem : fd ∈ c.ids := hturns.performs.ids_idle hmain ▸ hfd
        have hne : fd ≠ listener := fun heq => hturns.performs.apart (heq ▸ hmem)
        simp only [State.allocates, State.terminates, hopen, List.map_cons, List.map_nil,
          List.append_nil]
        exact ⟨_, _, hturns.run.concat (permitted_session hturns.performs.sessionsOpen hmem _)
          ((exec_only hturns.performs.sessionsOpen hmem hne 1).trans hc'), hperforms⟩
    | hangup fd =>
      cases hstep with
      | @hangup fd conn hmain hopen hfd =>
        obtain ⟨c', hc', hperforms⟩ := hturns.performs.hangup hmain hfd conn
        have hmem : fd ∈ c.ids := hturns.performs.ids_idle hmain ▸ hfd
        have hne : fd ≠ listener := fun heq => hturns.performs.apart (heq ▸ hmem)
        simp only [State.allocates, State.terminates, List.map_nil, List.append_nil]
        exact ⟨_, _, hturns.run.concat (permitted_session hturns.performs.sessionsOpen hmem _)
          ((exec_only hturns.performs.sessionsOpen hmem hne 0).trans hc'), hperforms⟩

instance (listener : Nat) (s : State ι) : ∀ a, Decidable (NotListener listener s a)
  | .accept _ => inferInstanceAs (Decidable (_ ∧ _))
  | .request _ _ _ _ | .hangup _ | .main | .worker _ | .responder => instDecidableTrue

/-- A client hangs up while its notification is being handled. -/
def hangupInHandling : List (Action Unit) :=
  [.accept 4, .main, .main, .worker (), .hangup 4, .main, .worker (), .main]

theorem turns_hangupInHandling : ∃ s : State Unit,
    Lts.Run exec (NotListener 3) start hangupInHandling s ∧ s.main = .find 4 0 ∧
      ∃ rounds c, Turns 3 s ((Lts.log exec State.allocates start hangupInHandling).map Job.origin)
        (Lts.log exec State.terminates start hangupInHandling) rounds c := by
  have run : Lts.Run exec (NotListener 3) (start : State Unit) hangupInHandling _ :=
    Lts.Run.of_execWhile rfl
  exact ⟨_, run, rfl, turns_of_run (by decide) run⟩

/-! ## Turns among the threads -/

/-- A step of the loop, whose requests are those of `content`, by the number of the transaction. -/
def LoopStep (listener : Nat) (content : Nat → NdmpRequest × Locals × Bool) (s : State ι) :
    Action ι → Prop
  | .accept fd => fd ≠ listener
  | .request _ request locals failed => (request, locals, failed) = content s.nextJob
  | .hangup _ | .main => True
  | .worker _ | .responder => False

/-- The loop can go on from `s` and come to the end of a turn with all that has led to `c` done. -/
def Leads (listener : Nat) (content : Nat → NdmpRequest × Locals × Bool) (s : State ι)
    (jobs : List (Nat × Bool)) (terminated : List Nat) (c : CommLoop.State) : Prop :=
  ∃ as s', Lts.Run exec (LoopStep listener content) s as s' ∧ s'.main = .idle ∧
    Performs listener c s' (jobs ++ (Lts.log exec State.allocates s as).map Job.origin)
      (terminated ++ Lts.log exec State.terminates s as)

variable {content : Nat → NdmpRequest × Locals × Bool}

theorem Leads.cons {a : Action ι} {t : State ι} (hok : LoopStep listener content s a)
    (hexec : exec s a = some t)
    (h : Leads listener content t (jobs ++ (s.allocates a).map Job.origin)
      (terminated ++ s.terminates a) c) : Leads listener content s jobs terminated c := by
  obtain ⟨as, s'', run, hmain, hperforms⟩ := h
  refine ⟨a :: as, s'', .cons hok hexec run, hmain, ?_⟩
  simp only [Lts.log, hexec, Option.map_some, Option.getD_some, List.map_append]
  rwa [List.append_assoc, List.append_assoc] at hperforms

/-- The steps that are left of a turn, at most. -/
def MainPc.steps : MainPc → Nat
  | .idle => 0
  | .announced _ _ | .mark _ _ _ => 1
  | .accepted _ _ | .insert _ _ => 2
  | .find _ _ => 3
  | .closed _ _ => 4
  | .closing _ _ => 5

/-- In the midst of a turn the loop can go on, and comes closer to its end. -/
theorem exists_main (s : State ι) (hmain : s.main ≠ .idle) :
    ∃ s', exec s .main = some s' ∧ s'.main.steps < s.main.steps := by
  simp only [exec, State.mainStep]
  cases hpc : s.main with
  | idle => exact absurd hpc hmain
  | find fd conn =>
    dsimp only
    split <;> exact ⟨_, rfl, by simp [MainPc.steps]⟩
  | _ => exact ⟨_, rfl, by simp [MainPc.steps]⟩

/-- The rest of a turn. -/
theorem Performs.leads (h : Performs listener c s jobs terminated) :
    Leads listener content s jobs terminated c := by
  induction hn : s.main.steps using Nat.strong_induction_on generalizing s jobs terminated with
  | _ n ih =>
    by_cases hmain : s.main = .idle
    · refine ⟨[], s, .nil s, hmain, ?_⟩
      simpa [Lts.log] using h
    · obtain ⟨s', hexec, hlt⟩ := exists_main s hmain
      exact .cons (a := .main) trivial hexec (ih _ (hn ▸ hlt) (h.main (step_of_exec hexec)) rfl)

/-- A call of `handle_a_client_request`. -/
theorem Performs.leads_handle (h : Performs listener c s jobs terminated) (hmain : s.main = .idle)
    {fd : Nat} (hfd : fd ∈ c.ids) (length : Int) :
    ∃ c', CommLoop.handleAClientRequest fd length c = some c' ∧
      Leads listener content s jobs terminated c' := by
  have hmem : fd ∈ s.sessions := h.ids_idle hmain ▸ hfd
  obtain ⟨conn, hopen⟩ : ∃ conn, s.kernel fd = some conn := by
    rw [← Option.isSome_iff_exists, ← h.kernel_idle hmain]
    exact (h.sessionsOpen.mem_iff_open fd).1 hfd
  by_cases hlength : length = 0
  · subst hlength
    obtain ⟨c', hc', hperforms⟩ := h.hangup hmain hmem conn
    refine ⟨c', hc',
      .cons (a := .hangup fd) trivial (t := { s with main := .closing fd conn }) ?_ ?_⟩
    · simp only [exec, State.hangup, hmain, hopen, if_pos hmem]
    · simp only [State.allocates, State.terminates, List.map_nil, List.append_nil]
      exact hperforms.leads
  · let job : Job := ⟨s.nextJob, fd, conn, false, (content s.nextJob).1, (content s.nextJob).2.1,
      (content s.nextJob).2.2⟩
    obtain ⟨c', hc', hperforms⟩ := h.request hmain hmem hlength (s.requestJobs ++ [job])
      (s.nextJob + 1)
    refine ⟨c', hc', .cons (a := .request fd job.request job.locals job.failed) rfl
      (t := { s with requestJobs := s.requestJobs ++ [job], nextJob := s.nextJob + 1 }) ?_ ?_⟩
    · simp only [exec, State.request, hmain, hopen, if_pos hmem]
      rfl
    · simp only [State.allocates, State.terminates, hopen, List.map_cons, List.map_nil,
        List.append_nil]
      exact hperforms.leads

/-- What the loop can do after what it can do. -/
theorem Leads.trans (h : Leads listener content s jobs terminated c) {c' : CommLoop.State}
    (hnext : ∀ {s' : State ι} {jobs' : List (Nat × Bool)} {terminated' : List Nat},
      Performs listener c s' jobs' terminated' → s'.main = .idle →
        Leads listener content s' jobs' terminated' c') :
    Leads listener content s jobs terminated c' := by
  obtain ⟨as, s', run, hmain, hperforms⟩ := h
  obtain ⟨bs, s'', run', hmain', hperforms'⟩ := hnext hperforms hmain
  refine ⟨as ++ bs, s'', run.append run', hmain', ?_⟩
  rw [Lts.log_append, Lts.log_append, run.execAll_eq]
  simp only [Option.map_some, Option.getD_some, List.map_append, ← List.append_assoc]
  exact hperforms'

/-- The walk over the ready descriptors. -/
theorem leads_handleFrom (readSocks : CommLoop.FdSet) (recv : Nat → Int) (n i : Nat)
    (hn : i + n ≤ CommLoop.fdSetSize) {c : CommLoop.State} {s : State ι}
    {jobs : List (Nat × Bool)} {terminated : List Nat}
    (h : Performs listener c s jobs terminated) (hmain : s.main = .idle) {c' : CommLoop.State}
    {calls : List CommLoop.Call} (hready : ∀ fd, i ≤ fd → readSocks fd → fd ∈ c.ids)
    (hwalk : CommLoop.handleFrom readSocks recv n i c = some (c', calls)) :
    Leads listener content s jobs terminated c' := by
  induction n generalizing i c s jobs terminated calls with
  | zero =>
    cases hwalk
    exact h.leads
  | succ n ih =>
    rw [CommLoop.handleFrom_succ (by omega)] at hwalk
    by_cases hi : readSocks i
    · rw [if_pos hi] at hwalk
      have hmem := hready i (Nat.le_refl i) hi
      obtain ⟨c₁, hc₁, hleads⟩ := h.leads_handle hmain hmem (recv i)
      obtain ⟨_, hc₁', -, hkeep⟩ := h.sessionsOpen.handle hmem (recv i)
      obtain rfl := Option.some.inj (hc₁.symm.trans hc₁')
      obtain ⟨_, hfirst, hwalk⟩ := Option.bind_eq_some_iff.1 hwalk
      obtain rfl := Option.some.inj (hc₁.symm.trans hfirst)
      obtain ⟨⟨c₂, calls₂⟩, hrest, hlast⟩ := Option.map_eq_some_iff.1 hwalk
      cases hlast
      refine hleads.trans fun h' hmain' =>
        ih (i + 1) (by omega) h' hmain' (fun fd hle hfd => ?_) hrest
      exact hkeep fd (hready fd (Nat.le_of_succ_le hle) hfd) (by omega)
    · rw [if_neg hi] at hwalk
      exact ih (i + 1) (by omega) h hmain (fun fd hle => hready fd (Nat.le_of_succ_le hle)) hwalk

/-- What the operating system answers in a turn, with the listener open, within the bits of the
set. -/
def PermittedApart (listener : Nat) (c : CommLoop.State) (round : CommLoop.Round) : Prop :=
  CommLoop.Permitted listener c round ∧ CommLoop.HasBit round ∧
    ∀ e, round.accept = some e → e.fd ≠ listener

/-- **Every turn is a number of steps among the threads.** -/
theorem Performs.leads_turn (h : Performs listener c s jobs terminated) (hmain : s.main = .idle)
    {round : CommLoop.Round} (hround : PermittedApart listener c round) {c' : CommLoop.State}
    (hturn : CommLoop.exec listener c round = some c') :
    Leads listener content s jobs terminated c' := by
  obtain ⟨⟨c'', calls⟩, hcomm, rfl⟩ := Option.map_eq_some_iff.1 hturn
  obtain ⟨hpermitted, hbit, hother⟩ := hround
  obtain ⟨fds, hfds, hbits⟩ := h.sessionsOpen.exists_set
  have hmax := h.sessionsOpen.maxfds_lt
  rw [h.sessionsOpen.commListen_eq] at hcomm
  split at hcomm
  · cases hcomm
    exact h.leads
  · rename_i readSocks hselect
    split at hcomm
    · cases haccept : round.accept with
      | none =>
        rw [haccept] at hcomm
        cases hcomm
        exact h.leads
      | some endpoint =>
        rw [haccept, CommLoop.acceptAllConnections_of_lt (hbit endpoint haccept)] at hcomm
        cases hcomm
        have hclosed : s.kernel endpoint.fd = none := by
          have hfree := hpermitted.accept endpoint haccept
          rw [h.kernel_idle hmain] at hfree
          simpa using hfree
        have happart := hother endpoint haccept
        have hperforms := h.accept hmain endpoint hclosed happart (hbit endpoint haccept)
        refine .cons (a := .accept endpoint.fd) happart (t := { s with
          main := .accepted endpoint.fd s.nextConn
          kernel := Function.update s.kernel endpoint.fd (some s.nextConn)
          nextConn := s.nextConn + 1 }) ?_ ?_
        · simp only [exec, State.accept, hmain, hclosed]
        · simp only [State.allocates, State.terminates, List.map_nil, List.append_nil]
          exact hperforms.leads
    · rename_i hlistener
      refine leads_handleFrom readSocks round.recv _ 0 (by omega) h hmain (fun fd _ hfd => ?_) hcomm
      rcases (hbits fd).1 (hpermitted.select readSocks fds hselect hfds fd hfd) with rfl | hmem
      · exact absurd hfd hlistener
      · exact hmem

/-- **Every run of `comm_listen` is found among the threads.** From any state of the threads, in the
midst of a turn or not and whatever the workers and the responder are doing: every further sequence
of turns, whatever `select`, `accept` and `recv` answer, however many descriptors are ready and
whatever the requests are, is a number of steps of the loop. -/
theorem run_of_turns (h : Performs listener c s jobs terminated)
    {rounds : List CommLoop.Round} {c' : CommLoop.State}
    (run : Lts.Run (CommLoop.exec listener) (PermittedApart listener) c rounds c') :
    Leads listener content s jobs terminated c' := by
  induction run with
  | nil => exact h.leads
  | concat _ hround hturn ih =>
    exact ih.trans fun h' hmain' => h'.leads_turn hmain' hround hturn

/-- Two clients connect; then the first hangs up and the second asks for something, both in one
turn. -/
def hangupAndAsk : List CommLoop.Round :=
  [⟨some (only 3), some ⟨[], 4⟩, fun _ => 0⟩, ⟨some (only 3), some ⟨[], 5⟩, fun _ => 0⟩,
    ⟨some fun fd => fd == 4 || fd == 5, none, fun fd => if fd = 4 then 0 else 20⟩]

theorem run_of_turns_hangupAndAsk : ∃ c,
    Lts.Run (CommLoop.exec 3) (PermittedApart 3) (CommLoop.start 3) hangupAndAsk c ∧
      c.terminated = [4] ∧
      Leads 3 (fun _ => (.dataAbort, default, false)) (start : State Unit) [] [] c := by
  have haccept : ∀ {c : CommLoop.State} {fd : Nat}, (∀ fd ∈ c.ids, fd < CommLoop.fdSetSize) →
      fd < CommLoop.fdSetSize → fd ≠ 3 → c.kernel fd = false →
      PermittedApart 3 c ⟨some (only 3), some ⟨[], fd⟩, fun _ => 0⟩ := by
    intro c fd hids hbit hne hfree
    refine ⟨CommLoop.permitted_of_ids (by decide) hids rfl (by simp [only]) ?_, ?_, ?_⟩
    all_goals rintro e ⟨⟩
    · exact hfree
    · exact hbit
    · exact hne
  have hready : ∀ {c : CommLoop.State} {recv : Nat → Int}, c.ids = [4, 5] →
      PermittedApart 3 c ⟨some fun fd => fd == 4 || fd == 5, none, recv⟩ := by
    intro c recv hids
    refine ⟨CommLoop.permitted_of_ids (by decide) ?_ rfl ?_ ?_, ?_, ?_⟩
    · rw [hids]
      decide
    · rw [hids]
      intro fd hfd
      right
      simpa using hfd
    all_goals rintro e ⟨⟩
  have run : Lts.Run (CommLoop.exec 3) (PermittedApart 3) (CommLoop.start 3) hangupAndAsk _ :=
    .cons (haccept (by decide) (by decide) (by decide) rfl) rfl <|
      .cons (haccept (by decide) (by decide) (by decide) rfl) rfl <|
        .cons (hready rfl) rfl <| .nil _
  exact ⟨_, run, rfl, run_of_turns (performs_start (by decide)) run⟩

end GlfsNdmp.Pipeline
