import GlfsNdmp.Determined

/-!
# Sessions do not touch one another

All records live in one registry, and every request and every closed connection goes through it.
What the registry holds under an id changes only with the steps of that id, and as a function of
what it held (`recordsOf_apply_self`, `recordsOf_apply_other`), unless a handler reads a variable it
has not set, and finds there what another session's handler has left.

`session_isolated`: after any interleaving of requests and terminations, the record of a session is
the one its own steps alone would have left, whatever the commands of either run return and whatever
the variables hold. For this all requests have to be within their limits, and the session may not
ask for version 0 before it has asked for another.
-/

namespace GlfsNdmp

/-! ## Steps -/

/-- What moves a session: a request that is handled, or the end of its connection. -/
inductive ServerStep
  | request (txn : ClientTxn)
  | terminate (sessionId : Nat)

namespace ServerStep

/-- The session a step belongs to. -/
def sessionId : ServerStep → Nat
  | request txn => txn.sessionId
  | terminate sessionId => sessionId

/-- What a step meets besides its request and the server: the answers of the operator and of the
operating system, and what is in the variables that are not set. -/
structure Surroundings where
  answers : Answers
  locals : Locals

/-- The same step, in other surroundings. -/
def among (around : Surroundings) : ServerStep → ServerStep
  | request txn => request { txn with answers := around.answers, locals := around.locals }
  | terminate sessionId => terminate sessionId

@[simp] theorem among_sessionId (around : Surroundings) (step : ServerStep) :
    (step.among around).sessionId = step.sessionId := by
  cases step <;> rfl

end ServerStep

/-- A step of the server. -/
def Server.step (srv : Server) : ServerStep → Server
  | .request txn => (xdrDecodeEncode srv txn).1
  | .terminate sessionId => terminateSession srv sessionId

/-- A run of the server. -/
def Server.run (srv : Server) (steps : List ServerStep) : Server := steps.foldl Server.step srv

/-- The steps of one session, in order. -/
def ownSteps (id : Nat) (steps : List ServerStep) : List ServerStep :=
  steps.filter fun step => step.sessionId == id

/-- The same steps, each in other surroundings. -/
def stepsAmong (around : Nat → ServerStep.Surroundings) (steps : List ServerStep) :
    List ServerStep :=
  steps.mapIdx fun i step => step.among (around i)

/-- Every request of a run meets a condition in the state before it. -/
def Server.Meets (srv : Server) (P : Server → ClientTxn → Prop) (steps : List ServerStep) : Prop :=
  ∀ pre txn post, steps = pre ++ .request txn :: post → P (srv.run pre) txn

theorem Server.meets_cons {srv : Server} {P : Server → ClientTxn → Prop} {step : ServerStep}
    {steps : List ServerStep} : srv.Meets P (step :: steps) ↔
      (∀ txn, step = .request txn → P srv txn) ∧ (srv.step step).Meets P steps := by
  constructor
  · intro h
    refine ⟨fun txn hstep => h [] txn steps (by rw [hstep]; rfl), fun pre txn post hsteps => ?_⟩
    exact h (step :: pre) txn post (by rw [hsteps]; rfl)
  · rintro ⟨hfirst, hrest⟩ (_ | ⟨_, pre⟩) txn post hsteps
    · obtain ⟨rfl, -⟩ := List.cons.inj hsteps
      exact hfirst txn rfl
    · obtain ⟨rfl, htail⟩ := List.cons.inj hsteps
      exact hrest pre txn post htail

theorem Server.Meets.mono {srv : Server} {P Q : Server → ClientTxn → Prop}
    {steps : List ServerStep} (hPQ : ∀ srv txn, P srv txn → Q srv txn) (h : srv.Meets P steps) :
    srv.Meets Q steps :=
  fun pre txn post hsteps => hPQ _ txn (h pre txn post hsteps)

/-! ## The records of one id -/

/-- What the registry holds under an id. -/
def recordsOf (id : Nat) (registry : List SessionInfo) : List SessionInfo :=
  registry.filter (sessionInfoCmp id)

theorem find?_recordsOf (id : Nat) (registry : List SessionInfo) :
    (recordsOf id registry).find? (sessionInfoCmp id) = registry.find? (sessionInfoCmp id) := by
  rw [recordsOf, List.find?_filter]
  simp

theorem sessionOf_recordsOf (id : Nat) (registry : List SessionInfo) :
    sessionOf (recordsOf id registry) id = sessionOf registry id := by
  rw [sessionOf_eq, sessionOf_eq, find?_recordsOf]

theorem recordsOf_getSessionInfo (id : Nat) (registry : List SessionInfo) :
    recordsOf id (getSessionInfo id registry).2 = (getSessionInfo id (recordsOf id registry)).2 := by
  unfold getSessionInfo
  rw [find?_recordsOf]
  cases registry.find? (sessionInfoCmp id) with
  | some s => rfl
  | none =>
    show List.filter _ (registry ++ [SessionInfo.fresh id]) = _
    rw [List.filter_append]
    simp [recordsOf, sessionInfoCmp]

theorem recordsOf_getSessionInfo_other {id id' : Nat} (h : id ≠ id')
    (registry : List SessionInfo) :
    recordsOf id' (getSessionInfo id registry).2 = recordsOf id' registry := by
  unfold getSessionInfo
  cases registry.find? (sessionInfoCmp id) with
  | some s => rfl
  | none =>
    show List.filter _ (registry ++ [SessionInfo.fresh id]) = _
    rw [List.filter_append]
    simp [recordsOf, sessionInfoCmp, h]

section

variable {id id' : Nat} {f : SessionInfo → SessionInfo}
  (hf : ∀ s, (f s).sessionId = s.sessionId)

include hf

theorem recordsOf_updateSession (registry : List SessionInfo) :
    recordsOf id (updateSession id f registry) = updateSession id f (recordsOf id registry) := by
  rw [updateSession, updateSession, ← recordsOf_getSessionInfo]
  exact Fifo.filter_modifyFirst_self (fun s => by simp [sessionInfoCmp, hf]) _

theorem recordsOf_updateSession_other (h : id ≠ id') (registry : List SessionInfo) :
    recordsOf id' (updateSession id f registry) = recordsOf id' registry := by
  rw [updateSession, ← recordsOf_getSessionInfo_other h registry]
  refine Fifo.filter_modifyFirst_other (fun s => by simp [sessionInfoCmp, hf]) (fun s hs => ?_) _
  simp only [sessionInfoCmp, beq_iff_eq] at hs
  simp [sessionInfoCmp, hs, h]

end

theorem recordsOf_eraseP_other {id id' : Nat} (h : id ≠ id') (registry : List SessionInfo) :
    recordsOf id' (registry.eraseP (sessionInfoCmp id)) = recordsOf id' registry := by
  refine Fifo.filter_eraseP_other (fun s hs => ?_) registry
  simp only [sessionInfoCmp, beq_iff_eq] at hs
  simp [sessionInfoCmp, hs, h]

/-- A write that changes no record leaves the registry as it is, once the record is there. -/
theorem updateSession_of_eq {id : Nat} {f : SessionInfo → SessionInfo} (hf : ∀ s, f s = s)
    {registry : List SessionInfo} (h : registry.find? (sessionInfoCmp id) ≠ none) :
    updateSession id f registry = registry := by
  obtain ⟨s, hs⟩ := Option.ne_none_iff_exists'.1 h
  rw [updateSession, Fifo.modifyFirst_of_eq hf]
  unfold getSessionInfo
  rw [hs]

/-! ## What a step does to the registry -/

/-- `cleanup_session` on the registry. -/
def cleanupRegistry (id address : Nat) (registry : List SessionInfo) : List SessionInfo :=
  let registry := updateSession id (·.removeJob address) registry
  let s := sessionOf registry id
  if s.isTerminated then
    if s.jobs = [] then registry.eraseP (sessionInfoCmp id) else registry
  else registry

/-- A step on the registry: the answers play no part in it, nor does anything outside. -/
def ServerStep.apply (registry : List SessionInfo) : ServerStep → List SessionInfo
  | .request txn =>
    cleanupRegistry txn.sessionId txn.address
      (updateSession txn.sessionId (sessionEffect txn.request txn.locals)
        (updateSession txn.sessionId (·.addJob txn.address) registry))
  | .terminate sessionId => updateSession sessionId (·.terminate) registry

theorem cleanupSession_registry (srv : Server) (txn : ClientTxn) :
    (srv.cleanupSession txn).1.registry =
      cleanupRegistry txn.sessionId txn.address srv.registry := by
  simp only [Server.cleanupSession, cleanupRegistry, Server.session, sessionOf_sessionId]
  show _ = if (sessionOf (srv.update txn.sessionId _).registry txn.sessionId).isTerminated then _
    else _
  split
  · show _ = if (sessionOf (srv.update txn.sessionId _).registry txn.sessionId).jobs = [] then _
      else _
    split <;> rfl
  · rfl

theorem step_registry (srv : Server) (step : ServerStep) :
    (srv.step step).registry = step.apply srv.registry := by
  cases step with
  | terminate sessionId => rfl
  | request txn =>
    show ((((srv.addJobToSession txn).dispatch txn).1.cleanupSession txn).1).registry = _
    rw [cleanupSession_registry]
    show _ = cleanupRegistry _ _ (updateSession _ _ (srv.addJobToSession txn).registry)
    rcases (srv.addJobToSession txn).dispatch_registry txn with ⟨hreg, hid⟩ | hreg
    · rw [hreg, updateSession_of_eq hid]
      show (updateSession txn.sessionId (·.addJob txn.address) srv.registry).find? _ ≠ none
      rw [find?_updateSession (SessionInfo.addJob_sessionId _)]
      exact Option.some_ne_none _
    · rw [hreg]

/-- What is written depends on the record that is found. -/
theorem updateSession_congr {id : Nat} {f g : SessionInfo → SessionInfo}
    {registry : List SessionInfo} (h : f (sessionOf registry id) = g (sessionOf registry id)) :
    updateSession id f registry = updateSession id g registry := by
  refine Fifo.modifyFirst_congr fun s hs => ?_
  rw [find?_getSessionInfo] at hs
  cases hs
  exact h

/-- A `CONNECT_OPEN` that none of the branches is for. -/
def ServerStep.OpensUnset (step : ServerStep) (registry : List SessionInfo) : Prop :=
  ∃ txn request, step = .request txn ∧ txn.request = .connectOpen request ∧
    request.protocolVersion < 1 ∧
      (sessionOf registry txn.sessionId).connectionState = NdmpState.listen

/-- The error of a `CONNECT_OPEN` is the only unset variable that gets into a record. -/
theorem sessionEffect_congr {request : NdmpRequest} {s : SessionInfo}
    (h : ∀ r, request = .connectOpen r → r.protocolVersion < 1 →
      s.connectionState ≠ NdmpState.listen) (locals locals' : Locals) :
    sessionEffect request locals s = sessionEffect request locals' s := by
  cases request with
  | connectOpen request =>
    have hcongr : connectOpenError request locals s.enterCriticalSection.connectionState =
        connectOpenError request locals' s.enterCriticalSection.connectionState :=
      connectOpenError_congr (h request rfl) locals locals'
    simp only [sessionEffect, ndmpConnectOpen, hcongr]
  | _ => rfl

theorem apply_among (around : ServerStep.Surroundings) {step : ServerStep}
    {registry : List SessionInfo} (h : ¬ step.OpensUnset registry) :
    (step.among around).apply registry = step.apply registry := by
  cases step with
  | terminate sessionId => rfl
  | request txn =>
    refine congrArg (cleanupRegistry txn.sessionId txn.address) (updateSession_congr ?_)
    rw [sessionOf_updateSession (SessionInfo.addJob_sessionId _)]
    exact sessionEffect_congr (s := (sessionOf registry txn.sessionId).addJob txn.address)
      (fun request hreq hversion hstate => h ⟨txn, request, rfl, hreq, hversion, hstate⟩) _ _

/-! ## One step and one id -/

theorem recordsOf_cleanupRegistry (id address : Nat) (registry : List SessionInfo) :
    recordsOf id (cleanupRegistry id address registry) =
      cleanupRegistry id address (recordsOf id registry) := by
  simp only [cleanupRegistry]
  rw [← recordsOf_updateSession (SessionInfo.removeJob_sessionId _), sessionOf_recordsOf]
  split
  · split
    · exact Fifo.filter_eraseP_self _ _
    · rfl
  · rfl

theorem recordsOf_cleanupRegistry_other {id id' : Nat} (h : id ≠ id') (address : Nat)
    (registry : List SessionInfo) :
    recordsOf id' (cleanupRegistry id address registry) = recordsOf id' registry := by
  have hjob : recordsOf id' (updateSession id (·.removeJob address) registry) =
      recordsOf id' registry :=
    recordsOf_updateSession_other (SessionInfo.removeJob_sessionId _) h registry
  simp only [cleanupRegistry]
  split
  · split
    · rw [recordsOf_eraseP_other h, hjob]
    · exact hjob
  · exact hjob

/-- A step of a session acts on the records of its id as it would if there were no others. -/
theorem recordsOf_apply_self (step : ServerStep) (registry : List SessionInfo) :
    recordsOf step.sessionId (step.apply registry) =
      step.apply (recordsOf step.sessionId registry) := by
  cases step with
  | terminate sessionId => exact recordsOf_updateSession SessionInfo.terminate_sessionId registry
  | request txn =>
    show recordsOf txn.sessionId _ = ServerStep.apply _ _
    simp only [ServerStep.apply]
    rw [recordsOf_cleanupRegistry, recordsOf_updateSession (sessionEffect_sessionId _ _),
      recordsOf_updateSession (SessionInfo.addJob_sessionId _)]
    rfl

/-- A step of another session leaves them alone. -/
theorem recordsOf_apply_other {step : ServerStep} {id : Nat} (h : step.sessionId ≠ id)
    (registry : List SessionInfo) :
    recordsOf id (step.apply registry) = recordsOf id registry := by
  cases step with
  | terminate sessionId =>
    exact recordsOf_updateSession_other SessionInfo.terminate_sessionId h registry
  | request txn =>
    change txn.sessionId ≠ id at h
    simp only [ServerStep.apply]
    rw [recordsOf_cleanupRegistry_other h,
      recordsOf_updateSession_other (sessionEffect_sessionId _ _) h,
      recordsOf_updateSession_other (SessionInfo.addJob_sessionId _) h]

/-! ## Runs -/

/-- **Step.** A step of the session leaves its records alike in two servers where they are. -/
theorem recordsOf_step {srv srv' : Server} {step : ServerStep}
    (h : recordsOf step.sessionId srv.registry = recordsOf step.sessionId srv'.registry)
    (hset : ¬ step.OpensUnset srv.registry) (around : ServerStep.Surroundings) :
    recordsOf step.sessionId (srv.step step).registry =
      recordsOf step.sessionId (srv'.step (step.among around)).registry := by
  have hset' : ¬ step.OpensUnset srv'.registry := by
    rintro ⟨txn, request, rfl, hreq, hversion, hstate⟩
    refine hset ⟨txn, request, rfl, hreq, hversion, ?_⟩
    change recordsOf txn.sessionId _ = recordsOf txn.sessionId _ at h
    rw [← sessionOf_recordsOf, h, sessionOf_recordsOf]
    exact hstate
  rw [step_registry, step_registry, apply_among around hset', recordsOf_apply_self, h,
    recordsOf_apply_self]

/-- **Run.** The steps of other sessions can be left out. -/
theorem recordsOf_run {id : Nat} {steps : List ServerStep} {srv srv' : Server}
    (h : recordsOf id srv.registry = recordsOf id srv'.registry)
    (hset : srv.Meets (fun srv txn => txn.sessionId = id → ¬ UnsetError srv txn) steps)
    (around : Nat → ServerStep.Surroundings) :
    recordsOf id (srv.run steps).registry =
      recordsOf id (srv'.run (stepsAmong around (ownSteps id steps))).registry := by
  induction steps generalizing srv srv' around with
  | nil => exact h
  | cons step steps ih =>
    obtain ⟨hfirst, hrest⟩ := Server.meets_cons.1 hset
    by_cases hid : step.sessionId = id
    · subst hid
      have hstep : ¬ step.OpensUnset srv.registry := by
        rintro ⟨txn, request, rfl, hreq, hversion, hstate⟩
        exact hfirst txn rfl rfl ⟨request, hreq, hversion, hstate⟩
      have hown : ownSteps step.sessionId (step :: steps) =
          step :: ownSteps step.sessionId steps := List.filter_cons_of_pos (by simp)
      rw [hown, stepsAmong, List.mapIdx_cons]
      exact ih (recordsOf_step h hstep (around 0)) hrest fun i => around (i + 1)
    · have hown : ownSteps id (step :: steps) = ownSteps id steps :=
        List.filter_cons_of_neg (by simpa using hid)
      rw [hown]
      refine ih ?_ hrest around
      rw [step_registry, recordsOf_apply_other hid, h]

/-- **Isolation.** For every interleaving of the requests and terminations of any number of
sessions, and for the steps of one of them alone, whatever the commands of either run return and
whatever the unset variables hold: if all requests of both runs are within their limits, and no
`CONNECT_OPEN` of the session comes to version 0 in state `LISTEN`, then both runs are handled
within their memory, and the record of the session afterwards, with its states, its jobs and its
mark, or its absence, is the same. -/
theorem session_isolated (w w' : World) (steps : List ServerStep)
    (around : Nat → ServerStep.Surroundings) (id : Nat)
    (hlimits : (Server.start w).Meets WithinLimits steps)
    (hlimits' : (Server.start w').Meets WithinLimits (stepsAmong around (ownSteps id steps)))
    (hset : (Server.start w).Meets (fun srv txn => txn.sessionId = id → ¬ UnsetError srv txn)
      steps) :
    (Server.start w).Meets Contained steps ∧
      (Server.start w').Meets Contained (stepsAmong around (ownSteps id steps)) ∧
      ((Server.start w).run steps).record id =
        ((Server.start w').run (stepsAmong around (ownSteps id steps))).record id := by
  refine ⟨hlimits.mono fun srv txn => (contained_iff srv txn).2,
    hlimits'.mono fun srv txn => (contained_iff srv txn).2, ?_⟩
  have hrecords := @recordsOf_run id steps (.start w) (.start w') rfl hset around
  rw [Server.record, Server.record, ← find?_recordsOf, hrecords, find?_recordsOf]

/-- What `CONNECT_OPEN` may find in its variable. -/
def stack (replyError : Int) : ServerStep.Surroundings :=
  ⟨default, { (default : Locals) with replyError := replyError }⟩

/-- Two sessions are opened, in one order of their requests. -/
def openBoth (version : Nat) : List ServerStep :=
  [.request (.receive 0 5 [] (.connectOpen ⟨3⟩) default),
    .request (.receive 1 4 [] (.connectOpen ⟨version⟩) default),
    .terminate 5]

/-- `CONNECT_OPEN` has no limits, and version 2 has a branch. -/
theorem openBoth_meets {srv : Server} {steps : List ServerStep}
    (h : ∀ txn, .request txn ∈ steps → txn.request = .connectOpen ⟨3⟩ ∨
      txn.request = .connectOpen ⟨2⟩) :
    srv.Meets (fun srv txn => WithinLimits srv txn ∧ ¬ UnsetError srv txn) steps := by
  rintro pre txn post rfl
  have hopen := h txn (by simp)
  refine ⟨?_, ?_⟩
  · rcases hopen with hreq | hreq <;> rw [WithinLimits, hreq] <;> trivial
  · rintro ⟨request, hreq, hzero, -⟩
    rw [hreq] at hopen
    rcases hopen with ⟨⟨⟩⟩ | ⟨⟨⟩⟩
    · exact absurd hzero (by decide)
    · exact absurd hzero (by decide)

theorem session_isolated_openBoth :
    (Server.start (.boot [])).Meets Contained (openBoth 2) ∧
      (Server.start (.boot [])).Meets Contained
        (stepsAmong (fun _ => stack 9) (ownSteps 4 (openBoth 2))) ∧
      ((Server.start (.boot [])).run (openBoth 2)).record 4 =
        ((Server.start (.boot [])).run
          (stepsAmong (fun _ => stack 9) (ownSteps 4 (openBoth 2)))).record 4 := by
  have hboth : (Server.start (.boot [])).Meets
      (fun srv txn => WithinLimits srv txn ∧ ¬ UnsetError srv txn) (openBoth 2) := by
    refine openBoth_meets fun txn htxn => ?_
    simp only [openBoth, List.mem_cons, ServerStep.request.injEq, reduceCtorEq, List.not_mem_nil,
      or_false] at htxn
    rcases htxn with rfl | rfl
    · exact .inl rfl
    · exact .inr rfl
  have hown : (Server.start (.boot [])).Meets
      (fun srv txn => WithinLimits srv txn ∧ ¬ UnsetError srv txn)
      (stepsAmong (fun _ => stack 9) (ownSteps 4 (openBoth 2))) := by
    refine openBoth_meets fun txn htxn => ?_
    cases List.mem_singleton.1 htxn
    exact .inr rfl
  exact session_isolated _ _ _ _ 4 (hboth.mono fun _ _ h => h.1) (hown.mono fun _ _ h => h.1)
    (hboth.mono fun _ _ h _ => h.2)

/-- After `CONNECT_OPEN` for session 5, version 0 opens session 4; alone, it may find another error
in the variable. -/
theorem not_session_isolated_versionZero :
    ((Server.start (.boot [])).run (openBoth 0)).record 4 ≠
      ((Server.start (.boot [])).run
        (stepsAmong (fun _ => stack 9) (ownSteps 4 (openBoth 0)))).record 4 := by
  decide

end GlfsNdmp
