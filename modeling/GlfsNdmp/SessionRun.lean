import GlfsNdmp.Server

/-!
# What a request does to the session records

The step `xdrDecodeEncode` seen from one record: the request's own record changes as
`sessionEffect` says, whatever the commands it runs return, and every other record stays. These
are the spec lemmas of the handlers that the results about runs use.
-/

namespace GlfsNdmp

/-! ## Requests by kind -/

/-- `DATA_START_BACKUP` and `DATA_START_RECOVER`. -/
def NdmpRequest.isStart : NdmpRequest → Bool
  | .dataStartBackup _ | .dataStartRecover _ => true
  | _ => false

def NdmpRequest.isConnect : NdmpRequest → Bool
  | .dataConnect _ => true
  | _ => false

def NdmpRequest.isClose : NdmpRequest → Bool
  | .connectClose => true
  | _ => false

def NdmpRequest.isAbort : NdmpRequest → Bool
  | .dataAbort => true
  | _ => false

def NdmpRequest.isStop : NdmpRequest → Bool
  | .dataStop => true
  | _ => false

/-- The handler leaves `txn->reply.length == 0`. -/
def NdmpRequest.replyEmpty (locals : Locals) : NdmpRequest → Bool
  | .connectClose => true
  | .dataGetState => locals.replyLength == 0
  | _ => false

/-- The handler answers with `NDMP_NOTIFY_CONNECTED`. -/
def NdmpRequest.isNotify : NdmpRequest → Bool
  | .acceptNotify => true
  | _ => false

/-- The error a handler's state and argument check chooses, for the handlers that check. -/
def checkError (request : NdmpRequest) (locals : Locals) (s : SessionInfo) : Option Int :=
  match request with
  | .connectOpen request => some (connectOpenError request locals s.connectionState)
  | .dataListen request => some (addrError request.addrType s.dataState)
  | .dataConnect request => some (addrError request.addrType s.dataState)
  | .dataStartBackup _ | .dataStartRecover _ => some (dataStartError s.dataState)
  | .dataAbort => some (dataAbortError s.dataState)
  | .dataStop => some (dataStopError s.dataState)
  | _ => none

theorem checkError_addJob (request : NdmpRequest) (locals : Locals) (s : SessionInfo)
    (address : Nat) : checkError request locals (s.addJob address) =
      checkError request locals s := by
  cases request <;> rfl

/-! ## Reading and writing records -/

/-- The record of an id, if the registry holds one. -/
def Server.record (srv : Server) (id : Nat) : Option SessionInfo :=
  srv.registry.find? (sessionInfoCmp id)

@[simp] theorem Server.session_update {f : SessionInfo → SessionInfo}
    (hf : ∀ s, (f s).sessionId = s.sessionId) (srv : Server) (id : Nat) :
    (srv.update id f).session id = f (srv.session id) :=
  sessionOf_updateSession hf srv.registry

theorem Server.session_update_other {f : SessionInfo → SessionInfo}
    (hf : ∀ s, (f s).sessionId = s.sessionId) (srv : Server) {id id' : Nat} (h : id ≠ id') :
    (srv.update id f).session id' = srv.session id' :=
  sessionOf_updateSession_other hf h srv.registry

/-- Only the registry decides what a lookup finds. -/
theorem Server.session_congr {srv srv' : Server} (h : srv.registry = srv'.registry) (id : Nat) :
    srv.session id = srv'.session id := by
  rw [Server.session, Server.session, h]

/-! ## The effect of a request -/

/-- The record after a transfer: halted, whatever happened before. -/
def endTransfer (s : SessionInfo) : SessionInfo :=
  { activate s.enterCriticalSection with dataState := NdmpDataState.halted }.exitCriticalSection

/-- What a request does to the record of its session. -/
def sessionEffect (request : NdmpRequest) (locals : Locals) (s : SessionInfo) : SessionInfo :=
  match request with
  | .connectOpen request => (ndmpConnectOpen request locals s).1
  | .connectClose => ndmpConnectClose s
  | .dataStartBackup _ | .dataStartRecover _ => endTransfer s
  | .dataAbort => (ndmpDataAbort s).1
  | .dataStop => (ndmpDataStop s).1
  | .dataListen request => (ndmpDataListen request s).1
  | .dataConnect request => (ndmpDataConnect request s).1
  | .dataGetEnv => s.enterCriticalSection.exitCriticalSection
  | .acceptNotify | .config _ | .dataGetState | .errorMessage => s

/-- The fields no handler writes. -/
theorem sessionEffect_frame (request : NdmpRequest) (locals : Locals) (s : SessionInfo) :
    (sessionEffect request locals s).sessionId = s.sessionId ∧
    (sessionEffect request locals s).jobs = s.jobs ∧
    (sessionEffect request locals s).isTerminated = s.isTerminated := by
  cases request with
  | connectOpen request =>
    simp only [sessionEffect, ndmpConnectOpen]
    split <;> exact ⟨rfl, rfl, rfl⟩
  | dataAbort =>
    simp only [sessionEffect, ndmpDataAbort]
    split <;> exact ⟨rfl, rfl, rfl⟩
  | dataStop =>
    simp only [sessionEffect, ndmpDataStop]
    split <;> exact ⟨rfl, rfl, rfl⟩
  | dataListen request =>
    simp only [sessionEffect, ndmpDataListen, openDataConnection]
    split <;> exact ⟨rfl, rfl, rfl⟩
  | dataConnect request =>
    simp only [sessionEffect, ndmpDataConnect, openDataConnection]
    split <;> exact ⟨rfl, rfl, rfl⟩
  | dataStartBackup request | dataStartRecover request =>
    simp only [sessionEffect, endTransfer, activate]
    split <;> exact ⟨rfl, rfl, rfl⟩
  | _ => exact ⟨rfl, rfl, rfl⟩

theorem sessionEffect_sessionId (request : NdmpRequest) (locals : Locals) (s : SessionInfo) :
    (sessionEffect request locals s).sessionId = s.sessionId :=
  (sessionEffect_frame request locals s).1

/-- A handler that checks writes `data_state` if and only if its check chooses `NDMP_NO_ERR`. -/
theorem openDataConnection_dataState (addrType : Int) (state : NdmpDataState) (s : SessionInfo) :
    (openDataConnection addrType state s).1.dataState =
      if addrError addrType s.dataState = NdmpError.noErr then (state : Int) else s.dataState := by
  show SessionInfo.dataState (if addrError addrType s.dataState = _ then _ else _) = _
  split <;> rfl

theorem ndmpDataAbort_dataState (s : SessionInfo) : (ndmpDataAbort s).1.dataState =
    if dataAbortError s.dataState = NdmpError.noErr then (NdmpDataState.halted : Int)
    else s.dataState := by
  show SessionInfo.dataState (if dataAbortError s.dataState = _ then _ else _) = _
  split <;> rfl

theorem ndmpDataStop_dataState (s : SessionInfo) : (ndmpDataStop s).1.dataState =
    if dataStopError s.dataState = NdmpError.noErr then (NdmpDataState.idle : Int)
    else s.dataState := by
  show SessionInfo.dataState (if dataStopError s.dataState = _ then _ else _) = _
  split <;> rfl

theorem ndmpConnectOpen_dataState (request : NdmpConnectOpenRequest) (locals : Locals)
    (s : SessionInfo) : (ndmpConnectOpen request locals s).1.dataState = s.dataState := by
  show SessionInfo.dataState (if connectOpenError request locals s.connectionState = _ then _ else _) = _
  split <;> rfl

/-- `sessionEffect` is what dispatching does to the registry, up to a lookup of the record. -/
theorem Server.dispatch_registry (srv : Server) (txn : ClientTxn) :
    (srv.dispatch txn).1.registry = srv.registry ∧
        (∀ s, sessionEffect txn.request txn.locals s = s) ∨
      (srv.dispatch txn).1.registry =
        updateSession txn.sessionId (sessionEffect txn.request txn.locals) srv.registry := by
  unfold Server.dispatch
  cases txn.request with
  | acceptNotify | dataGetState | errorMessage => exact Or.inl ⟨rfl, fun _ => rfl⟩
  | config request =>
    refine Or.inl ⟨?_, fun _ => rfl⟩
    simp only
    split <;> rfl
  | connectOpen | connectClose | dataStartBackup | dataStartRecover | dataAbort | dataGetEnv
  | dataStop | dataListen | dataConnect => exact Or.inr rfl

theorem Server.dispatch_session (srv : Server) (txn : ClientTxn) :
    (srv.dispatch txn).1.session txn.sessionId =
      sessionEffect txn.request txn.locals (srv.session txn.sessionId) := by
  rcases srv.dispatch_registry txn with ⟨h, hid⟩ | h
  · rw [Server.session_congr h, hid]
  · rw [Server.session, h, sessionOf_updateSession (sessionEffect_sessionId _ _)]
    rfl

theorem Server.dispatch_session_other (srv : Server) (txn : ClientTxn) {id : Nat}
    (h : txn.sessionId ≠ id) : (srv.dispatch txn).1.session id = srv.session id := by
  rcases srv.dispatch_registry txn with ⟨hreg, -⟩ | hreg
  · exact Server.session_congr hreg id
  · rw [Server.session, hreg, sessionOf_updateSession_other (sessionEffect_sessionId _ _) h]
    rfl

/-! ## The reply -/

theorem Server.dispatch_isEmpty (srv : Server) (txn : ClientTxn) :
    (srv.dispatch txn).2.isEmpty = txn.request.replyEmpty txn.locals := by
  unfold Server.dispatch
  cases txn.request with
  | config request =>
    simp only
    split <;> rfl
  | _ => rfl

/-- The kind of message a reply is, from its header. -/
def TxnReply.messageType : TxnReply → Option Int
  | .message reply => some reply.header.messageType
  | _ => none

/-- Only `ndmp_accept_notify` sends the client a request. -/
theorem Server.dispatch_messageType (srv : Server) (txn : ClientTxn) :
    (srv.dispatch txn).2.messageType = some (NdmpHeaderMessageType.request : Int) ↔
      txn.request.isNotify := by
  unfold Server.dispatch
  cases txn.request with
  | acceptNotify => exact iff_of_true rfl rfl
  | config request =>
    simp only
    split <;> exact iff_of_false (by rintro ⟨⟩) (by rintro ⟨⟩)
  | _ => exact iff_of_false (by rintro ⟨⟩) (by rintro ⟨⟩)

/-- A check that has failed is not made good by the commands, nor the other way round. -/
theorem startError_eq_noErr (done : Bool) (dataState : Int) :
    (if done then dataStartError dataState else (NdmpError.illegalStateErr : Int)) =
      NdmpError.noErr ↔ dataState = NdmpDataState.connected ∧ done := by
  unfold dataStartError
  cases done with
  | false => simp
  | true =>
    by_cases h : dataState = NdmpDataState.connected
    · simp [h]
    · simp only [if_true, ne_eq, h, not_false_iff]
      decide

theorem dispatch_backup_error (srv : Server) {txn : ClientTxn}
    {request : NdmpDataStartBackupRequest} (hreq : txn.request = .dataStartBackup request) :
    (srv.dispatch txn).2.error = some (NdmpError.noErr : Int) ↔
      (srv.session txn.sessionId).dataState = NdmpDataState.connected ∧
        (runBackup request.env txn.client txn.locals txn.answers srv.world).2 := by
  have hreply : (srv.dispatch txn).2.error =
      some (if (runBackup request.env txn.client txn.locals txn.answers srv.world).2
        then dataStartError (srv.session txn.sessionId).dataState
        else NdmpError.illegalStateErr) := by
    simp only [Server.dispatch, hreq]
    rfl
  rw [hreply, Option.some.injEq, startError_eq_noErr]

theorem dispatch_recover_error (srv : Server) {txn : ClientTxn}
    {request : NdmpDataStartRecoverRequest} (hreq : txn.request = .dataStartRecover request) :
    (srv.dispatch txn).2.error = some (NdmpError.noErr : Int) ↔
      (srv.session txn.sessionId).dataState = NdmpDataState.connected ∧
        txn.answers.rsync = 0 := by
  have hreply : (srv.dispatch txn).2.error =
      some (if decide (txn.answers.rsync = 0)
        then dataStartError (srv.session txn.sessionId).dataState
        else NdmpError.illegalStateErr) := by
    simp only [Server.dispatch, hreq]
    rfl
  rw [hreply, Option.some.injEq, startError_eq_noErr, decide_eq_true_eq]

/-! ## The effect outside the records -/

/-- What a request does to the environment, given the record of its session. -/
def environmentEffect (request : NdmpRequest) (s : SessionInfo) (env : List NdmpPval) :
    List NdmpPval :=
  match request with
  | .dataStartBackup request => request.env
  | .dataStop => environmentAfterStop s env
  | _ => env

/-- What a request does to the file and the log of commands. -/
def worldEffect (txn : ClientTxn) (w : World) : World :=
  match txn.request with
  | .dataStartBackup request => (runBackup request.env txn.client txn.locals txn.answers w).1
  | .dataStartRecover request => (runRecover request txn.client txn.locals txn.answers w).1
  | _ => w

theorem Server.dispatch_environment (srv : Server) (txn : ClientTxn) :
    (srv.dispatch txn).1.environment =
      environmentEffect txn.request (srv.session txn.sessionId) srv.environment := by
  unfold Server.dispatch
  cases txn.request with
  | config request =>
    simp only
    split <;> rfl
  | _ => rfl

theorem Server.dispatch_world (srv : Server) (txn : ClientTxn) :
    (srv.dispatch txn).1.world = worldEffect txn srv.world := by
  unfold Server.dispatch worldEffect
  cases txn.request with
  | config request =>
    simp only
    split <;> rfl
  | _ => rfl

theorem Server.cleanupSession_frame (srv : Server) (txn : ClientTxn) :
    (srv.cleanupSession txn).1.environment = srv.environment ∧
    (srv.cleanupSession txn).1.world = srv.world := by
  simp only [Server.cleanupSession]
  split
  · split <;> exact ⟨rfl, rfl⟩
  · exact ⟨rfl, rfl⟩

/-! ## The effect of a whole step -/

theorem Server.addJobToSession_session (srv : Server) (txn : ClientTxn) :
    (srv.addJobToSession txn).session txn.sessionId =
      (srv.session txn.sessionId).addJob txn.address :=
  srv.session_update (SessionInfo.addJob_sessionId _) _

theorem xdrDecodeEncode_environment (srv : Server) (txn : ClientTxn) :
    (xdrDecodeEncode srv txn).1.environment =
      environmentEffect txn.request (srv.session txn.sessionId) srv.environment := by
  simp only [xdrDecodeEncode]
  rw [(Server.cleanupSession_frame _ txn).1, Server.dispatch_environment,
    srv.addJobToSession_session]
  cases txn.request <;> rfl

theorem xdrDecodeEncode_world (srv : Server) (txn : ClientTxn) :
    (xdrDecodeEncode srv txn).1.world = worldEffect txn srv.world := by
  simp only [xdrDecodeEncode]
  rw [(Server.cleanupSession_frame _ txn).2, Server.dispatch_world]
  rfl

/-- The handler with the job bookkeeping around it. -/
def afterRequest (txn : ClientTxn) (s : SessionInfo) : SessionInfo :=
  (sessionEffect txn.request txn.locals (s.addJob txn.address)).removeJob txn.address

theorem Server.cleanupSession_other (srv : Server) (txn : ClientTxn) {id : Nat}
    (h : txn.sessionId ≠ id) : (srv.cleanupSession txn).1.session id = srv.session id := by
  have hupd := srv.session_update_other (SessionInfo.removeJob_sessionId txn.address) h
  simp only [Server.cleanupSession]
  split
  · split
    · rw [Server.session, sessionOf_eq, Fifo.find?_eraseP_other, ← sessionOf_eq]
      · exact hupd
      · intro s hs
        rw [Server.session, sessionOf_sessionId, sessionInfoCmp, beq_iff_eq] at hs
        simp [sessionInfoCmp, hs, h]
    · exact hupd
  · exact hupd

/-- A request of another session leaves a record alone. -/
theorem xdrDecodeEncode_session_other (srv : Server) (txn : ClientTxn) {id : Nat}
    (h : txn.sessionId ≠ id) : (xdrDecodeEncode srv txn).1.session id = srv.session id := by
  simp only [xdrDecodeEncode]
  rw [Server.cleanupSession_other _ _ h, Server.dispatch_session_other _ _ h,
    Server.addJobToSession, Server.session_update_other (SessionInfo.addJob_sessionId _) _ h]

theorem Server.dispatch_addJob_session (srv : Server) (txn : ClientTxn) :
    ((srv.addJobToSession txn).dispatch txn).1.session txn.sessionId =
      sessionEffect txn.request txn.locals ((srv.session txn.sessionId).addJob txn.address) := by
  rw [Server.dispatch_session, srv.addJobToSession_session]

/-- While a session is not terminated, cleaning up after a job leaves its record in place. -/
theorem Server.cleanupSession_of_not_terminated (srv : Server) (txn : ClientTxn)
    (h : (srv.session txn.sessionId).isTerminated = false) :
    srv.cleanupSession txn = (srv.update txn.sessionId (·.removeJob txn.address), false) := by
  have hterm : ((srv.update txn.sessionId (·.removeJob txn.address)).session
      txn.sessionId).isTerminated = false := by
    rw [Server.session_update (SessionInfo.removeJob_sessionId _)]
    exact h
  simp only [Server.cleanupSession, hterm, Bool.false_eq_true, if_false]

theorem Server.dispatch_addJob_not_terminated (srv : Server) (txn : ClientTxn)
    (h : (srv.session txn.sessionId).isTerminated = false) :
    (((srv.addJobToSession txn).dispatch txn).1.session txn.sessionId).isTerminated = false := by
  rw [Server.dispatch_addJob_session, (sessionEffect_frame _ _ _).2.2]
  exact h

/-- While the session is not terminated, its record stays, changed as `afterRequest` says. -/
theorem xdrDecodeEncode_session (srv : Server) (txn : ClientTxn)
    (h : (srv.session txn.sessionId).isTerminated = false) :
    (xdrDecodeEncode srv txn).1.session txn.sessionId =
      afterRequest txn (srv.session txn.sessionId) := by
  simp only [xdrDecodeEncode, Server.cleanupSession_of_not_terminated _ txn
    (srv.dispatch_addJob_not_terminated txn h)]
  rw [Server.session_update (SessionInfo.removeJob_sessionId _), Server.dispatch_addJob_session]
  rfl

/-- While the session is not terminated, the reply is what the handler made, unless empty. -/
theorem xdrDecodeEncode_reply (srv : Server) (txn : ClientTxn)
    (h : (srv.session txn.sessionId).isTerminated = false) :
    (xdrDecodeEncode srv txn).2 =
      if ((srv.addJobToSession txn).dispatch txn).2.isEmpty then none
      else some ((srv.addJobToSession txn).dispatch txn).2 := by
  simp only [xdrDecodeEncode, Server.cleanupSession_of_not_terminated _ txn
    (srv.dispatch_addJob_not_terminated txn h), Bool.false_or]

/-! ## Runs without a termination -/

/-- No record is marked terminated. Requests alone keep it so. -/
def Server.NoneTerminated (srv : Server) : Prop :=
  ∀ id, (srv.session id).isTerminated = false

theorem Server.noneTerminated_start (w : World) : (Server.start w).NoneTerminated :=
  fun _ => rfl

theorem xdrDecodeEncode_noneTerminated (srv : Server) (txn : ClientTxn)
    (h : srv.NoneTerminated) : (xdrDecodeEncode srv txn).1.NoneTerminated := by
  intro id
  by_cases hid : txn.sessionId = id
  · subst hid
    rw [xdrDecodeEncode_session srv txn (h _)]
    show (sessionEffect _ _ _).isTerminated = false
    rw [(sessionEffect_frame _ _ _).2.2]
    exact h txn.sessionId
  · rw [xdrDecodeEncode_session_other srv txn hid]
    exact h id

/-- A step of a run of the server. -/
abbrev ServerEvent := Mealy.Event Server ClientTxn (Option TxnReply)

/-- The record of the request's session as the handler finds it. -/
def recordOf (e : ServerEvent) : SessionInfo := e.before.session e.input.sessionId

/-- The request is answered with `NDMP_NO_ERR`. -/
def answeredNoErr (e : ServerEvent) : Bool :=
  (e.output.bind TxnReply.error) == some (NdmpError.noErr : Int)

/-- The event of handling `txn` in state `srv`. -/
def eventOf (srv : Server) (txn : ClientTxn) : ServerEvent :=
  ⟨srv, txn, (xdrDecodeEncode srv txn).2⟩

@[simp] theorem eventOf_before (srv : Server) (txn : ClientTxn) :
    (eventOf srv txn).before = srv := rfl

@[simp] theorem eventOf_input (srv : Server) (txn : ClientTxn) :
    (eventOf srv txn).input = txn := rfl

theorem eventOf_of_output {e : ServerEvent} (h : e.output = (xdrDecodeEncode e.before e.input).2) :
    e = eventOf e.before e.input := by
  cases e
  simp only at h
  subst h
  rfl

theorem eventOf_of_mem_trace {srv : Server} (h : srv.NoneTerminated) {txns : List ClientTxn}
    {e : ServerEvent} (he : e ∈ Mealy.trace xdrDecodeEncode srv txns) :
    e.before.NoneTerminated ∧ e = eventOf e.before e.input := by
  obtain ⟨hterm, hout⟩ := Mealy.event_invariant xdrDecodeEncode xdrDecodeEncode_noneTerminated h he
  exact ⟨hterm, eventOf_of_output hout⟩

theorem TxnReply.error_of_isEmpty {reply : TxnReply} (h : reply.isEmpty) : reply.error = none := by
  cases reply with
  | message => cases h
  | _ => rfl

/-- A request is answered with `NDMP_NO_ERR` if and only if its handler says so. -/
theorem answeredNoErr_iff_dispatch {srv : Server} {txn : ClientTxn}
    (h : (srv.session txn.sessionId).isTerminated = false) :
    answeredNoErr (eventOf srv txn) ↔
      ((srv.addJobToSession txn).dispatch txn).2.error = some (NdmpError.noErr : Int) := by
  unfold answeredNoErr eventOf
  rw [xdrDecodeEncode_reply srv txn h, beq_iff_eq]
  split
  case isTrue hempty => rw [TxnReply.error_of_isEmpty hempty, Option.bind_none]
  case isFalse => rw [Option.bind_some]

/-- The requests whose answer is the outcome of their check. -/
theorem answeredNoErr_eventOf {srv : Server} {txn : ClientTxn}
    (h : (srv.session txn.sessionId).isTerminated = false) (hstart : txn.request.isStart = false)
    {error : Int}
    (hcheck : checkError txn.request txn.locals (srv.session txn.sessionId) = some error) :
    answeredNoErr (eventOf srv txn) = decide (error = NdmpError.noErr) := by
  have hjob : checkError txn.request txn.locals
      ((srv.addJobToSession txn).session txn.sessionId) = some error := by
    rw [srv.addJobToSession_session, checkError_addJob, hcheck]
  unfold answeredNoErr eventOf
  rw [xdrDecodeEncode_reply srv txn h]
  generalize srv.addJobToSession txn = srv' at hjob ⊢
  unfold Server.dispatch
  revert hstart hjob
  cases txn.request with
  | connectOpen request | dataListen request | dataConnect request | dataAbort | dataStop =>
    rintro - ⟨⟩
    rfl
  | dataStartBackup request | dataStartRecover request =>
    rintro ⟨⟩
  | _ =>
    rintro - ⟨⟩

end GlfsNdmp
