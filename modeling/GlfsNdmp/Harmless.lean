import GlfsNdmp.Environment
import GlfsNdmp.Limits
import GlfsNdmp.ReplyMemory

/-!
# Requests that do no harm

A request does no harm if it is handled within its memory, the states of its session and the
environment stay as they are, and the record that is enqueued does not tell the client
`NDMP_NO_ERR`. A handler is inert in a state of the session if none of the requests it can see does
any, whatever is in its variables.

`changesNothing_iff` says, handler by handler, which requests leave the states and the environment
alone and choose an error; `handledSafely_of_inert` and `inert_of_handledSafely` add the memory and
the bytes of the reply.
-/

namespace GlfsNdmp

open Xdr

/-! ## Harm -/

/-- The client may be told `NDMP_NO_ERR`: in a header, or in what an earlier reply has left in the
memory that is sent for a reply never made. -/
def TxnReply.MaySayNoErr : TxnReply → Prop
  | .empty => False
  | .unset _ => True
  | .message reply => reply.header.error = NdmpError.noErr

/-- The states of the session and the environment are as before, and no reply says `NDMP_NO_ERR`. -/
structure LeavesAlone (before after : Server) (sessionId : Nat) (sent : Option TxnReply) : Prop where
  connectionState :
    (after.session sessionId).connectionState = (before.session sessionId).connectionState
  dataState : (after.session sessionId).dataState = (before.session sessionId).dataState
  moverState : (after.session sessionId).moverState = (before.session sessionId).moverState
  environment : after.environment = before.environment
  reply : ∀ reply ∈ sent, ¬ reply.MaySayNoErr

/-- Handling the request, up to `cleanup_session`, changes nothing, and the handler chooses an
error. -/
def ChangesNothing (srv : Server) (txn : ClientTxn) : Prop :=
  LeavesAlone srv ((srv.addJobToSession txn).dispatch txn).1 txn.sessionId (xdrDecodeEncode srv txn).2

/-- The error in the header of the record that is put on `reply_jobs`. -/
def sentError (srv : Server) (txn : ClientTxn) (memory : Nat → UInt8) : Option Int := do
  let bytes ← enqueuedBytes srv txn txn.locals.reply memory
  let (error, _) ← Codec.int.decode (bytes.drop 24)
  some error

/-- The request is handled within its memory and changes nothing, and whatever `reply.message` held,
the client is not told `NDMP_NO_ERR`. -/
structure HandledSafely (srv : Server) (txn : ClientTxn) : Prop where
  contained : Contained (srv.addJobToSession txn) txn
  unchanged : ChangesNothing srv txn
  error : ∀ memory, sentError srv txn memory ≠ some NdmpError.noErr

/-! ## Harmless requests -/

/-- The handler changes neither the record, which is `s` before, nor the environment, which is
`env`, and its reply, if one is sent, carries an error. -/
def NdmpRequest.Harmless (request : NdmpRequest) (locals : Locals) (answers : Answers)
    (s : SessionInfo) (env : List NdmpPval) : Prop :=
  match request with
  | .errorMessage => True
  | .acceptNotify | .dataGetEnv => s.isTerminated = true
  | .config request =>
    s.isTerminated = true ∨ ∃ e, ndmpConfig answers.config request = .error e
  | .dataGetState => s.isTerminated = true ∨ locals.replyLength = 0
  | .connectOpen request => connectOpenError request locals s.connectionState ≠ NdmpError.noErr
  | .connectClose => s.connectionState = NdmpState.halted ∧ s.dataState = NdmpState.halted ∧
      s.moverState = NdmpState.halted
  | .dataStartBackup request => request.env = env ∧ s.dataState = NdmpDataState.halted
  | .dataStartRecover _ => s.dataState = NdmpDataState.halted
  | .dataAbort => dataAbortError s.dataState ≠ NdmpError.noErr
  | .dataStop => dataStopError s.dataState ≠ NdmpError.noErr
  | .dataListen request => addrError request.addrType s.dataState ≠ NdmpError.noErr
  | .dataConnect request => addrError request.addrType s.dataState ≠ NdmpError.noErr

theorem Server.cleanupSession_snd (srv : Server) (txn : ClientTxn) :
    (srv.cleanupSession txn).2 = (srv.session txn.sessionId).isTerminated := by
  have hsame : ((srv.update txn.sessionId (·.removeJob txn.address)).session
      txn.sessionId).isTerminated = (srv.session txn.sessionId).isTerminated := by
    rw [Server.session_update (SessionInfo.removeJob_sessionId _)]
    rfl
  simp only [Server.cleanupSession]
  rw [← hsame]
  split
  · rename_i hterminated
    rw [hterminated]
    split <;> rfl
  · rename_i hterminated
    exact (Bool.eq_false_iff.2 hterminated).symm

/-- What is sent is the reply of the handler, unless it is empty or the session is terminated. -/
theorem mem_xdrDecodeEncode_reply (srv : Server) (txn : ClientTxn) (reply : TxnReply) :
    reply ∈ (xdrDecodeEncode srv txn).2 ↔
      (srv.session txn.sessionId).isTerminated = false ∧ reply.isEmpty = false ∧
        ((srv.addJobToSession txn).dispatch txn).2 = reply := by
  have hterminated : (((srv.addJobToSession txn).dispatch txn).1.session
      txn.sessionId).isTerminated = (srv.session txn.sessionId).isTerminated := by
    rw [Server.dispatch_addJob_session, (sessionEffect_frame _ _ _).2.2]
    rfl
  simp only [xdrDecodeEncode, Server.cleanupSession_snd, hterminated]
  rcases (srv.session txn.sessionId).isTerminated with _ | _
  · rcases hempty : ((srv.addJobToSession txn).dispatch txn).2.isEmpty with _ | _
    · simp only [Bool.or_false, Bool.false_eq_true, if_false, Option.mem_def, Option.some_inj,
        true_and]
      exact ⟨fun h => ⟨h ▸ hempty, h⟩, fun h => h.2⟩
    · simp only [Bool.or_true, if_true, Option.mem_def, reduceCtorEq, true_and, false_iff]
      rintro ⟨hreply, rfl⟩
      rw [hempty] at hreply
      cases hreply
  · simp

/-- The three states of two records are the same. -/
def SameStates (s s' : SessionInfo) : Prop :=
  s'.connectionState = s.connectionState ∧ s'.dataState = s.dataState ∧ s'.moverState = s.moverState

/-- A handler that checks leaves the states as they are if and only if it refuses. -/
theorem sameStates_checked {s accepted : SessionInfo} {error : Int}
    (haccepted : error = NdmpError.noErr → ¬ SameStates s accepted) :
    SameStates s (if error = NdmpError.noErr then accepted
      else s.enterCriticalSection).exitCriticalSection ↔ error ≠ NdmpError.noErr := by
  by_cases herror : error = NdmpError.noErr
  · rw [if_pos herror]
    exact iff_of_false (haccepted herror) fun hne => hne herror
  · rw [if_neg herror]
    exact iff_of_true ⟨rfl, rfl, rfl⟩ herror

theorem sameStates_connectOpen (request : NdmpConnectOpenRequest) (locals : Locals)
    (s : SessionInfo) : SameStates s (ndmpConnectOpen request locals s).1 ↔
      connectOpenError request locals s.connectionState ≠ NdmpError.noErr := by
  refine sameStates_checked fun herror hsame => ?_
  have hconnected : s.enterCriticalSection.connectionState = NdmpState.connected := hsame.1.symm
  rw [hconnected] at herror
  cases herror

theorem sameStates_openDataConnection (addrType : Int) {state : NdmpDataState}
    (hstate : state ≠ .idle) (s : SessionInfo) :
    SameStates s (openDataConnection addrType state s).1 ↔
      addrError addrType s.dataState ≠ NdmpError.noErr := by
  refine sameStates_checked fun herror hsame => ?_
  have hdata : s.enterCriticalSection.dataState = state := hsame.2.1.symm
  rw [hdata] at herror
  cases state with
  | idle => exact hstate rfl
  | active | halted | listen | connected => cases herror

theorem sameStates_abort (s : SessionInfo) : SameStates s (ndmpDataAbort s).1 ↔
    dataAbortError s.dataState ≠ NdmpError.noErr := by
  refine sameStates_checked fun herror hsame => ?_
  have hdata : s.enterCriticalSection.dataState = NdmpDataState.halted := hsame.2.1.symm
  rw [hdata] at herror
  cases herror

theorem sameStates_stop (s : SessionInfo) : SameStates s (ndmpDataStop s).1 ↔
    dataStopError s.dataState ≠ NdmpError.noErr := by
  refine sameStates_checked fun herror hsame => ?_
  have hdata : s.enterCriticalSection.dataState = NdmpDataState.idle := hsame.2.1.symm
  rw [hdata] at herror
  cases herror

theorem sameStates_endTransfer (s : SessionInfo) : SameStates s (endTransfer s) ↔
    s.dataState = NdmpDataState.halted := by
  have heffect : endTransfer s = { s with dataState := NdmpDataState.halted, sLock := false } := by
    unfold endTransfer activate
    split <;> rfl
  rw [heffect]
  exact ⟨fun h => h.2.1.symm, fun h => ⟨rfl, h.symm, rfl⟩⟩

theorem sameStates_connectClose (s : SessionInfo) : SameStates s (ndmpConnectClose s) ↔
    s.connectionState = NdmpState.halted ∧ s.dataState = NdmpState.halted ∧
      s.moverState = NdmpState.halted :=
  ⟨fun h => ⟨h.1.symm, h.2.1.symm, h.2.2.symm⟩, fun h => ⟨h.1.symm, h.2.1.symm, h.2.2.symm⟩⟩

/-- `ChangesNothing` in terms of what the handler does. -/
theorem changesNothing_iff_effects (srv : Server) (txn : ClientTxn) :
    ChangesNothing srv txn ↔
      SameStates (srv.session txn.sessionId)
          (sessionEffect txn.request txn.locals
            ((srv.session txn.sessionId).addJob txn.address)) ∧
        environmentEffect txn.request (srv.session txn.sessionId) srv.environment =
          srv.environment ∧
        ((srv.session txn.sessionId).isTerminated = false →
          ((srv.addJobToSession txn).dispatch txn).2.isEmpty = false →
          ¬ ((srv.addJobToSession txn).dispatch txn).2.MaySayNoErr) := by
  have henv : ((srv.addJobToSession txn).dispatch txn).1.environment =
      environmentEffect txn.request (srv.session txn.sessionId) srv.environment := by
    rw [Server.dispatch_environment, srv.addJobToSession_session]
    cases txn.request <;> rfl
  constructor
  · rintro ⟨hconnection, hdata, hmover, henvironment, hreply⟩
    rw [Server.dispatch_addJob_session] at hconnection hdata hmover
    rw [henv] at henvironment
    refine ⟨⟨hconnection, hdata, hmover⟩, henvironment, fun hterminated hempty => ?_⟩
    exact hreply _ ((mem_xdrDecodeEncode_reply ..).2 ⟨hterminated, hempty, rfl⟩)
  · rintro ⟨⟨hconnection, hdata, hmover⟩, henvironment, hreply⟩
    rw [← Server.dispatch_addJob_session] at hconnection hdata hmover
    rw [← henv] at henvironment
    refine ⟨hconnection, hdata, hmover, henvironment, fun reply hmem => ?_⟩
    obtain ⟨hterminated, hempty, rfl⟩ := (mem_xdrDecodeEncode_reply ..).1 hmem
    exact hreply hterminated hempty

/-- A request that fails its check is answered with an error. -/
theorem Server.dispatch_refused (srv : Server) {txn : ClientTxn} {error : Int}
    (hcheck : checkError txn.request txn.locals (srv.session txn.sessionId) = some error)
    (h : error ≠ NdmpError.noErr) : ¬ (srv.dispatch txn).2.MaySayNoErr := by
  have hdone : ∀ done : Bool,
      (if done then error else (NdmpError.illegalStateErr : Int)) ≠ NdmpError.noErr := by
    rintro (_ | _)
    · simp
    · exact h
  unfold Server.dispatch
  revert hcheck
  cases txn.request with
  | connectOpen request | dataListen request | dataConnect request | dataAbort | dataStop =>
    rintro ⟨⟩
    exact h
  | dataStartBackup request | dataStartRecover request =>
    rintro ⟨⟩
    exact hdone _
  | _ => rintro ⟨⟩

theorem sameStates_of_checkError {request : NdmpRequest} {locals : Locals} {s : SessionInfo}
    {error : Int} (hcheck : checkError request locals s = some error)
    (hstart : request.isStart = false) :
    SameStates s (sessionEffect request locals s) ↔ error ≠ NdmpError.noErr := by
  revert hcheck hstart
  cases request with
  | connectOpen request =>
    rintro ⟨⟩ -
    exact sameStates_connectOpen request locals s
  | dataListen request =>
    rintro ⟨⟩ -
    exact sameStates_openDataConnection request.addrType (by decide) s
  | dataConnect request =>
    rintro ⟨⟩ -
    exact sameStates_openDataConnection request.addrType (by decide) s
  | dataAbort =>
    rintro ⟨⟩ -
    exact sameStates_abort s
  | dataStop =>
    rintro ⟨⟩ -
    exact sameStates_stop s
  | dataStartBackup request | dataStartRecover request => rintro - ⟨⟩
  | _ => rintro ⟨⟩

theorem environmentEffect_of_checkError {request : NdmpRequest} {locals : Locals} {s : SessionInfo}
    {error : Int} (hcheck : checkError request locals s = some error)
    (hstart : request.isStart = false) (h : error ≠ NdmpError.noErr) (env : List NdmpPval) :
    environmentEffect request s env = env := by
  revert hcheck hstart
  cases request with
  | dataStop =>
    rintro ⟨⟩ -
    exact if_neg h
  | dataStartBackup request => rintro - ⟨⟩
  | _ => exact fun _ _ => rfl

theorem changesNothing_of_checkError (srv : Server) {txn : ClientTxn} {error : Int}
    (hcheck : checkError txn.request txn.locals (srv.session txn.sessionId) = some error)
    (hstart : txn.request.isStart = false) :
    ChangesNothing srv txn ↔ error ≠ NdmpError.noErr := by
  have hsame : SameStates (srv.session txn.sessionId) (sessionEffect txn.request txn.locals
      ((srv.session txn.sessionId).addJob txn.address)) ↔ error ≠ NdmpError.noErr :=
    sameStates_of_checkError ((checkError_addJob ..).trans hcheck) hstart
  have hcheck' : checkError txn.request txn.locals
      ((srv.addJobToSession txn).session txn.sessionId) = some error := by
    rw [srv.addJobToSession_session, checkError_addJob, hcheck]
  rw [changesNothing_iff_effects]
  constructor
  · exact fun h => hsame.1 h.1
  · intro h
    exact ⟨hsame.2 h, environmentEffect_of_checkError hcheck hstart h _,
      fun _ _ => Server.dispatch_refused _ hcheck' h⟩

/-- A transfer ends halted, and is refused where the session was halted before. -/
theorem changesNothing_of_isStart (srv : Server) {txn : ClientTxn}
    (hstart : txn.request.isStart = true) :
    ChangesNothing srv txn ↔
      environmentEffect txn.request (srv.session txn.sessionId) srv.environment =
          srv.environment ∧
        (srv.session txn.sessionId).dataState = NdmpDataState.halted := by
  have heffect : ∀ s, sessionEffect txn.request txn.locals s = endTransfer s ∧
      checkError txn.request txn.locals s = some (dataStartError s.dataState) := by
    intro s
    revert hstart
    cases txn.request with
    | dataStartBackup request | dataStartRecover request => exact fun _ => ⟨rfl, rfl⟩
    | _ => rintro ⟨⟩
  have hsame := sameStates_endTransfer ((srv.session txn.sessionId).addJob txn.address)
  rw [changesNothing_iff_effects, (heffect _).1]
  constructor
  · exact fun h => ⟨h.2.1, hsame.1 h.1⟩
  · rintro ⟨henv, hhalted⟩
    refine ⟨hsame.2 hhalted, henv, fun _ _ => Server.dispatch_refused _ (heffect _).2 ?_⟩
    have hrefused : dataStartError (srv.session txn.sessionId).dataState ≠ NdmpError.noErr := by
      rw [hhalted]
      decide
    rw [srv.addJobToSession_session]
    exact hrefused

/-- Of a request that changes nothing, the reply decides. -/
theorem changesNothing_of_unchanged (srv : Server) {txn : ClientTxn}
    (hsame : SameStates (srv.session txn.sessionId) (sessionEffect txn.request txn.locals
      ((srv.session txn.sessionId).addJob txn.address)))
    (henv : environmentEffect txn.request (srv.session txn.sessionId) srv.environment =
      srv.environment) :
    ChangesNothing srv txn ↔ (srv.session txn.sessionId).isTerminated = true ∨
      (((srv.addJobToSession txn).dispatch txn).2.isEmpty = false →
        ¬ ((srv.addJobToSession txn).dispatch txn).2.MaySayNoErr) := by
  rw [changesNothing_iff_effects]
  constructor
  · rintro ⟨-, -, hreply⟩
    rcases hterminated : (srv.session txn.sessionId).isTerminated with _ | _
    · exact .inr (hreply hterminated)
    · exact .inl rfl
  · rintro (hterminated | hreply)
    · refine ⟨hsame, henv, fun hnot => ?_⟩
      rw [hterminated] at hnot
      cases hnot
    · exact ⟨hsame, henv, fun _ => hreply⟩

/-- Handling a request changes nothing if and only if its handler does no harm. -/
theorem changesNothing_iff (srv : Server) (txn : ClientTxn) :
    ChangesNothing srv txn ↔ txn.request.Harmless txn.locals txn.answers
      (srv.session txn.sessionId) srv.environment := by
  obtain ⟨s, hs⟩ : ∃ s, srv.session txn.sessionId = s := ⟨_, rfl⟩
  rw [hs]
  cases hrequest : txn.request with
  | connectOpen | dataListen | dataConnect | dataAbort | dataStop =>
    rw [changesNothing_of_checkError srv (by rw [hrequest]; rfl) (by rw [hrequest]; rfl), hs]
    rfl
  | dataStartBackup request =>
    rw [changesNothing_of_isStart srv (by rw [hrequest]; rfl), hrequest, hs]
    rfl
  | dataStartRecover request =>
    rw [changesNothing_of_isStart srv (by rw [hrequest]; rfl), hrequest, hs]
    exact and_iff_right rfl
  | connectClose =>
    rw [changesNothing_iff_effects, hrequest, hs]
    have hempty : ((srv.addJobToSession txn).dispatch txn).2 = .empty := by
      simp only [Server.dispatch, hrequest]
    rw [hempty]
    constructor
    · exact fun h => (sameStates_connectClose _).1 h.1
    · exact fun h => ⟨(sameStates_connectClose _).2 h, rfl, fun _ _ hno => hno⟩
  | acceptNotify =>
    rw [changesNothing_of_unchanged srv (by rw [hrequest]; exact ⟨rfl, rfl, rfl⟩)
      (by rw [hrequest]; rfl), hs]
    simp only [Server.dispatch, hrequest]
    exact or_iff_left fun h => h rfl rfl
  | dataGetEnv =>
    rw [changesNothing_of_unchanged srv (by rw [hrequest]; exact ⟨rfl, rfl, rfl⟩)
      (by rw [hrequest]; rfl), hs]
    simp only [Server.dispatch, hrequest, ndmpDataGetEnv_eq]
    exact or_iff_left fun h => h rfl rfl
  | dataGetState =>
    rw [changesNothing_of_unchanged srv (by rw [hrequest]; exact ⟨rfl, rfl, rfl⟩)
      (by rw [hrequest]; rfl), hs]
    simp only [Server.dispatch, hrequest]
    refine or_congr Iff.rfl ⟨fun h => ?_, fun h hlength _ => ?_⟩
    · by_contra hlength
      exact h (beq_false_of_ne hlength) trivial
    · exact ne_of_beq_false hlength h
  | config request =>
    rw [changesNothing_of_unchanged srv (by rw [hrequest]; exact ⟨rfl, rfl, rfl⟩)
      (by rw [hrequest]; rfl), hs]
    simp only [Server.dispatch, hrequest, NdmpRequest.Harmless]
    refine or_congr Iff.rfl ?_
    cases hconfig : ndmpConfig txn.answers.config request with
    | ok reply => exact iff_of_false (fun h => h rfl rfl) (by rintro ⟨e, ⟨⟩⟩)
    | error e =>
      refine iff_of_true (fun _ h => ?_) ⟨e, rfl⟩
      rw [ndmpConfig_error hconfig] at h
      cases h
  | errorMessage =>
    rw [changesNothing_of_unchanged srv (by rw [hrequest]; exact ⟨rfl, rfl, rfl⟩)
      (by rw [hrequest]; rfl)]
    simp only [Server.dispatch, hrequest]
    refine iff_of_true (.inr fun _ h => ?_) trivial
    cases h

/-! ## Handlers that do nothing -/

/-- In this state of the session and of the environment the handler does no harm, whatever is in its
variables and whatever the system answers, but for the address type, if that is known not to be
`NDMP_ADDR_LOCAL`. -/
def Inert (s : SessionInfo) (env : List NdmpPval) (addrTypeDecoded : Prop) :
    NdmpMessageHandler → Prop
  | .ndmpErrorMessage => True
  | .ndmpConnectOpen => s.connectionState ≠ NdmpState.listen
  | .ndmpConnectClose => s.connectionState = NdmpState.halted ∧ s.dataState = NdmpState.halted ∧
      s.moverState = NdmpState.halted
  | .ndmpDataStartBackup | .ndmpDataStartRecover => False
  | .ndmpDataAbort => s.dataState = NdmpDataState.halted ∨ s.dataState = NdmpDataState.idle
  | .ndmpDataStop => s.dataState ≠ NdmpDataState.halted
  | .ndmpDataListen => s.isTerminated = true ∧ s.dataState ≠ NdmpDataState.idle
  | .ndmpDataConnect => s.dataState ≠ NdmpDataState.idle ∨ addrTypeDecoded
  | .ndmpDataGetEnv => s.isTerminated = true ∧ env.length ≤ 8 ∧ pairsSize env ≤ 2012
  | .ndmpConfigGetHostInfo | .ndmpConfigGetFsInfo | .ndmpConfigGetScsiInfo => False
  | .ndmpAcceptNotify | .ndmpConfigGetConnectionType | .ndmpConfigGetAuthAttr
  | .ndmpConfigGetButypeInfo | .ndmpConfigGetTapeInfo | .ndmpConfigGetServerInfo
  | .ndmpDataGetState => s.isTerminated = true

/-- Answers with which no CONFIG request fails for the system's sake, and with which those that ask
it do. -/
def willing : Answers :=
  { (default : Answers) with
    config := ⟨some [], some ([], []), some ⟨0, 0, 0, 0, 0, 0⟩, [⟨[], []⟩]⟩ }

def unable : Answers := { (default : Answers) with config := ⟨none, none, none, []⟩ }

/-- Memory in which `txn->reply.length` is not 0, `mount_point` is no pointer to grow,
`comm_data_val` points somewhere, and the address of a reply has a length that wraps around. -/
def dirty : Locals :=
  { (default : Locals) with
    replyLength := 1
    mountPoint := .other
    commDataVal := .other
    reply := { (default : UnsetFields) with dataConnectionAddr := ⟨3, -24⟩ } }

/-- Some eight pairs, as the handler allocates them, are not what is stored. -/
theorem exists_other_environment (env : List NdmpPval) :
    ∃ other : List NdmpPval, other.length = 8 ∧ other ≠ env := by
  by_cases h : env = List.replicate 8 ⟨[], []⟩
  · refine ⟨List.replicate 8 ⟨['a'], []⟩, List.length_replicate, ?_⟩
    rw [h]
    decide
  · exact ⟨_, List.length_replicate, Ne.symm h⟩

/-- The requests a handler can see in its variable. -/
def CanSee (addrTypeDecoded : Prop) (handler : NdmpMessageHandler) (request : NdmpRequest) : Prop :=
  request.handler = handler ∧
    (addrTypeDecoded → ∀ addrType : Int, request = .dataConnect ⟨addrType⟩ →
      addrType ≠ NdmpAddrType.addrLocal)

theorem harmless_of_inert {s : SessionInfo} {env : List NdmpPval} {addrTypeDecoded : Prop}
    {handler : NdmpMessageHandler} (h : Inert s env addrTypeDecoded handler)
    {request : NdmpRequest} (hrequest : CanSee addrTypeDecoded handler request) (locals : Locals)
    (answers : Answers) : request.Harmless locals answers s env := by
  obtain ⟨rfl, haddr⟩ := hrequest
  cases request with
  | acceptNotify | connectClose | errorMessage => exact h
  | dataGetEnv => exact h.1
  | dataStartBackup | dataStartRecover => exact h.elim
  | dataGetState => exact .inl h
  | config request =>
    cases request with
    | getHostInfo | getFsInfo | getScsiInfo => exact h.elim
    | _ => exact .inl h
  | connectOpen request =>
    have hstate : s.connectionState ≠ NdmpState.listen := h
    rw [NdmpRequest.Harmless, connectOpenError, if_pos hstate]
    decide
  | dataAbort =>
    have hstate : s.dataState = NdmpDataState.halted ∨ s.dataState = NdmpDataState.idle := h
    rw [NdmpRequest.Harmless, dataAbortError, if_pos hstate]
    decide
  | dataStop =>
    have hstate : s.dataState ≠ NdmpDataState.halted := h
    rw [NdmpRequest.Harmless, dataStopError, if_pos hstate]
    decide
  | dataListen request =>
    have hstate : s.dataState ≠ NdmpDataState.idle := h.2
    rw [NdmpRequest.Harmless, addrError, if_pos hstate]
    decide
  | dataConnect request =>
    have hstate : s.dataState ≠ NdmpDataState.idle ∨ addrTypeDecoded := h
    rw [NdmpRequest.Harmless, addrError]
    rcases hstate with hidle | hdecoded
    · rw [if_pos hidle]
      decide
    · rw [if_neg (haddr hdecoded _ rfl)]
      split <;> decide

/-! ## What is sent -/

/-- A record that is enqueued whole says the error that was chosen. -/
theorem sentError_of_wellRecorded {srv : Server} {txn : ClientTxn}
    (h : WellRecorded srv txn txn.locals.reply) (memory : Nat → UInt8) :
    ∃ reply, (xdrDecodeEncode srv txn).2 = some (.message reply) ∧
      (Codec.int.Valid reply.header.error →
        sentError srv txn memory = some reply.header.error) := by
  obtain ⟨reply, bytes, houtput, hbytes, hrecorded⟩ := h memory
  have hdrop : bytes.drop 24 = Codec.int.encode reply.header.error ++
      (reply.body.map NdmpReplyBody.encode).getD [] := by
    rw [hrecorded.bytes_eq, NdmpReply.encode, ← List.append_assoc]
    rfl
  refine ⟨reply, houtput, fun hvalid => ?_⟩
  rw [sentError, hbytes, Option.bind_eq_bind, Option.bind_some, hdrop,
    Codec.int.decode_encode hvalid]
  rfl

theorem sentError_of_output {srv : Server} {txn : ClientTxn}
    (h : (xdrDecodeEncode srv txn).2 = none) (memory : Nat → UInt8) :
    sentError srv txn memory = none := by
  rw [sentError, enqueuedBytes, h]
  rfl

/-- An inert handler leaves nothing unset that matters, unless its reply is dropped. -/
theorem unsetHarmless_of_inert {srv : Server} {txn : ClientTxn} {addrTypeDecoded : Prop}
    (h : Inert (srv.session txn.sessionId) srv.environment addrTypeDecoded txn.request.handler)
    (hterminated : (srv.session txn.sessionId).isTerminated = false) :
    UnsetHarmless srv txn txn.locals.reply := by
  unfold UnsetHarmless
  cases hreq : txn.request with
  | dataListen request =>
    rw [hreq] at h
    cases hterminated.symm.trans h.1
  | config request =>
    rw [hreq] at h
    cases request with
    | getHostInfo | getFsInfo | getScsiInfo => exact h.elim
    | _ => exact trivial
  | _ => exact trivial

/-- The errors of inert handlers are numbers of the protocol. -/
theorem valid_of_inert {srv : Server} {txn : ClientTxn} {addrTypeDecoded : Prop}
    (h : Inert (srv.session txn.sessionId) srv.environment addrTypeDecoded txn.request.handler)
    {reply : NdmpReply} (hreply : ((srv.addJobToSession txn).dispatch txn).2 = .message reply) :
    Codec.int.Valid reply.header.error := by
  unfold Server.dispatch at hreply
  simp only [Server.addJobToSession_session] at hreply
  cases hreq : txn.request with
  | connectOpen request =>
    rw [hreq] at h hreply
    have hstate : (srv.session txn.sessionId).connectionState ≠ NdmpState.listen := h
    cases hreply
    show Codec.int.Valid (connectOpenError request txn.locals
      (srv.session txn.sessionId).connectionState)
    rw [connectOpenError, if_pos hstate]
    exact valid_code _
  | dataAbort | dataStop =>
    rw [hreq] at hreply
    cases hreply
    exact valid_ite _ _ _
  | dataListen | dataConnect =>
    rw [hreq] at hreply
    cases hreply
    exact valid_addrError _ _
  | config request =>
    rw [hreq] at hreply
    simp only at hreply
    split at hreply <;> cases hreply
    · exact valid_code .noErr
    · exact valid_code _
  | dataGetEnv =>
    rw [hreq] at hreply
    simp only [ndmpDataGetEnv_eq] at hreply
    cases hreply
    exact valid_code .noErr
  | acceptNotify =>
    rw [hreq] at hreply
    cases hreply
    exact valid_code .noErr
  | errorMessage =>
    rw [hreq] at hreply
    cases hreply
    exact valid_code _
  | dataStartBackup | dataStartRecover =>
    rw [hreq] at h
    exact h.elim
  | connectClose | dataGetState =>
    rw [hreq] at hreply
    cases hreply

/-- A request that is inert has no limits, or is within them. -/
theorem withinLimits_of_inert {srv : Server} {txn : ClientTxn} {addrTypeDecoded : Prop}
    (h : Inert (srv.session txn.sessionId) srv.environment addrTypeDecoded txn.request.handler)
    (haddr : txn.commDataLen = 0) : WithinLimits srv txn := by
  unfold WithinLimits
  cases hreq : txn.request with
  | dataStartBackup | dataStartRecover =>
    rw [hreq] at h
    exact h.elim
  | config request =>
    rw [hreq] at h
    cases request with
    | getHostInfo | getFsInfo | getScsiInfo => exact h.elim
    | _ => exact trivial
  | dataGetEnv =>
    rw [hreq] at h
    exact h.2
  | dataGetState =>
    rw [hreq] at h
    intro hterminated
    cases hterminated.symm.trans h
  | dataConnect => exact .inl haddr
  | _ => exact trivial

/-- A session that goes on is sent a whole record. -/
theorem wellRecorded_of_inert {srv : Server} {txn : ClientTxn} {addrTypeDecoded : Prop}
    (h : Inert (srv.session txn.sessionId) srv.environment addrTypeDecoded txn.request.handler)
    (hcontained : Contained (srv.addJobToSession txn) txn) {output : TxnReply}
    (houtput : output ∈ (xdrDecodeEncode srv txn).2) : WellRecorded srv txn txn.locals.reply := by
  obtain ⟨hterminated, hempty, hdispatch⟩ := (mem_xdrDecodeEncode_reply srv txn output).1 houtput
  have hbuilds : txn.request.buildsReply := by
    cases hreq : txn.request with
    | connectClose =>
      simp only [Server.dispatch, hreq] at hdispatch
      cases hdispatch
      cases hempty
    | dataGetState =>
      rw [hreq] at h
      cases hterminated.symm.trans h
    | _ => rfl
  refine (recorded_iff txn.locals.reply hterminated hbuilds fun reply hreply => ?_).2
    (unsetHarmless_of_inert h hterminated)
  have hmade := ((mem_xdrDecodeEncode_reply srv txn _).1 hreply).2.2
  have hfits := hcontained.reply reply hmade
  rw [NdmpReply.Fits, length_frame, maxMessageSize] at hfits
  omega

/-- **Inert handlers do no harm.** -/
theorem handledSafely_of_inert {srv : Server} {txn : ClientTxn} {addrTypeDecoded : Prop}
    (h : Inert (srv.session txn.sessionId) srv.environment addrTypeDecoded txn.request.handler)
    (hsee : CanSee addrTypeDecoded txn.request.handler txn.request)
    (haddr : txn.commDataLen = 0) : HandledSafely srv txn := by
  have hcontained : Contained (srv.addJobToSession txn) txn :=
    (contained_iff _ _).2 ((withinLimits_addJobToSession srv txn).2 (withinLimits_of_inert h haddr))
  have hunchanged : ChangesNothing srv txn :=
    (changesNothing_iff srv txn).2 (harmless_of_inert h hsee _ _)
  refine ⟨hcontained, hunchanged, fun memory herror => ?_⟩
  cases houtput : (xdrDecodeEncode srv txn).2 with
  | none =>
    rw [sentError_of_output houtput] at herror
    cases herror
  | some output =>
    obtain ⟨reply, hreply, hsent⟩ :=
      sentError_of_wellRecorded (wellRecorded_of_inert h hcontained houtput) memory
    have hmade := ((mem_xdrDecodeEncode_reply srv txn _).1 hreply).2.2
    rw [hsent (valid_of_inert h hmade)] at herror
    exact hunchanged.reply _ hreply (Option.some.inj herror)

/-- Where the length of the unset address wraps around, a refusal says what memory held. -/
theorem sentError_of_listen {srv : Server} {txn : ClientTxn} {request : NdmpDataListenRequest}
    (hterminated : (srv.session txn.sessionId).isTerminated = false)
    (hreq : txn.request = .dataListen request)
    (hstate : (srv.session txn.sessionId).dataState ≠ NdmpDataState.idle)
    (haddr : txn.locals.reply.dataConnectionAddr = ⟨3, -24⟩) :
    sentError srv txn (fun _ => 0) = some NdmpError.noErr := by
  obtain ⟨reply, hreply, -⟩ :=
    @dispatch_message (srv.addJobToSession txn) txn (by rw [hreq]; rfl)
  have hbody : reply.body = none := by
    rw [body_eq_none_listen hreply hreq, Server.addJobToSession_session]
    exact fun h => hstate h.1
  obtain ⟨message, hmessage, hload⟩ := encodeReply_wrapped hbody
  have hmeasure : txn.locals.reply.measureBody txn =
      Measured.word.andThen (NdmpAddrMemory.measure ⟨3, -24⟩) := by
    rw [UnsetFields.measureBody, hreq, ← haddr]
  have hreleased : txn.locals.reply.released txn = true := by
    rw [UnsetFields.released, hreq]
  have houtput : (xdrDecodeEncode srv txn).2 = some (.message reply) :=
    (mem_xdrDecodeEncode_reply srv txn _).2 ⟨hterminated, rfl, hreply⟩
  have hbytes : enqueuedBytes srv txn txn.locals.reply (fun _ => 0) =
      some (frameInPlace message 24) := by
    rw [enqueuedBytes_eq _ houtput, if_pos hreleased, hmeasure, hmessage]
    rfl
  have hdrop : (frameInPlace message 24).drop 24 = [0, 0, 0, 0] :=
    (congrArg (List.drop 24) (frameInPlace_eq message 24)).trans hload
  rw [sentError, hbytes, Option.bind_eq_bind, Option.bind_some, hdrop]
  decide

/-- **Only inert handlers do no harm**, whatever is in their variables and whatever the system
answers. -/
theorem inert_of_handledSafely {srv : Server} {sessionId : Nat} {addrTypeDecoded : Prop}
    {handler : NdmpMessageHandler}
    (h : ∀ request, CanSee addrTypeDecoded handler request → ∀ locals answers,
      ∃ txn : ClientTxn, txn.sessionId = sessionId ∧ txn.request = request ∧
        txn.locals = locals ∧ txn.answers = answers ∧ HandledSafely srv txn) :
    Inert (srv.session sessionId) srv.environment addrTypeDecoded handler := by
  have hharmless : ∀ request, CanSee addrTypeDecoded handler request → ∀ locals answers,
      request.Harmless locals answers (srv.session sessionId) srv.environment := by
    intro request hsee locals answers
    obtain ⟨txn, rfl, rfl, rfl, rfl, hsafe⟩ := h request hsee locals answers
    exact (changesNothing_iff srv txn).1 hsafe.unchanged
  have hlimits : ∀ request, CanSee addrTypeDecoded handler request → ∀ locals answers,
      ∃ txn : ClientTxn, txn.request = request ∧ txn.locals = locals ∧ txn.answers = answers ∧
        WithinLimits srv txn := by
    intro request hsee locals answers
    obtain ⟨txn, -, hreq, hlocals, hanswers, hsafe⟩ := h request hsee locals answers
    have hwithin := (contained_iff _ _).1 hsafe.contained
    exact ⟨txn, hreq, hlocals, hanswers, (withinLimits_addJobToSession srv txn).1 hwithin⟩
  -- only a request to connect is seen with an address
  have hsee : ∀ request : NdmpRequest, request.handler = handler →
      handler ≠ .ndmpDataConnect → CanSee addrTypeDecoded handler request := by
    rintro request rfl hother
    exact ⟨rfl, fun _ addrType heq => absurd (heq ▸ rfl) hother⟩
  have hconfig : ∀ request : NdmpConfigRequest,
      (NdmpRequest.config request).handler = handler →
      (∃ reply, ndmpConfig willing.config request = .ok reply) →
      (srv.session sessionId).isTerminated = true := by
    rintro request hhandler ⟨reply, hreply⟩
    have hother : handler ≠ .ndmpDataConnect := by
      rw [← hhandler]
      cases request <;> exact fun heq => by cases heq
    rcases hharmless (.config request) (hsee _ hhandler hother) dirty willing with
      hterminated | ⟨e, he⟩
    · exact hterminated
    · rw [hreply] at he
      cases he
  cases handler with
  | ndmpErrorMessage => exact trivial
  | ndmpAcceptNotify => exact hharmless .acceptNotify (hsee _ rfl (by decide)) dirty willing
  | ndmpDataGetEnv =>
    obtain ⟨txn, hreq, -, -, hwithin⟩ :=
      hlimits .dataGetEnv (hsee _ rfl (by decide)) dirty willing
    rw [WithinLimits, hreq] at hwithin
    exact ⟨hharmless .dataGetEnv (hsee _ rfl (by decide)) dirty willing, hwithin⟩
  | ndmpDataGetState =>
    rcases hharmless .dataGetState (hsee _ rfl (by decide)) dirty willing with
      hterminated | hzero
    · exact hterminated
    · cases hzero
  | ndmpConnectClose => exact hharmless .connectClose (hsee _ rfl (by decide)) dirty willing
  | ndmpDataStartRecover =>
    -- `mount_point` is not set
    obtain ⟨txn, hreq, hlocals, -, hwithin⟩ :=
      hlimits (.dataStartRecover ⟨[], [], []⟩) (hsee _ rfl (by decide)) dirty willing
    rw [WithinLimits, hreq] at hwithin
    obtain ⟨_, _, _, _, hrecover⟩ := hwithin
    have hmount := hrecover.mountPoint
    rw [hlocals] at hmount
    cases hmount
  | ndmpDataStartBackup =>
    obtain ⟨other, -, hother⟩ := exists_other_environment srv.environment
    exact hother
      (hharmless (.dataStartBackup ⟨[], other⟩) (hsee _ rfl (by decide)) dirty willing).1
  | ndmpConnectOpen =>
    intro hlisten
    refine hharmless (.connectOpen ⟨1⟩) (hsee _ rfl (by decide)) dirty willing ?_
    rw [hlisten]
    rfl
  | ndmpDataAbort =>
    by_contra hstate
    exact hharmless .dataAbort (hsee _ rfl (by decide)) dirty willing (if_neg hstate)
  | ndmpDataStop =>
    intro hhalted
    exact hharmless .dataStop (hsee _ rfl (by decide)) dirty willing (if_neg (not_not.2 hhalted))
  | ndmpDataListen =>
    have hstate : (srv.session sessionId).dataState ≠ NdmpDataState.idle := by
      intro hidle
      refine hharmless (.dataListen ⟨0⟩) (hsee _ rfl (by decide)) dirty willing ?_
      rw [hidle]
      rfl
    refine ⟨?_, hstate⟩
    by_contra hterminated
    rw [Bool.not_eq_true] at hterminated
    obtain ⟨txn, rfl, hreq, hlocals, -, hsafe⟩ :=
      h (.dataListen ⟨0⟩) (hsee _ rfl (by decide)) dirty willing
    exact hsafe.error _ (sentError_of_listen hterminated hreq hstate (by rw [hlocals]; rfl))
  | ndmpDataConnect =>
    by_contra hnot
    rw [Inert, not_or, not_not] at hnot
    refine hharmless (.dataConnect ⟨0⟩) ⟨rfl, fun hdecoded => absurd hdecoded hnot.2⟩ dirty
      willing ?_
    rw [hnot.1]
    rfl
  | ndmpConfigGetHostInfo =>
    obtain ⟨txn, hreq, -, hanswers, hwithin⟩ :=
      hlimits (.config .getHostInfo) (hsee _ rfl (by decide)) dirty unable
    rw [WithinLimits, hreq, hanswers] at hwithin
    obtain ⟨_, _, _, hhostname, -⟩ := hwithin
    cases hhostname
  | ndmpConfigGetFsInfo =>
    obtain ⟨txn, hreq, -, hanswers, hwithin⟩ :=
      hlimits (.config .getFsInfo) (hsee _ rfl (by decide)) dirty unable
    rw [WithinLimits, hreq, hanswers] at hwithin
    exact hwithin rfl
  | ndmpConfigGetScsiInfo =>
    obtain ⟨txn, hreq, -, hanswers, hwithin⟩ :=
      hlimits (.config .getScsiInfo) (hsee _ rfl (by decide)) dirty unable
    rw [WithinLimits, hreq, hanswers] at hwithin
    exact hwithin.1 rfl
  | ndmpConfigGetConnectionType => exact hconfig .getConnectionType rfl ⟨_, rfl⟩
  | ndmpConfigGetAuthAttr => exact hconfig (.getAuthAttr ndmpAuthNone) rfl ⟨_, rfl⟩
  | ndmpConfigGetButypeInfo => exact hconfig .getButypeInfo rfl ⟨_, rfl⟩
  | ndmpConfigGetTapeInfo => exact hconfig .getTapeInfo rfl ⟨_, rfl⟩
  | ndmpConfigGetServerInfo => exact hconfig .getServerInfo rfl ⟨_, rfl⟩

end GlfsNdmp
