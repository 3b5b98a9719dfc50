import GlfsNdmp.DataState
import GlfsNdmp.Transfers

/-!
# What lets a data operation succeed

`connection_state` and `data_state` are machines of their own. The data handlers read the second
and never the first: a session that sends no `CONNECT_OPEN`, which the protocol leaves to the
client, is served like one that does.

`dataOperations_run` says what does precede a data operation that succeeds.
-/

namespace GlfsNdmp

open Register

/-! ## Data operations -/

/-- `DATA_LISTEN` and `DATA_CONNECT`, with the address type they ask for. -/
def NdmpRequest.opensData : NdmpRequest → Option Int
  | .dataListen request | .dataConnect request => some request.addrType
  | _ => none

/-- The operations that need the data connection, and those that make it. -/
def NdmpRequest.isDataOperation (request : NdmpRequest) : Bool :=
  request.opensData.isSome || request.isStart

def NdmpRequest.isOpen : NdmpRequest → Bool
  | .connectOpen _ => true
  | _ => false

/-- Every data operation of session `id` that succeeds comes after a `CONNECT_OPEN` that succeeded,
with no `CONNECT_CLOSE` in between. -/
def DataFollowsOpen (id : Nat) (evs : List ServerEvent) : Prop :=
  ∀ pre e post, evs = pre ++ e :: post → e.input.sessionId = id →
    e.input.request.isDataOperation → answeredNoErr e →
    ∃ as o bs, pre = as ++ o :: bs ∧ o.input.sessionId = id ∧ o.input.request.isOpen ∧
      answeredNoErr o ∧ ∀ x ∈ bs, x.input.sessionId = id → x.input.request.isClose = false

/-- A connect on a session that is new. -/
def connectOnly : List ClientTxn :=
  [.receive 0 4 [] (.dataConnect ⟨NdmpAddrType.addrLocal⟩) default]

/-- It succeeds, as the first request there is. -/
theorem not_dataFollowsOpen_connectOnly :
    ¬ DataFollowsOpen 4
      (Mealy.trace xdrDecodeEncode (Server.start (World.boot [])) connectOnly) := by
  intro h
  obtain ⟨as, o, bs, hpre, -⟩ := h [] _ [] rfl rfl rfl rfl
  cases as <;> cases hpre

/-- A session that is opened and closed; then the data connection is stopped and made. -/
def connectAfterClose : List ClientTxn :=
  let receive (address : Nat) (request : NdmpRequest) :=
    ClientTxn.receive address 4 [] request default
  [receive 0 (.connectOpen ⟨3⟩), receive 1 .connectClose, receive 2 .dataAbort, receive 3 .dataStop,
    receive 4 (.dataConnect ⟨NdmpAddrType.addrLocal⟩)]

/-- It succeeds with the `CONNECT_CLOSE` in between. -/
theorem not_dataFollowsOpen_connectAfterClose :
    ¬ DataFollowsOpen 4
      (Mealy.trace xdrDecodeEncode (Server.start (World.boot [])) connectAfterClose) := by
  intro h
  obtain ⟨as, o, bs, hpre, -, hopen, -, hclose⟩ :=
    h (Mealy.trace xdrDecodeEncode (Server.start (World.boot [])) (connectAfterClose.take 4)) _ []
      rfl rfl rfl (by decide)
  cases as with
  | nil =>
    obtain ⟨rfl, rfl⟩ := List.cons.inj hpre
    cases hclose _ List.mem_cons_self rfl
  | cons a as =>
    -- the other three requests are not `CONNECT_OPEN`
    have ho : o ∈ (Mealy.trace xdrDecodeEncode (Server.start (World.boot []))
        (connectAfterClose.take 4)).tail := by
      rw [hpre]
      exact List.mem_append_cons_self
    have hother : ∀ e ∈ (Mealy.trace xdrDecodeEncode (Server.start (World.boot []))
        (connectAfterClose.take 4)).tail, e.input.request.isOpen = false := by decide
    rw [hother o ho] at hopen
    cases hopen

/-! ## What a data operation checks -/

/-- The address and the state decide, whatever the connection state is. -/
theorem answeredNoErr_opensData {srv : Server} {txn : ClientTxn}
    (h : (srv.session txn.sessionId).isTerminated = false) {addrType : Int}
    (hopens : txn.request.opensData = some addrType) :
    answeredNoErr (eventOf srv txn) ↔
      (srv.session txn.sessionId).dataState = NdmpDataState.idle ∧
        addrType = NdmpAddrType.addrLocal := by
  have hstart : txn.request.isStart = false := by
    revert hopens
    cases txn.request with
    | dataStartBackup | dataStartRecover => rintro ⟨⟩
    | _ => exact fun _ => rfl
  have hcheck : checkError txn.request txn.locals (srv.session txn.sessionId) =
      some (addrError addrType (srv.session txn.sessionId).dataState) := by
    revert hopens
    cases txn.request with
    | dataListen | dataConnect => rintro ⟨⟩; rfl
    | _ => rintro ⟨⟩
  rw [answeredNoErr_eventOf h hstart hcheck, decide_eq_true_eq, addrError]
  by_cases hstate : (srv.session txn.sessionId).dataState = NdmpDataState.idle
  · rw [if_neg (not_not.2 hstate)]
    by_cases haddr : addrType = NdmpAddrType.addrLocal
    · simp [hstate, haddr]
    · rw [if_neg haddr]
      exact iff_of_false (by decide) fun h => haddr h.2
  · rw [if_pos hstate]
    exact iff_of_false (by decide) fun h => hstate h.1

/-- A transfer that succeeds found the data connection made. -/
theorem dataState_of_answeredNoErr {srv : Server} {txn : ClientTxn}
    (h : (srv.session txn.sessionId).isTerminated = false) (hstart : txn.request.isStart)
    (hdone : answeredNoErr (eventOf srv txn)) :
    (srv.session txn.sessionId).dataState = NdmpDataState.connected := by
  rw [answeredNoErr_iff_dispatch h] at hdone
  have hrecord := congrArg SessionInfo.dataState (srv.addJobToSession_session txn)
  cases hreq : txn.request with
  | dataStartBackup request => exact hrecord ▸ ((dispatch_backup_error _ hreq).1 hdone).1
  | dataStartRecover request => exact hrecord ▸ ((dispatch_recover_error _ hreq).1 hdone).1
  | _ =>
    rw [hreq] at hstart
    cases hstart

/-- Only an accepted `DATA_STOP` writes the code of `NDMP_DATA_STATE_IDLE`. -/
theorem stateWrite_eq_idle {request : NdmpRequest} {accepted : Bool}
    (h : stateWrite request accepted = some (NdmpDataState.idle : Int)) :
    request.isStop ∧ accepted := by
  cases request with
  | dataStop => cases accepted <;> simp [stateWrite, NdmpRequest.isStop] at h ⊢
  | dataAbort | dataListen | dataConnect => cases accepted <;> simp [stateWrite] at h
  | _ => simp [stateWrite] at h

/-! ## What comes before -/

/-- What holds of the data operations of a session. -/
structure DataOperations (id : Nat) (evs : List ServerEvent) : Prop where
  /-- Listening and connecting succeed in the idle state, for a local address. -/
  opens : ∀ e ∈ evs, e.input.sessionId = id → ∀ addrType ∈ e.input.request.opensData,
    (answeredNoErr e ↔ (recordOf e).dataState = NdmpDataState.idle ∧
      addrType = NdmpAddrType.addrLocal)
  /-- A transfer succeeds in the connected state only. -/
  starts : ∀ e ∈ evs, e.input.sessionId = id → e.input.request.isStart → answeredNoErr e →
    (recordOf e).dataState = NdmpDataState.connected
  /-- After a `CONNECT_CLOSE`, listening and connecting wait for a `DATA_STOP` that succeeds. -/
  afterClose : ∀ as c bs e post, evs = as ++ c :: bs ++ e :: post → c.input.sessionId = id →
    c.input.request.isClose → e.input.sessionId = id → e.input.request.opensData.isSome →
    answeredNoErr e →
    ∃ x ∈ bs, x.input.sessionId = id ∧ x.input.request.isStop ∧ answeredNoErr x
  /-- In a session that has had no `CONNECT_CLOSE`, a transfer that succeeds comes after a
  `DATA_CONNECT` that did, with nothing in between that ends the data connection. -/
  startsFollow : ∀ pre e post, evs = pre ++ e :: post → e.input.sessionId = id →
    e.input.request.isStart → answeredNoErr e →
    (∀ x ∈ pre, x.input.sessionId = id → x.input.request.isClose = false) →
    ∃ as c bs, pre = as ++ c :: bs ∧ c.input.sessionId = id ∧ c.input.request.isConnect ∧
      answeredNoErr c ∧ ∀ x ∈ bs, x.input.sessionId = id → endsConnection x = false

/-- Between a close and a data connection that is made the word is written idle. -/
theorem exists_stop_of_close {srv : Server} {txns : List ClientTxn} {id : Nat}
    (h : srv.NoneTerminated) (hclosed : (srv.session id).dataState = NdmpDataState.connected)
    (hidle : ((Mealy.final xdrDecodeEncode srv txns).session id).dataState = NdmpDataState.idle) :
    ∃ x ∈ Mealy.trace xdrDecodeEncode srv txns,
      x.input.sessionId = id ∧ x.input.request.isStop ∧ answeredNoErr x := by
  rw [dataState_final id h, hclosed] at hidle
  cases hlast : lastWrite (stateWriteIn id) (Mealy.trace xdrDecodeEncode srv txns) with
  | none =>
    rw [hlast] at hidle
    exact absurd hidle (by decide)
  | some word =>
    rw [hlast, Option.getD_some] at hidle
    obtain ⟨as, x, bs, hsplit, hwrite, -⟩ := (lastWrite_eq_some _).1 hlast
    obtain ⟨hid, hwrite⟩ := stateWriteIn_eq_some.1 hwrite
    have hstop := stateWrite_eq_idle (hidle ▸ hwrite)
    exact ⟨x, by simp [hsplit], hid, hstop.1, hstop.2⟩

/-- In a session with no close before its last request nothing comes after one. -/
theorem noStartAfterClose_concat {id : Nat} {txns : List ClientTxn}
    (h : ∀ c ∈ txns, c.sessionId = id → c.request.isClose = false) (txn : ClientTxn) :
    NoStartAfterClose id (txns ++ [txn]) := by
  intro as c bs t post hsplit hid hclose _ _
  have hc : c ∈ txns := by
    rcases List.eq_nil_or_concat post with rfl | ⟨post, y, rfl⟩
    · rw [(List.append_inj' hsplit rfl).1]
      simp
    · rw [List.concat_eq_append, ← List.cons_append, ← List.append_assoc] at hsplit
      rw [(List.append_inj' hsplit rfl).1]
      simp
  rw [h c hc hid] at hclose
  cases hclose

theorem isClose_of_trace {id : Nat} {srv : Server} {txns : List ClientTxn}
    (h : ∀ x ∈ Mealy.trace xdrDecodeEncode srv txns, x.input.sessionId = id →
      x.input.request.isClose = false) :
    ∀ c ∈ txns, c.sessionId = id → c.request.isClose = false := by
  intro c hc
  obtain ⟨us, vs, rfl⟩ := List.append_of_mem hc
  rw [Mealy.trace_append_cons] at h
  exact h (eventOf (Mealy.final xdrDecodeEncode srv us) c) (by simp [eventOf])

/-- **Data operations and what precedes them.** In every run from the start of the server, whether
and when a session has sent a `CONNECT_OPEN`: its data operations succeed as the data state
allows. -/
theorem dataOperations_run (w : World) (txns : List ClientTxn) (id : Nat) :
    DataOperations id (Mealy.trace xdrDecodeEncode (Server.start w) txns) := by
  have hstart := Server.noneTerminated_start w
  have hopens : ∀ e ∈ Mealy.trace xdrDecodeEncode (Server.start w) txns,
      ∀ addrType ∈ e.input.request.opensData, (answeredNoErr e ↔
        (recordOf e).dataState = NdmpDataState.idle ∧ addrType = NdmpAddrType.addrLocal) := by
    intro e he addrType haddr
    obtain ⟨hterm, heq⟩ := eventOf_of_mem_trace hstart he
    rw [heq]
    exact answeredNoErr_opensData (hterm _) haddr
  have hstarts : ∀ e ∈ Mealy.trace xdrDecodeEncode (Server.start w) txns,
      e.input.request.isStart → answeredNoErr e →
      (recordOf e).dataState = NdmpDataState.connected := by
    intro e he hreq hdone
    obtain ⟨hterm, heq⟩ := eventOf_of_mem_trace hstart he
    rw [heq] at hdone
    exact dataState_of_answeredNoErr (hterm _) hreq hdone
  refine ⟨fun e he _ => hopens e he, fun e he _ => hstarts e he, ?_, ?_⟩
  · intro as c bs e post hev hcid hclose hid hopen hdone
    obtain ⟨addrType, haddr⟩ := Option.isSome_iff_exists.1 hopen
    have hidle := ((hopens e (by rw [hev]; simp) addrType haddr).1 hdone).1
    rw [List.append_assoc, List.cons_append] at hev
    have hterm := (eventOf_of_mem_trace hstart (hev ▸ List.mem_append_cons_self)).1
    obtain ⟨us, vs, rfl, rfl, -, -, hrest⟩ := Mealy.trace_eq_append_cons _ hev
    obtain ⟨us', vs', rfl, rfl, heb, -, -⟩ := Mealy.trace_eq_append_cons _ hrest.symm
    refine exists_stop_of_close (xdrDecodeEncode_noneTerminated _ _ hterm) ?_ ?_
    · exact hcid ▸ dataState_after_close hterm hclose
    · rwa [← heb, ← hid]
  · intro pre e post hev hid hreq hdone hquiet
    obtain ⟨as, bs, rfl, rfl, hbefore, hout, -⟩ := Mealy.trace_eq_append_cons _ hev
    have hcond : NoStartAfterClose id (as ++ [e.input]) :=
      noStartAfterClose_concat (isClose_of_trace hquiet) e.input
    have hfresh : ((Server.start w).session id).dataState ≠ NdmpDataState.connected := by
      show (SessionInfo.fresh id).dataState ≠ NdmpDataState.connected
      simp [SessionInfo.fresh]
    refine startsFollowConnect_of_noStartAfterClose hstart hfresh hcond _ e [] ?_ hid hreq ?_
    · rw [Mealy.trace_append_cons, ← hbefore, ← hout]
      rfl
    · exact hstarts e (by rw [hev]; simp) hreq hdone

end GlfsNdmp
