import GlfsNdmp.SessionRun

/-!
# Which requests make a transfer startable

`ndmp_data_start_backup` and `ndmp_data_start_recover` check that `data_state` holds the code of
`NDMP_DATA_STATE_CONNECTED`. The word is written by requests only, so what it holds is the last
write of the session's history. Two requests write that code: an accepted `DATA_CONNECT`, as
intended, and every `CONNECT_CLOSE`, which stores `HALTED` of the other enumeration.

`startsFollowConnect_iff` says exactly when a run is free of the second kind.
-/

namespace GlfsNdmp

open Register

/-! ## The history of the word -/

/-- What a request writes to `data_state` of its session, given whether it is accepted. -/
def stateWrite (request : NdmpRequest) (accepted : Bool) : Option Int :=
  match request with
  | .connectClose => some NdmpState.halted
  | .dataStartBackup _ | .dataStartRecover _ => some NdmpDataState.halted
  | .dataAbort => if accepted then some NdmpDataState.halted else none
  | .dataStop => if accepted then some NdmpDataState.idle else none
  | .dataListen _ => if accepted then some NdmpDataState.listen else none
  | .dataConnect _ => if accepted then some NdmpDataState.connected else none
  | _ => none

/-- The writes in one session. -/
def stateWriteIn (id : Nat) (e : ServerEvent) : Option Int :=
  if e.input.sessionId = id then stateWrite e.input.request (answeredNoErr e) else none

theorem afterRequest_dataState (txn : ClientTxn) (s : SessionInfo) :
    (afterRequest txn s).dataState =
      (sessionEffect txn.request txn.locals (s.addJob txn.address)).dataState := rfl

theorem getD_ite_some {p : Prop} [Decidable p] (a b : Int) :
    (if p then some a else none).getD b = if p then a else b := by
  split <;> rfl

/-- The own record: the word is overwritten as `stateWrite` says, or stays. -/
theorem xdrDecodeEncode_dataState (srv : Server) (txn : ClientTxn)
    (h : (srv.session txn.sessionId).isTerminated = false) :
    ((xdrDecodeEncode srv txn).1.session txn.sessionId).dataState =
      (stateWrite txn.request (answeredNoErr (eventOf srv txn))).getD
        (srv.session txn.sessionId).dataState := by
  have hanswer := @answeredNoErr_eventOf srv txn h
  rw [xdrDecodeEncode_session srv txn h, afterRequest_dataState]
  revert hanswer
  cases txn.request with
  | connectOpen request => exact fun _ => ndmpConnectOpen_dataState _ _ _
  | dataAbort =>
    intro hanswer
    simp only [stateWrite, getD_ite_some, hanswer rfl rfl, decide_eq_true_eq, sessionEffect,
      ndmpDataAbort_dataState]
    rfl
  | dataStop =>
    intro hanswer
    simp only [stateWrite, getD_ite_some, hanswer rfl rfl, decide_eq_true_eq, sessionEffect,
      ndmpDataStop_dataState]
    rfl
  | dataListen request | dataConnect request =>
    intro hanswer
    simp only [stateWrite, getD_ite_some, hanswer rfl rfl, decide_eq_true_eq, sessionEffect,
      ndmpDataListen, ndmpDataConnect, openDataConnection_dataState]
    rfl
  | connectClose | dataStartBackup | dataStartRecover | acceptNotify | config | dataGetState
  | dataGetEnv | errorMessage => exact fun _ => rfl

theorem stateWriteIn_eventOf (srv : Server) (txn : ClientTxn) :
    stateWriteIn txn.sessionId (eventOf srv txn) =
      stateWrite txn.request (answeredNoErr (eventOf srv txn)) :=
  if_pos rfl

/-- Any record: it is written by the requests of its own session. -/
theorem xdrDecodeEncode_dataState_of (id : Nat) (srv : Server) (txn : ClientTxn)
    (h : srv.NoneTerminated) :
    ((xdrDecodeEncode srv txn).1.session id).dataState =
      (stateWriteIn id (eventOf srv txn)).getD (srv.session id).dataState := by
  unfold stateWriteIn
  by_cases hid : txn.sessionId = id
  · subst hid
    rw [if_pos (show (eventOf srv txn).input.sessionId = txn.sessionId from rfl)]
    exact xdrDecodeEncode_dataState srv txn (h _)
  · rw [if_neg (show ¬ (eventOf srv txn).input.sessionId = id from hid),
      xdrDecodeEncode_session_other srv txn hid]
    rfl

/-- **The word is the last write of the session's history.** -/
theorem dataState_final (id : Nat) {srv : Server} (h : srv.NoneTerminated)
    (txns : List ClientTxn) :
    ((Mealy.final xdrDecodeEncode srv txns).session id).dataState =
      (lastWrite (stateWriteIn id) (Mealy.trace xdrDecodeEncode srv txns)).getD
        (srv.session id).dataState :=
  final_eq_lastWrite (fun srv => (srv.session id).dataState)
    xdrDecodeEncode_noneTerminated (fun srv txn h => xdrDecodeEncode_dataState_of id srv txn h) h
    txns

/-- The two requests that write the code of `NDMP_DATA_STATE_CONNECTED`. -/
theorem stateWrite_eq_connected {request : NdmpRequest} {accepted : Bool}
    (h : stateWrite request accepted = some (NdmpDataState.connected : Int)) :
    request.isClose ∨ request.isConnect ∧ accepted := by
  cases request with
  | connectClose => exact Or.inl rfl
  | dataConnect => cases accepted <;> simp [stateWrite, NdmpRequest.isConnect] at h ⊢
  | dataAbort | dataStop | dataListen => cases accepted <;> simp [stateWrite] at h
  | _ => simp [stateWrite] at h

/-! ## Transfers and what comes before them -/

/-- The requests after which a transfer is no longer startable, by the protocol. -/
def endsConnection (e : ServerEvent) : Bool :=
  e.input.request.isStart || e.input.request.isClose ||
    (e.input.request.isAbort || e.input.request.isStop) && answeredNoErr e

/-- Every transfer of session `id` that passes its state check was preceded by an accepted
`DATA_CONNECT`, with nothing in between that ends it. -/
def StartsFollowConnect (id : Nat) (evs : List ServerEvent) : Prop :=
  ∀ pre e post, evs = pre ++ e :: post → e.input.sessionId = id → e.input.request.isStart →
    (recordOf e).dataState = NdmpDataState.connected →
    ∃ as c bs, pre = as ++ c :: bs ∧ c.input.sessionId = id ∧ c.input.request.isConnect ∧
      answeredNoErr c ∧ ∀ x ∈ bs, x.input.sessionId = id → endsConnection x = false

/-- Between a `CONNECT_CLOSE` and the next transfer request of the session there is an abort, or
another transfer request. -/
def NoStartAfterClose (id : Nat) (txns : List ClientTxn) : Prop :=
  ∀ as c bs t post, txns = as ++ c :: bs ++ t :: post → c.sessionId = id → c.request.isClose →
    t.sessionId = id → t.request.isStart →
    ∃ x ∈ bs, x.sessionId = id ∧ (x.request.isAbort ∨ x.request.isStart)

/-- What ends a connection writes the word. -/
theorem endsConnection_of_no_write {e : ServerEvent}
    (h : stateWrite e.input.request (answeredNoErr e) = none) : endsConnection e = false := by
  unfold endsConnection
  revert h
  cases e.input.request <;> cases answeredNoErr e <;>
    simp [stateWrite, NdmpRequest.isStart, NdmpRequest.isClose, NdmpRequest.isAbort,
      NdmpRequest.isStop]

/-- On a session whose word is the code of `CONNECTED`, an abort is accepted and a connect is not;
requests other than an abort or a transfer leave the word as it is. -/
theorem connected_step {srv : Server} {txn : ClientTxn} (h : srv.NoneTerminated)
    (hconn : (srv.session txn.sessionId).dataState = NdmpDataState.connected) :
    (txn.request.isAbort → answeredNoErr (eventOf srv txn)) ∧
    (txn.request.isConnect → answeredNoErr (eventOf srv txn) = false) ∧
    (txn.request.isAbort = false → txn.request.isStart = false →
      ((xdrDecodeEncode srv txn).1.session txn.sessionId).dataState = NdmpDataState.connected) := by
  have hanswer := @answeredNoErr_eventOf srv txn (h _)
  rw [xdrDecodeEncode_dataState srv txn (h _)]
  revert hanswer
  cases txn.request with
  | dataAbort | dataStop | dataListen | dataConnect =>
    intro hanswer
    simp [hanswer rfl rfl, dataAbortError, dataStopError, addrError, hconn, NdmpRequest.isAbort,
      NdmpRequest.isConnect, stateWrite]
  | _ =>
    simp [hconn, NdmpRequest.isAbort, NdmpRequest.isConnect, NdmpRequest.isStart, stateWrite]

/-- The word stays the code of `CONNECTED` over requests that are no abort and no transfer, and no
connect among them is accepted. -/
theorem connected_run {id : Nat} {srv : Server} {txns : List ClientTxn} (h : srv.NoneTerminated)
    (hconn : (srv.session id).dataState = NdmpDataState.connected)
    (hquiet : ∀ x ∈ txns, x.sessionId = id →
      x.request.isAbort = false ∧ x.request.isStart = false) :
    ((Mealy.final xdrDecodeEncode srv txns).session id).dataState = NdmpDataState.connected ∧
    ∀ e ∈ Mealy.trace xdrDecodeEncode srv txns, e.input.sessionId = id →
      e.input.request.isConnect → answeredNoErr e = false := by
  induction txns generalizing srv with
  | nil => exact ⟨hconn, by simp⟩
  | cons txn txns ih =>
    have hnext : ((xdrDecodeEncode srv txn).1.session id).dataState = NdmpDataState.connected := by
      by_cases hid : txn.sessionId = id
      · subst hid
        have hq := hquiet txn (by simp) rfl
        exact (connected_step h hconn).2.2 hq.1 hq.2
      · rw [xdrDecodeEncode_session_other srv txn hid, hconn]
    obtain ⟨hfinal, hevs⟩ := ih (xdrDecodeEncode_noneTerminated srv txn h) hnext
      fun x hx => hquiet x (List.mem_cons_of_mem _ hx)
    refine ⟨hfinal, fun e he hid hc => ?_⟩
    rcases List.mem_cons.1 he with rfl | he
    · subst hid
      exact (connected_step h hconn).2.1 hc
    · exact hevs e he hid hc

/-- After the request of an event, the word is what the event wrote, if it wrote. -/
theorem dataState_after {id : Nat} (e : ServerEvent) {word : Int} (h : e.before.NoneTerminated)
    (hout : e.output = (xdrDecodeEncode e.before e.input).2) (hw : stateWriteIn id e = some word) :
    ((xdrDecodeEncode e.before e.input).1.session id).dataState = word := by
  rw [xdrDecodeEncode_dataState_of id _ _ h, ← eventOf_of_output hout, hw, Option.getD_some]

theorem stateWriteIn_eq_some {id : Nat} {e : ServerEvent} {word : Int} :
    stateWriteIn id e = some word ↔
      e.input.sessionId = id ∧ stateWrite e.input.request (answeredNoErr e) = some word := by
  unfold stateWriteIn
  split <;> simp_all

/-- A stretch of a run that starts connected and writes nothing has no abort and no transfer. -/
theorem no_abort_of_no_write {id : Nat} {srv : Server} {txns : List ClientTxn}
    (h : srv.NoneTerminated) (hconn : (srv.session id).dataState = NdmpDataState.connected)
    (hnone : ∀ e ∈ Mealy.trace xdrDecodeEncode srv txns, stateWriteIn id e = none) :
    ∀ x ∈ txns, x.sessionId = id → x.request.isAbort = false ∧ x.request.isStart = false := by
  intro x hx hid
  obtain ⟨us, vs, rfl⟩ := List.append_of_mem hx
  rw [Mealy.trace_append_cons] at hnone
  have hword := dataState_final id h us
  rw [(lastWrite_eq_none _).2 fun e he => hnone e (List.mem_append_left _ he)] at hword
  have hfinal : (Mealy.final xdrDecodeEncode srv us).NoneTerminated :=
    Mealy.final_invariant xdrDecodeEncode xdrDecodeEncode_noneTerminated h us
  have hw := hnone (eventOf (Mealy.final xdrDecodeEncode srv us) x) (by simp [eventOf])
  subst hid
  rw [stateWriteIn_eventOf] at hw
  have habort := (connected_step hfinal (hword.trans hconn)).1
  revert hw habort
  cases x.request <;> simp +contextual [stateWrite, NdmpRequest.isAbort, NdmpRequest.isStart]

/-! ## What left the word connected -/

/-- Which of the two kinds of event leaves the code of `CONNECTED` behind: `false` for a close,
`true` for an accepted connect. -/
def connectedBy (id : Nat) (e : ServerEvent) : Option Bool :=
  if e.input.sessionId ≠ id then none
  else if e.input.request.isClose then some false
  else if e.input.request.isConnect ∧ answeredNoErr e then some true
  else none

/-- After a close, no connect of the session is accepted: the close was last. -/
theorem lastWrite_connectedBy_close {id : Nat} {as bs : List ServerEvent} {c : ServerEvent}
    (hid : c.input.sessionId = id) (hclose : c.input.request.isClose)
    (hrefused : ∀ e ∈ bs, e.input.sessionId = id → e.input.request.isConnect →
      answeredNoErr e = false) :
    lastWrite (connectedBy id) (as ++ c :: bs) = some false := by
  apply lastWrite_of_repeat
  · unfold connectedBy
    rw [if_neg (not_not.2 hid), if_pos hclose]
  · intro e he
    unfold connectedBy
    split_ifs with hother hcl hcon
    · exact Or.inl rfl
    · exact Or.inr rfl
    · have hr := hrefused e he (not_not.1 hother) hcon.1
      exact absurd hcon.2 (by simp [hr])
    · exact Or.inl rfl

/-- After an accepted connect that nothing has ended, there is no close: the connect was last. -/
theorem lastWrite_connectedBy_connect {id : Nat} {as bs : List ServerEvent} {c : ServerEvent}
    (hid : c.input.sessionId = id) (hconnect : c.input.request.isConnect) (hans : answeredNoErr c)
    (hends : ∀ e ∈ bs, e.input.sessionId = id → endsConnection e = false) :
    lastWrite (connectedBy id) (as ++ c :: bs) = some true := by
  have hopen : c.input.request.isClose = false := by
    revert hconnect
    cases c.input.request <;> simp [NdmpRequest.isConnect, NdmpRequest.isClose]
  apply lastWrite_of_repeat
  · simp [connectedBy, hid, hopen, hconnect, hans]
  · intro e he
    unfold connectedBy
    split_ifs with hother hcl hcon
    · exact Or.inl rfl
    · have hend := hends e he (not_not.1 hother)
      simp [endsConnection, hcl] at hend
    · exact Or.inr rfl
    · exact Or.inl rfl

/-- A close leaves the word connected. -/
theorem dataState_after_close {srv : Server} {txn : ClientTxn} (h : srv.NoneTerminated)
    (hclose : txn.request.isClose) :
    ((xdrDecodeEncode srv txn).1.session txn.sessionId).dataState = NdmpDataState.connected := by
  rw [xdrDecodeEncode_dataState srv txn (h _)]
  revert hclose
  cases txn.request <;> simp [NdmpRequest.isClose, stateWrite]

/-! ## Both directions -/

/-- A transfer after a close, with no abort and no transfer in between, passes its state check, and
no connect in between was accepted. -/
theorem noStartAfterClose_of_startsFollowConnect {srv : Server} {txns : List ClientTxn} {id : Nat}
    (hstart : srv.NoneTerminated)
    (hprop : StartsFollowConnect id (Mealy.trace xdrDecodeEncode srv txns)) :
    NoStartAfterClose id txns := by
  rintro as c bs t post rfl rfl hc hid ht
  by_contra hno
  have hquiet : ∀ x ∈ bs, x.sessionId = c.sessionId →
      x.request.isAbort = false ∧ x.request.isStart = false := by
    simpa using hno
  have hreach : (Mealy.final xdrDecodeEncode srv as).NoneTerminated :=
    Mealy.final_invariant xdrDecodeEncode xdrDecodeEncode_noneTerminated hstart as
  obtain ⟨hconn, hrefused⟩ := connected_run (xdrDecodeEncode_noneTerminated _ _ hreach)
    (dataState_after_close hreach hc) hquiet
  rw [Mealy.trace_append_cons, Mealy.final_append, Mealy.final_cons, Mealy.trace_append_cons]
    at hprop
  obtain ⟨as', c', bs', hsplit, hid', hc', hans, hends⟩ :=
    hprop _ _ _ rfl hid ht (by rw [recordOf]; simpa only [hid] using hconn)
  -- The last of the two kinds of event would be both a close and an accepted connect.
  have hclose := @lastWrite_connectedBy_close _ (Mealy.trace xdrDecodeEncode srv as) _
    (eventOf (Mealy.final xdrDecodeEncode srv as) c) rfl hc hrefused
  have hconnect := @lastWrite_connectedBy_connect _ as' _ _ hid' hc' hans hends
  rw [← hsplit] at hconnect
  cases hclose.symm.trans hconnect

/-- The word of a startable session was last written by an accepted connect, since a close that
wrote it last would have an abort or another transfer behind it. -/
theorem startsFollowConnect_of_noStartAfterClose {srv : Server} {txns : List ClientTxn} {id : Nat}
    (hstart : srv.NoneTerminated) (hfresh : (srv.session id).dataState ≠ NdmpDataState.connected)
    (hcond : NoStartAfterClose id txns) :
    StartsFollowConnect id (Mealy.trace xdrDecodeEncode srv txns) := by
  intro pre e post hev hid ht hconn
  obtain ⟨as, bs, rfl, rfl, hbefore, -, -⟩ := Mealy.trace_eq_append_cons _ hev
  rw [recordOf, hbefore, hid, dataState_final id hstart] at hconn
  have hlast : lastWrite (stateWriteIn id) (Mealy.trace xdrDecodeEncode srv as) =
      some (NdmpDataState.connected : Int) := by
    revert hconn
    cases lastWrite (stateWriteIn id) (Mealy.trace xdrDecodeEncode srv as) with
    | none => exact fun hconn => absurd hconn hfresh
    | some word => exact fun hconn => congrArg some hconn
  obtain ⟨as', c, bs', hsplit, hwrite, hnone⟩ := (lastWrite_eq_some _).1 hlast
  obtain ⟨hcid, hcw⟩ := stateWriteIn_eq_some.1 hwrite
  refine ⟨as', c, bs', hsplit, hcid, ?_⟩
  rcases stateWrite_eq_connected hcw with hclose | ⟨hcc, hans⟩
  · exfalso
    have hreach := (eventOf_of_mem_trace hstart (hsplit ▸ List.mem_append_cons_self)).1
    obtain ⟨us, vs, rfl, rfl, -, hout, rfl⟩ := Mealy.trace_eq_append_cons _ hsplit
    have hquiet := no_abort_of_no_write (xdrDecodeEncode_noneTerminated _ _ hreach)
      (dataState_after c hreach hout hwrite) hnone
    obtain ⟨x, hx, hxid, hk⟩ := hcond us c.input vs e.input bs rfl hcid hclose hid ht
    have hq := hquiet x hx hxid
    simp_all
  · refine ⟨hcc, hans, fun x hx hxid => ?_⟩
    have hw := hnone x hx
    rw [stateWriteIn, if_pos hxid] at hw
    exact endsConnection_of_no_write hw

/-- **A transfer is startable exactly by a connection.** In a run from the start of the server,
every transfer of session `id` that passes its state check follows an accepted `DATA_CONNECT` that
nothing has ended, if and only if no transfer request follows a `CONNECT_CLOSE` without an abort or
another transfer request in between. -/
theorem startsFollowConnect_iff (w : World) (txns : List ClientTxn) (id : Nat) :
    StartsFollowConnect id (Mealy.trace xdrDecodeEncode (Server.start w) txns) ↔
      NoStartAfterClose id txns := by
  have hstart := Server.noneTerminated_start w
  constructor
  · exact noStartAfterClose_of_startsFollowConnect hstart
  · apply startsFollowConnect_of_noStartAfterClose hstart
    show (SessionInfo.fresh id).dataState ≠ NdmpDataState.connected
    simp [SessionInfo.fresh]

/-- A session that is closed and then asks for a backup, with no connection ever made. -/
def closeThenBackup : List ClientTxn :=
  [.receive 0 4 [] .connectClose default, .receive 1 4 [] (.dataStartBackup ⟨[], []⟩) default]

theorem not_startsFollowConnect_closeThenBackup :
    ¬ StartsFollowConnect 4
      (Mealy.trace xdrDecodeEncode (Server.start (World.boot [])) closeThenBackup) := by
  intro h
  obtain ⟨as, c, bs, hpre, -, hconnect, -⟩ := h [_] _ [] rfl rfl rfl rfl
  cases as with
  | nil =>
    obtain ⟨rfl, -⟩ := List.cons.inj hpre
    cases hconnect
  | cons a as => cases as <;> cases hpre

end GlfsNdmp
