import GlfsNdmp.Limits
import GlfsNdmp.ReplyMemory
import GlfsNdmp.Unset

/-!
# Errors that were not set

Six handlers only choose an error and, at most, change a state. Three of them read what they have
not set: `ndmp_connect_open` has no branch for version 0, a refused `ndmp_data_listen` measures an
address, whose size decides how much of the header there is room for, and `ndmp_data_connect` has an
address of the last arm decoded to where a pointer of its request points.

`determined_iff`: a request is handled within its memory, and the error in the header of the reply
and the states afterwards are functions of the request and the states before, if and only if it is
none of these.
-/

namespace GlfsNdmp

open Xdr

/-- The handlers that choose an error from the state and the arguments and, at most, change the
state. -/
def NdmpRequest.onlyChecks : NdmpRequest → Bool
  | .connectOpen _ | .dataListen _ | .dataConnect _ | .dataAbort | .dataStop => true
  | .config (.getAuthAttr _) => true
  | _ => false

/-- The error in the header that a handler leaves in `reply.message`. -/
def headerError (srv : Server) (txn : ClientTxn) (memory : Nat → UInt8) : Option Int :=
  match (srv.dispatch txn).2 with
  | .message reply => do
    let (message, _) ← encodeReply memory reply (txn.locals.reply.measureBody txn)
    let (error, _) ← Codec.int.decode ((load message 24).drop 20)
    some error
  | _ => none

/-- Whatever is in the handler's locals, it ends, with the same error in its reply and the same
states afterwards. -/
structure Determined (srv : Server) (txn : ClientTxn) : Prop where
  contained : ∀ locals, Contained srv (txn.withLocals locals)
  error : ∀ locals memory, headerError srv (txn.withLocals locals) memory =
    headerError srv txn memory
  connectionState : ∀ locals id,
    ((srv.dispatch (txn.withLocals locals)).1.session id).connectionState =
      ((srv.dispatch txn).1.session id).connectionState
  dataState : ∀ locals id,
    ((srv.dispatch (txn.withLocals locals)).1.session id).dataState =
      ((srv.dispatch txn).1.session id).dataState
  moverState : ∀ locals id,
    ((srv.dispatch (txn.withLocals locals)).1.session id).moverState =
      ((srv.dispatch txn).1.session id).moverState

/-- A `CONNECT_OPEN` the chain of conditions has no branch for. -/
def UnsetError (srv : Server) (txn : ClientTxn) : Prop :=
  ∃ request, txn.request = .connectOpen request ∧ request.protocolVersion < 1 ∧
    (srv.session txn.sessionId).connectionState = NdmpState.listen

theorem connectOpenError_unset {request : NdmpConnectOpenRequest} {connectionState : Int}
    (hversion : request.protocolVersion < 1) (hstate : connectionState = NdmpState.listen)
    (locals : Locals) :
    connectOpenError request locals connectionState = locals.replyError := by
  unfold connectOpenError
  rw [if_neg (not_not.2 hstate), if_neg (by omega), if_neg (by omega)]

theorem connectOpenError_congr {request : NdmpConnectOpenRequest} {connectionState : Int}
    (h : request.protocolVersion < 1 → connectionState ≠ NdmpState.listen)
    (locals locals' : Locals) :
    connectOpenError request locals connectionState =
      connectOpenError request locals' connectionState := by
  unfold connectOpenError
  by_cases hstate : connectionState = NdmpState.listen
  · have hversion : 1 ≤ request.protocolVersion := by
      by_contra hlt
      exact h (by omega) hstate
    rw [if_neg (not_not.2 hstate), if_neg (not_not.2 hstate)]
    by_cases hmax : request.protocolVersion ≤ 3
    · rw [if_pos ⟨hversion, hmax⟩, if_pos ⟨hversion, hmax⟩]
    · have hgt : request.protocolVersion > 3 := by omega
      rw [if_neg fun hle => hmax hle.2, if_pos hgt, if_neg fun hle => hmax hle.2, if_pos hgt]
  · rw [if_pos hstate, if_pos hstate]

/-- A `DATA_LISTEN` that is refused, so that the address of its reply is not set. -/
def UnsetAddr (srv : Server) (txn : ClientTxn) : Prop :=
  ∃ request, txn.request = .dataListen request ∧
    ¬ ((srv.session txn.sessionId).dataState = NdmpDataState.idle ∧
      request.addrType = NdmpAddrType.addrLocal)

/-- A `DATA_CONNECT` to an address whose bytes are put where `comm_data_val` points. -/
def UnsetCommData (txn : ClientTxn) : Prop :=
  txn.commDataLen ≠ 0 ∧ ∃ request, txn.request = .dataConnect request

/-! ## The error in the header -/

/-- The last word of a header. -/
theorem drop_header (header : NdmpHeader) :
    (Wire.header.encode header).drop 20 = Codec.int.encode header.error := rfl

/-- With room for the header, its error is the one that was chosen. -/
theorem headerError_eq {srv : Server} {txn : ClientTxn} {reply : NdmpReply}
    (hreply : (srv.dispatch txn).2 = .message reply) (hfits : reply.encode.length ≤ 2044)
    (hroom : reply.body = none → LeavesHeader (txn.locals.reply.measureBody txn))
    (memory : Nat → UInt8) :
    headerError srv txn memory =
      (Codec.int.decode (Codec.int.encode reply.header.error)).map Prod.fst := by
  obtain ⟨message, length, hmessage, hload⟩ : ∃ message length,
      encodeReply memory reply (txn.locals.reply.measureBody txn) = some (message, length) ∧
        load message 24 = Wire.header.encode reply.header := by
    cases hbody : reply.body with
    | none =>
      obtain ⟨message, hmessage, hload⟩ := encodeReply_none memory hbody (hroom hbody)
      refine ⟨message, 24, hmessage, hload.trans ?_⟩
      rw [NdmpReply.encode, hbody]
      exact List.append_nil _
    | some body =>
      obtain ⟨message, hmessage, hload⟩ := encodeReply_some memory hbody hfits
        (txn.locals.reply.measureBody txn)
      refine ⟨message, _, hmessage, ?_⟩
      have hle : 24 ≤ reply.encode.length := by
        rw [NdmpReply.encode, List.length_append, length_header]
        exact Nat.le_add_right _ _
      have htake : load message 24 = (load message reply.encode.length).take 24 := by
        rw [load, load, ← List.map_take, List.take_range, Nat.min_eq_left hle]
      rw [htake, hload, NdmpReply.encode]
      exact List.take_left' (length_header _)
  rw [headerError, hreply]
  simp only [hmessage, Option.bind_eq_bind, Option.bind_some, hload, drop_header]
  cases Codec.int.decode (Codec.int.encode reply.header.error) <;> rfl

theorem fits_of_onlyChecks (srv : Server) {txn : ClientTxn} (hchecks : txn.request.onlyChecks)
    {reply : NdmpReply} (hreply : (srv.dispatch txn).2 = .message reply) :
    reply.encode.length ≤ 2044 := by
  have hfits : reply.Fits := by
    cases hreq : txn.request with
    | config request =>
      cases request with
      | getAuthAttr =>
        refine ((config_contained_iff srv hreq).2 ?_).reply reply hreply
        rw [WithinLimits, hreq]
        trivial
      | _ =>
        rw [hreq] at hchecks
        cases hchecks
    | connectOpen | dataListen | dataConnect | dataAbort | dataStop =>
      simp only [Server.dispatch, hreq] at hreply
      exact Server.reply_fits _ _ _ (by decide) reply hreply
    | _ =>
      rw [hreq] at hchecks
      cases hchecks
  rw [NdmpReply.Fits, length_frame, maxMessageSize] at hfits
  omega

/-- With the address set, the header has room. -/
theorem leavesHeader_of_onlyChecks {srv : Server} {txn : ClientTxn}
    (hchecks : txn.request.onlyChecks) (haddr : ¬ UnsetAddr srv txn) {reply : NdmpReply}
    (hreply : (srv.dispatch txn).2 = .message reply) (hbody : reply.body = none) :
    LeavesHeader (txn.locals.reply.measureBody txn) := by
  unfold UnsetFields.measureBody
  cases hreq : txn.request with
  | dataListen request =>
    exact absurd ⟨request, hreq, (body_eq_none_listen hreply hreq).1 hbody⟩ haddr
  | config request =>
    cases request with
    | getAuthAttr => exact leavesHeader_authAttr _
    | _ =>
      rw [hreq] at hchecks
      cases hchecks
  | connectOpen | dataConnect | dataAbort | dataStop => exact leavesHeader_size (by decide)
  | _ =>
    rw [hreq] at hchecks
    cases hchecks

/-! ## The locals -/

/-- With every variable set, the locals show neither in the record nor in the reply. -/
theorem dispatch_withLocals {srv : Server} {txn : ClientTxn} (hchecks : txn.request.onlyChecks)
    (h : ¬ UnsetError srv txn) (locals : Locals) :
    sessionEffect txn.request locals (srv.session txn.sessionId) =
        sessionEffect txn.request txn.locals (srv.session txn.sessionId) ∧
      (srv.dispatch (txn.withLocals locals)).2 = (srv.dispatch txn).2 := by
  cases hreq : txn.request with
  | connectOpen request =>
    have hcongr : connectOpenError request locals
          (srv.session txn.sessionId).enterCriticalSection.connectionState =
        connectOpenError request txn.locals
          (srv.session txn.sessionId).enterCriticalSection.connectionState :=
      connectOpenError_congr (fun hversion hstate => h ⟨request, hreq, hversion, hstate⟩) _ _
    refine ⟨?_, ?_⟩
    · simp only [sessionEffect, ndmpConnectOpen]
      rw [hcongr]
    · unfold Server.dispatch
      simp only [ClientTxn.withLocals_request, hreq]
      exact congrArg (fun error => (srv.reply txn error .connectOpen).2) hcongr
  | config request =>
    refine ⟨rfl, ?_⟩
    unfold Server.dispatch
    simp only [ClientTxn.withLocals_request, hreq, ClientTxn.withLocals_answers]
    cases ndmpConfig txn.answers.config request <;> rfl
  | dataListen | dataConnect | dataAbort | dataStop =>
    refine ⟨rfl, ?_⟩
    unfold Server.dispatch
    simp only [ClientTxn.withLocals_request, hreq]
    rfl
  | _ =>
    rw [hreq] at hchecks
    cases hchecks

/-- A handler that only checks leaves a reply. -/
theorem exists_reply_of_onlyChecks (srv : Server) {txn : ClientTxn}
    (hchecks : txn.request.onlyChecks) : ∃ reply, (srv.dispatch txn).2 = .message reply := by
  have hbuilds : txn.request.buildsReply := by
    revert hchecks
    cases txn.request <;> simp [NdmpRequest.onlyChecks, NdmpRequest.buildsReply]
  obtain ⟨reply, hreply, -⟩ := dispatch_message srv hbuilds
  exact ⟨reply, hreply⟩

/-- The error is that of the reply, where it has been set and the header has room. -/
theorem headerError_of_onlyChecks {srv : Server} {txn : ClientTxn}
    (hchecks : txn.request.onlyChecks) (haddr : ¬ UnsetAddr srv txn) {reply : NdmpReply}
    (hreply : (srv.dispatch txn).2 = .message reply) (memory : Nat → UInt8) :
    headerError srv txn memory =
      (Codec.int.decode (Codec.int.encode reply.header.error)).map Prod.fst :=
  headerError_eq hreply (fits_of_onlyChecks srv hchecks hreply)
    (leavesHeader_of_onlyChecks hchecks haddr hreply) memory

/-! ## What is not set -/

/-- Version 0 is answered with what the variable held. -/
theorem not_determined_of_unsetError {srv : Server} {txn : ClientTxn}
    (h : UnsetError srv txn) : ¬ Determined srv txn := by
  obtain ⟨request, hreq, hversion, hstate⟩ := h
  intro hdetermined
  have herror (error : Int) (hword : error = 0 ∨ error = 1) :
      headerError srv (txn.withLocals { txn.locals with replyError := error }) (fun _ => 0) =
        some error := by
    have hchecks : (txn.withLocals { txn.locals with replyError := error }).request.onlyChecks := by
      rw [ClientTxn.withLocals_request, hreq]
      rfl
    have haddr : ¬ UnsetAddr srv (txn.withLocals { txn.locals with replyError := error }) := by
      rintro ⟨_, hlisten, -⟩
      cases hreq.symm.trans hlisten
    obtain ⟨reply, hreply⟩ := exists_reply_of_onlyChecks srv hchecks
    have hchosen : reply.header.error = error := by
      simp only [Server.dispatch, ClientTxn.withLocals_request, hreq] at hreply
      cases hreply
      exact connectOpenError_unset hversion hstate _
    rw [headerError_of_onlyChecks hchecks haddr hreply, hchosen]
    rcases hword with rfl | rfl <;> decide
  have hsame := (hdetermined.error { txn.locals with replyError := 0 } fun _ => 0).trans
    (hdetermined.error { txn.locals with replyError := 1 } fun _ => 0).symm
  rw [herror 0 (.inl rfl), herror 1 (.inr rfl)] at hsame
  cases hsame

/-- The locals of a `DATA_LISTEN`, with another address in its reply. -/
def Locals.withAddr (locals : Locals) (addr : NdmpAddrMemory) : Locals :=
  { locals with reply := { locals.reply with dataConnectionAddr := addr } }

/-- A refusal says what it should where the address is short, and what memory held before where its
length wraps around. -/
theorem not_determined_of_unsetAddr {srv : Server} {txn : ClientTxn}
    (h : UnsetAddr srv txn) : ¬ Determined srv txn := by
  obtain ⟨request, hreq, hrefused⟩ := h
  intro hdetermined
  have hchecks : txn.request.onlyChecks := by
    rw [hreq]
    rfl
  obtain ⟨reply, hreply⟩ := exists_reply_of_onlyChecks srv hchecks
  have hbody : reply.body = none := (body_eq_none_listen hreply hreq).2 hrefused
  have hlocals (addr : NdmpAddrMemory) :
      (srv.dispatch (txn.withLocals (txn.locals.withAddr addr))).2 = .message reply := by
    rw [(dispatch_withLocals hchecks (fun h => ?_) _).2, hreply]
    obtain ⟨_, hopen, -⟩ := h
    cases hreq.symm.trans hopen
  have hmeasure (addr : NdmpAddrMemory) : (txn.locals.withAddr addr).reply.measureBody
      (txn.withLocals (txn.locals.withAddr addr)) = Measured.word.andThen addr.measure := by
    rw [UnsetFields.measureBody, ClientTxn.withLocals_request, hreq]
    rfl
  -- a local address leaves room for the header
  have hshort : headerError srv (txn.withLocals (txn.locals.withAddr ⟨0, 0⟩)) (fun _ => 0) =
      (Codec.int.decode (Codec.int.encode reply.header.error)).map Prod.fst := by
    refine headerError_eq (hlocals _) (fits_of_onlyChecks srv hchecks hreply) (fun _ => ?_) _
    show LeavesHeader ((txn.locals.withAddr ⟨0, 0⟩).reply.measureBody _)
    rw [hmeasure]
    exact leavesHeader_size (by decide)
  -- an IPC address of 2 ^ 32 - 24 bytes leaves room for three words
  have hlong : headerError srv (txn.withLocals (txn.locals.withAddr ⟨3, -24⟩)) (fun _ => 0) =
      some 0 := by
    obtain ⟨message, hmessage, hload⟩ := encodeReply_wrapped hbody
    rw [headerError, hlocals]
    show (do
      let (message, _) ← encodeReply _ reply ((txn.locals.withAddr ⟨3, -24⟩).reply.measureBody _)
      _) = _
    rw [hmeasure, hmessage]
    simp only [Option.bind_eq_bind, Option.bind_some, hload]
    decide
  have hsame := (hdetermined.error (txn.locals.withAddr ⟨0, 0⟩) fun _ => 0).trans
    (hdetermined.error (txn.locals.withAddr ⟨3, -24⟩) fun _ => 0).symm
  rw [hshort, hlong] at hsame
  have hchosen : reply.header.error = 19 ∨ reply.header.error = 9 := by
    simp only [Server.dispatch, hreq] at hreply
    cases hreply
    show addrError _ _ = 19 ∨ addrError _ _ = 9
    unfold addrError
    split
    · exact .inl rfl
    · split
      · rename_i hidle hlocal
        exact absurd ⟨not_not.1 hidle, hlocal⟩ hrefused
      · exact .inr rfl
  rcases hchosen with hchosen | hchosen <;> rw [hchosen] at hsame <;> exact absurd hsame (by decide)

/-- Only an address of the last arm is put where nothing was allocated for it. -/
theorem contained_withLocals_iff (srv : Server) {txn : ClientTxn}
    (hchecks : txn.request.onlyChecks) :
    (∀ locals, Contained srv (txn.withLocals locals)) ↔ ¬ UnsetCommData txn := by
  simp only [contained_iff]
  constructor
  · rintro hall ⟨hput, request, hreq⟩
    have hwithin := hall { txn.locals with commDataVal := .other }
    rw [WithinLimits, ClientTxn.withLocals_request, hreq] at hwithin
    rcases hwithin with hzero | hnull
    · exact hput hzero
    · cases hnull
  · intro hset locals
    unfold WithinLimits
    rw [ClientTxn.withLocals_request]
    cases hreq : txn.request with
    | dataConnect request => exact .inl (not_not.1 fun hput => hset ⟨hput, request, hreq⟩)
    | connectOpen | dataListen | dataAbort | dataStop => trivial
    | config request =>
      cases request with
      | getAuthAttr => trivial
      | _ =>
        rw [hreq] at hchecks
        cases hchecks
    | _ =>
      rw [hreq] at hchecks
      cases hchecks

/-- **Errors that are set.** For each of the six requests, in every state of the server, the handler
ends, and the error in the header of the reply and the states afterwards are functions of the
request and the states before, if and only if the request is neither a `CONNECT_OPEN` of version 0
on a session that waits for one, nor a `DATA_LISTEN` that is refused, nor a `DATA_CONNECT` to an
address with bytes of the last arm. -/
theorem determined_iff (srv : Server) (txn : ClientTxn) (hchecks : txn.request.onlyChecks) :
    Determined srv txn ↔ ¬ UnsetError srv txn ∧ ¬ UnsetAddr srv txn ∧ ¬ UnsetCommData txn := by
  constructor
  · intro h
    exact ⟨fun hunset => not_determined_of_unsetError hunset h,
      fun hunset => not_determined_of_unsetAddr hunset h,
      (contained_withLocals_iff srv hchecks).1 h.contained⟩
  · rintro ⟨herror, haddr, hcommData⟩
    have hchecksWith (locals : Locals) : (txn.withLocals locals).request.onlyChecks := hchecks
    have hrecord (locals : Locals) (id : Nat) :
        (srv.dispatch (txn.withLocals locals)).1.session id = (srv.dispatch txn).1.session id := by
      by_cases hid : txn.sessionId = id
      · subst hid
        rw [srv.dispatch_session txn, ← (dispatch_withLocals hchecks herror locals).1]
        exact srv.dispatch_session (txn.withLocals locals)
      · rw [srv.dispatch_session_other txn hid]
        exact srv.dispatch_session_other (txn.withLocals locals) hid
    obtain ⟨reply, hreply⟩ := exists_reply_of_onlyChecks srv hchecks
    exact {
      contained := (contained_withLocals_iff srv hchecks).2 hcommData
      error := fun locals memory => by
        rw [headerError_of_onlyChecks hchecks haddr hreply]
        exact headerError_of_onlyChecks (hchecksWith locals) haddr
          ((dispatch_withLocals hchecks herror locals).2.trans hreply) memory
      connectionState := fun locals id => by rw [hrecord]
      dataState := fun locals id => by rw [hrecord]
      moverState := fun locals id => by rw [hrecord] }

/-- A first request that asks for version 0. -/
def openVersionZero : ClientTxn := .receive 0 4 [] (.connectOpen ⟨0⟩) default

theorem determined_iff_openVersionZero :
    Determined (Server.start (World.boot [])) openVersionZero ↔
      ¬ UnsetError (Server.start (World.boot [])) openVersionZero ∧
        ¬ UnsetAddr (Server.start (World.boot [])) openVersionZero ∧
          ¬ UnsetCommData openVersionZero :=
  determined_iff _ _ rfl

/-- It is answered with whatever `reply.error` held. -/
theorem not_determined_openVersionZero :
    ¬ Determined (Server.start (World.boot [])) openVersionZero :=
  not_determined_of_unsetError ⟨⟨0⟩, rfl, by decide, by decide⟩

end GlfsNdmp
