import GlfsNdmp.SessionRun

/-!
# The headers of replies

A handler answers by `set_header`, which copies message and sequence of the request into the header
of the reply. Two of the handlers `ndmp_dispatch` chooses do not: `ndmp_data_get_state` has no
statements, and `ndmp_accept_notify`, meant for the pseudo request of a new connection, makes a
request of its own for whoever sends its number.
-/

namespace GlfsNdmp

/-- The reply to a request: a reply message with its number and its sequence, and the error that
says so when there is no handler for it. -/
structure NdmpReply.Answers (reply : NdmpReply) (header : NdmpHeader) : Prop where
  messageType : reply.header.messageType = NdmpHeaderMessageType.reply
  message : reply.header.message = header.message
  replySequence : reply.header.replySequence = header.sequence
  notSupported : ndmpDispatch header.message = .ndmpErrorMessage →
    reply.header.error = NdmpError.notSupportedErr

/-- The message number of `NDMP_DATA_GET_STATE`. -/
def dataGetStateMessage : Int := 0x400

/-! ## The handlers' replies -/

/-- The handlers that set the header of a reply. -/
def NdmpRequest.setsHeader : NdmpRequest → Bool
  | .acceptNotify | .connectClose | .dataGetState => false
  | _ => true

theorem NdmpRequest.setsHeader_iff (request : NdmpRequest) :
    request.setsHeader ↔ request.handler ≠ .ndmpConnectClose ∧
      request.handler ≠ .ndmpDataGetState ∧ request.handler ≠ .ndmpAcceptNotify := by
  cases request with
  | config request =>
    cases request <;> simp [setsHeader, handler, NdmpConfigRequest.handler]
  | _ => simp [setsHeader, handler]

theorem NdmpRequest.handler_eq_connectClose {request : NdmpRequest} :
    request.handler = .ndmpConnectClose ↔ request = .connectClose := by
  cases request with
  | config request =>
    cases request <;> simp [handler, NdmpConfigRequest.handler]
  | _ => simp [handler]

/-- What `set_header` puts into a header. -/
theorem setHeader_answers (txn : ClientTxn) (sequence timeStamp : Nat) (error : Int)
    (body : Option NdmpReplyBody)
    (herror : ndmpDispatch txn.header.message = .ndmpErrorMessage →
      error = NdmpError.notSupportedErr) :
    (NdmpReply.mk (setHeader txn.header sequence timeStamp error) body).Answers txn.header :=
  ⟨rfl, rfl, rfl, herror⟩

theorem Server.dispatch_answers (srv : Server) {txn : ClientTxn} (h : txn.request.setsHeader) :
    ∃ reply, (srv.dispatch txn).2 = .message reply ∧ reply.Answers txn.header := by
  have hdispatched := txn.dispatched
  unfold Server.dispatch
  cases hreq : txn.request with
  | acceptNotify | connectClose | dataGetState =>
    rw [hreq] at h
    cases h
  | config request =>
    have hhandler : ndmpDispatch txn.header.message ≠ .ndmpErrorMessage := by
      rw [← hdispatched, hreq]
      cases request <;> simp [NdmpRequest.handler, NdmpConfigRequest.handler]
    simp only
    split
    · exact ⟨_, rfl, setHeader_answers _ _ _ _ _ fun heq => absurd heq hhandler⟩
    · exact ⟨_, rfl, setHeader_answers _ _ _ _ _ fun heq => absurd heq hhandler⟩
  | errorMessage => exact ⟨_, rfl, setHeader_answers _ _ _ _ _ fun _ => rfl⟩
  | connectOpen | dataStartBackup | dataStartRecover | dataAbort | dataGetEnv | dataStop
  | dataListen | dataConnect =>
    have hhandler : ndmpDispatch txn.header.message ≠ .ndmpErrorMessage := by
      rw [← hdispatched, hreq]
      simp [NdmpRequest.handler]
    exact ⟨_, rfl, setHeader_answers _ _ _ _ _ fun heq => absurd heq hhandler⟩

/-! ## Message numbers -/

theorem ndmpDispatch_eq_dataGetState {message : Int} :
    ndmpDispatch message = .ndmpDataGetState ↔ message = dataGetStateMessage := by
  constructor
  · intro h
    unfold ndmpDispatch at h
    split at h <;> first | rfl | cases h
  · rintro rfl
    rfl

theorem ndmpDispatch_eq_acceptNotify {message : Int} :
    ndmpDispatch message = .ndmpAcceptNotify ↔ message = tcpConnectMessage := by
  constructor
  · intro h
    unfold ndmpDispatch at h
    split at h <;> first | rfl | cases h
  · rintro rfl
    rfl

end GlfsNdmp
