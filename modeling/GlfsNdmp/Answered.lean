import GlfsNdmp.Limits
import GlfsNdmp.ReplyMemory

/-!
# One reply for each request

`answered_iff`: on a session that is not terminated, a request comes to its end and leaves the
record of one reply to it on `reply_jobs`, if and only if it is within its limits, what its refusal
leaves unset does no harm, and its message number is neither that of `NDMP_DATA_GET_STATE`, whose
handler has no statements, nor the one that is meant for new connections.
-/

namespace GlfsNdmp

/-- A request is handled within its memory, and leaves on `reply_jobs` nothing if it is a
`CONNECT_CLOSE`, and the record of one reply to it otherwise, whatever `reply.message` held. -/
def Answered (srv : Server) (txn : ClientTxn) : Prop :=
  Contained (srv.addJobToSession txn) txn ∧
    match (xdrDecodeEncode srv txn).2 with
    | none => ndmpDispatch txn.header.message = .ndmpConnectClose
    | some (.message reply) =>
      ndmpDispatch txn.header.message ≠ .ndmpConnectClose ∧ reply.Answers txn.header ∧
        WellRecorded srv txn txn.locals.reply
    | some _ => False

/-- Within its limits, a request whose handler sets the header is answered unless the header of the
record is cut. -/
theorem answered_iff_of_setsHeader {srv : Server} {txn : ClientTxn}
    (h : (srv.session txn.sessionId).isTerminated = false) (hsets : txn.request.setsHeader)
    (hcontained : Contained (srv.addJobToSession txn) txn) :
    Answered srv txn ↔ UnsetHarmless srv txn txn.locals.reply := by
  have hbuilds : txn.request.buildsReply := by
    revert hsets
    cases txn.request <;> simp [NdmpRequest.setsHeader, NdmpRequest.buildsReply]
  obtain ⟨reply, hreply, herror⟩ := dispatch_message (srv.addJobToSession txn) hbuilds
  obtain ⟨_, hsame, hanswers⟩ := (srv.addJobToSession txn).dispatch_answers hsets
  cases hreply.symm.trans hsame
  obtain ⟨hclose, -, -⟩ := txn.request.setsHeader_iff.1 hsets
  rw [txn.dispatched] at hclose
  have hfits := hcontained.reply reply hreply
  rw [NdmpReply.Fits, length_frame, maxMessageSize] at hfits
  rw [Answered, ← wellRecorded_iff_unsetHarmless txn.locals.reply h hreply herror (by omega),
    xdrDecodeEncode_reply srv txn h, hreply]
  exact ⟨fun hall => hall.2.2.2, fun hrecorded => ⟨hcontained, hclose, hanswers, hrecorded⟩⟩

/-- The three handlers that do not set the header measure nothing that is unset, and two of them
use no memory. -/
theorem harmless_of_not_setsHeader {srv : Server} {txn : ClientTxn}
    (hsets : ¬ txn.request.setsHeader) (hstate : txn.request.handler ≠ .ndmpDataGetState) :
    WithinLimits srv txn ∧ UnsetHarmless srv txn txn.locals.reply := by
  unfold WithinLimits UnsetHarmless
  revert hsets hstate
  cases txn.request <;> simp [NdmpRequest.setsHeader, NdmpRequest.handler]

/-- **One reply for each request.** -/
theorem answered_iff {srv : Server} {txn : ClientTxn}
    (h : (srv.session txn.sessionId).isTerminated = false) :
    Answered srv txn ↔ (txn.header.message ≠ dataGetStateMessage ∧
      txn.header.message ≠ tcpConnectMessage) ∧ WithinLimits srv txn ∧
        UnsetHarmless srv txn txn.locals.reply := by
  rw [ne_eq, ← ndmpDispatch_eq_dataGetState, ne_eq, ← ndmpDispatch_eq_acceptNotify,
    ← txn.dispatched]
  by_cases hsets : txn.request.setsHeader
  · obtain ⟨-, hstate, hnotify⟩ := txn.request.setsHeader_iff.1 hsets
    rw [and_iff_right ⟨hstate, hnotify⟩, ← withinLimits_addJobToSession, ← contained_iff]
    constructor
    · exact fun hall => ⟨hall.1, (answered_iff_of_setsHeader h hsets hall.1).1 hall⟩
    · rintro ⟨hcontained, hharmless⟩
      exact (answered_iff_of_setsHeader h hsets hcontained).2 hharmless
  · have hharmless := @harmless_of_not_setsHeader srv txn hsets
    rw [Answered, xdrDecodeEncode_reply srv txn h, ← txn.dispatched]
    cases hreq : txn.request with
    | connectClose =>
      obtain ⟨hlimits, hunset⟩ := hharmless (by rw [hreq]; rintro ⟨⟩)
      have hcontained := (contained_iff _ _).2 ((withinLimits_addJobToSession srv txn).2 hlimits)
      simp only [Server.dispatch, hreq]
      exact iff_of_true ⟨hcontained, rfl⟩ ⟨⟨by rintro ⟨⟩, by rintro ⟨⟩⟩, hlimits, hunset⟩
    | dataGetState =>
      -- no reply, or one that was never made
      simp only [Server.dispatch, hreq]
      refine iff_of_false ?_ fun h => h.1.1 rfl
      by_cases hzero : (TxnReply.unset txn.locals.replyLength).isEmpty
      · rw [if_pos hzero]
        rintro ⟨-, ⟨⟩⟩
      · rw [if_neg hzero]
        exact fun h => h.2
    | acceptNotify =>
      -- the message is a request
      simp only [Server.dispatch, hreq]
      refine iff_of_false ?_ fun h => h.1.2 rfl
      rintro ⟨-, -, ⟨⟨⟩, -⟩, -⟩
    | _ =>
      rw [hreq] at hsets
      exact absurd rfl hsets

/-- `DATA_ABORT` on a fresh session is answered. -/
theorem answered_dataAbort :
    Answered (Server.start (World.boot [])) (.receive 0 4 [] .dataAbort default) :=
  (answered_iff rfl).2 ⟨by decide, trivial, trivial⟩

/-- `DATA_GET_STATE` is not, whatever `reply.length` was before. -/
theorem not_answered_dataGetState :
    ¬ Answered (Server.start (World.boot [])) (.receive 0 4 [] .dataGetState default) ∧
      ¬ Answered (Server.start (World.boot [])) (.receive 0 4 [] .acceptNotify default) := by
  constructor
  · rintro ⟨-, ⟨⟩⟩
  · rintro ⟨-, -, ⟨⟨⟩, -⟩, -⟩

end GlfsNdmp
