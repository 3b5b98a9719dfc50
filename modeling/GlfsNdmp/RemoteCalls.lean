import GlfsNdmp.ClientReads
import GlfsNdmp.Limits
import GlfsNdmp.ReplySizes
import GlfsNdmp.Segments

/-!
# Remote calls

A client puts records on its connection and reads records off it; what lies between is two decoders,
two encoders, a server it shares with others, and a network that cuts the replies as it likes.

**Theorem (`remoteCalls_of_run`).** Each call is answered by one reply, in order, and the client
decodes it as what the handler has made. For this a record has to come in one piece, as the server
does not put pieces together, every request of any client has to be within its limits, and what the
machine says about itself has to fit a reply; that everything else fits is proved here.
-/

namespace GlfsNdmp

open Xdr

/-! ## Calls -/

/-- A record that comes in one piece. -/
structure RemoteCall where
  request : Wire.Request
  arrival : Arrival
  valid : request.Valid
  size : (record request).length ≤ 2048

namespace RemoteCall

variable (call : RemoteCall)

/-- What `recv` has done. -/
def recv : Received := ⟨record call.request, false, call.size, by rintro ⟨⟩⟩

def txn : ClientTxn := call.recv.txn call.arrival

theorem decode_recv : Wire.Request.decode (call.recv.bytes.drop 4) = some (call.request, []) :=
  Wire.Request.decode_encode call.valid

theorem complete : call.recv.Complete := by
  rw [Received.Complete, call.decode_recv]
  rfl

/-- The worker sees the request that was sent. -/
theorem txn_request : call.txn.request = toRequest _ call.request.body := by
  obtain ⟨request, rest, hdecode, hrequest⟩ := Received.txn_of_complete call.complete call.arrival
  rw [call.decode_recv] at hdecode
  cases hdecode
  exact hrequest

theorem txn_header : call.txn.header = call.request.header := by
  have hstream : call.recv.stream call.arrival.memory = call.request.encode := by
    have hlength := length_record call.request
    have hsize := call.size
    exact @requestStream_of_le (record call.request) (by omega) (by omega) _
  have hlong : 24 ≤ call.request.encode.length := by
    rw [Wire.Request.encode, List.length_append, length_header]
    exact Nat.le_add_right _ _
  have hfound := xdrNdmpHeader_of_le call.arrival.memory.header hlong
  rw [Wire.Request.encode, Wire.header.decode_encode call.valid.1] at hfound
  have hheader : call.request.header =
      (xdrNdmpHeader call.arrival.memory.header call.request.encode).1 :=
    (Prod.mk.inj (Option.some.inj hfound)).1
  show (xdrNdmpHeader call.arrival.memory.header (call.recv.stream call.arrival.memory)).1 = _
  rw [hstream, hheader]

end RemoteCall

/-- What comes in: a connection, or a record. -/
inductive Incoming
  | connection (address sessionId : Nat) (client : CString) (answers : Answers)
  | call (call : RemoteCall)

namespace Incoming

/-- The transaction `accept_all_connections` or `handle_a_client_request` makes of it. -/
def txn : Incoming → ClientTxn
  | connection address sessionId client answers =>
    { ClientTxn.receive address sessionId client .acceptNotify answers with isTcpConnect := true }
  | call c => c.txn

/-- `CONNECT_CLOSE` gets no reply. -/
def closes (a : Incoming) : Bool := decide (a.txn.request.handler = .ndmpConnectClose)

/-- What a client expects. The notification answers its connection, and a reply its record. -/
def AnsweredBy : Incoming → NdmpReply → Prop
  | connection .., reply =>
    reply.header.message = ndmpNotifyConnected ∧ reply.body = some (.notifyConnected 0 3 [])
  | call c, reply =>
    reply.Answers c.request.header ∧ (reply.body.isSome ↔ reply.header.error = NdmpError.noErr) ∧
      ∀ body ∈ reply.body, body.handler = ndmpDispatch c.request.header.message

end Incoming

/-- What a session waits for. -/
def awaited (id : Nat) (arrivals : List Incoming) : List Incoming :=
  arrivals.filter fun a => a.txn.sessionId == id && !a.closes

/-- The messages that are not answered. -/
def Incoming.Served : Incoming → Prop
  | .connection .. => True
  | .call c => c.request.header.message ≠ dataGetStateMessage ∧
    c.request.header.message ≠ tcpConnectMessage

/-! ## Answers -/

/-- A reply to a call has the body of the call's handler, or none. -/
theorem handler_of_answers {reply : NdmpReply} {header : NdmpHeader} (h : reply.Answers header)
    (hannounced : reply.Announced) :
    ∀ body ∈ reply.body, body.handler = ndmpDispatch header.message := by
  intro body hbody
  have hhandler := hannounced.handler body hbody
  by_cases hnotify : reply.header.message = ndmpNotifyConnected
  · -- the number of the notification is no request
    have hnone : ndmpDispatch header.message = .ndmpErrorMessage := by
      rw [← h.message, hnotify]
      rfl
    have herror := hannounced.body_iff.1 (Option.isSome_iff_exists.2 ⟨body, hbody⟩)
    rw [h.notSupported hnone] at herror
    exact absurd herror (by decide)
  · rw [← hhandler, announced, if_neg hnotify, h.message]

/-- What comes of a call: nothing if it closes, and else the reply to it. -/
theorem reply_of_incoming {srv : Server} (h : srv.NoneTerminated) {a : Incoming} (ha : a.Served) :
    if a.closes then replyTo ⟨srv, a.txn, (xdrDecodeEncode srv a.txn).2⟩ = none
    else ∃ reply, (xdrDecodeEncode srv a.txn).2 = some (.message reply) ∧ a.AnsweredBy reply := by
  cases a with
  | connection address sessionId client answers =>
    have hcloses : (Incoming.connection address sessionId client answers).closes = false := rfl
    rw [hcloses, if_neg Bool.false_ne_true, xdrDecodeEncode_reply srv _ (h _)]
    exact ⟨_, rfl, rfl, rfl⟩
  | call c =>
    have hheader : c.txn.header = c.request.header := c.txn_header
    have hcloses : (Incoming.call c).closes ↔ c.txn.request.handler = .ndmpConnectClose :=
      decide_eq_true_iff
    obtain ⟨hstate, hnotify⟩ := ha
    rw [ne_eq, ← hheader, ← ndmpDispatch_eq_dataGetState, ← c.txn.dispatched] at hstate
    rw [ne_eq, ← hheader, ← ndmpDispatch_eq_acceptNotify, ← c.txn.dispatched] at hnotify
    show if _ then replyTo ⟨srv, c.txn, (xdrDecodeEncode srv c.txn).2⟩ = none
      else ∃ reply, (xdrDecodeEncode srv c.txn).2 = some (TxnReply.message reply) ∧ _
    rw [xdrDecodeEncode_reply srv c.txn (h _)]
    by_cases hclose : c.txn.request.handler = .ndmpConnectClose
    · have hrequest := NdmpRequest.handler_eq_connectClose.1 hclose
      rw [if_pos (hcloses.2 hclose)]
      simp only [Server.dispatch, hrequest]
      rfl
    · obtain ⟨reply, hreply, hanswers⟩ := (srv.addJobToSession c.txn).dispatch_answers
        (c.txn.request.setsHeader_iff.2 ⟨hclose, hstate, hnotify⟩)
      have hannounced := announced_dispatch hreply
      rw [if_neg (mt hcloses.1 hclose), hreply]
      rw [hheader] at hanswers
      exact ⟨reply, rfl, hanswers, hannounced.body_iff, handler_of_answers hanswers hannounced⟩

theorem repliesTo_cons (id : Nat) (e : ServerEvent) (evs : List ServerEvent) :
    repliesTo id (e :: evs) =
      (if e.input.sessionId = id then (replyTo e).toList else []) ++ repliesTo id evs := by
  by_cases hid : e.input.sessionId = id
  · cases hreply : replyTo e <;> simp [repliesTo, eventsOf, hid, hreply]
  · simp [repliesTo, eventsOf, hid]

theorem awaited_cons (id : Nat) (a : Incoming) (arrivals : List Incoming) :
    awaited id (a :: arrivals) =
      (if a.txn.sessionId = id ∧ a.closes = false then [a] else []) ++ awaited id arrivals := by
  by_cases ha : a.txn.sessionId = id ∧ a.closes = false
  · simp [awaited, ha]
  · have hfilter : ¬ (a.txn.sessionId == id && !a.closes) = true := by simpa using ha
    rw [awaited, List.filter_cons, if_neg hfilter, if_neg ha]
    rfl

/-- Each of the arrivals a session waits for has its reply, in order. -/
theorem forall₂_answeredBy {srv : Server} (h : srv.NoneTerminated) {id : Nat}
    {arrivals : List Incoming} (hserved : ∀ a ∈ arrivals, a.txn.sessionId = id → a.Served) :
    List.Forall₂ Incoming.AnsweredBy (awaited id arrivals)
      (repliesTo id (Mealy.trace xdrDecodeEncode srv (arrivals.map Incoming.txn))) := by
  induction arrivals generalizing srv with
  | nil => exact .nil
  | cons a arrivals ih =>
    rw [List.forall_mem_cons] at hserved
    have hrest := ih (xdrDecodeEncode_noneTerminated srv a.txn h) hserved.2
    rw [List.map_cons, Mealy.trace_cons, repliesTo_cons, awaited_cons]
    by_cases hid : a.txn.sessionId = id
    · have hreply := reply_of_incoming h (hserved.1 hid)
      rw [if_pos hid]
      cases hcloses : a.closes with
      | true =>
        rw [hcloses, if_pos rfl] at hreply
        rw [hreply, if_neg (by simp)]
        exact hrest
      | false =>
        rw [hcloses, if_neg Bool.false_ne_true] at hreply
        obtain ⟨reply, houtput, hanswered⟩ := hreply
        rw [if_pos ⟨hid, rfl⟩, replyTo, houtput]
        exact .cons hanswered hrest
    · rw [if_neg hid, if_neg (mt And.left hid)]
      exact hrest

/-! ## Values -/

/-- What the machine and the memory have to put into a reply goes into its words, and a reply to a
`CONFIG` message fits. -/
structure ClientTxn.Supplied (txn : ClientTxn) : Prop where
  timeStamp : txn.answers.timeStamp < 2 ^ 32
  replyError : Codec.int.Valid txn.locals.replyError
  config : ∀ request reply, txn.request = .config request →
    ndmpConfig txn.answers.config request = .ok reply →
      reply.Valid ∧ (NdmpReplyBody.config reply).encode.length ≤ 2020

/-- The environment can be sent. -/
structure Server.EnvironmentSendable (srv : Server) : Prop where
  valid : ∀ p ∈ srv.environment, Reply.ndmpPval.Valid p
  fits : srv.EnvironmentFits

/-- Each pair takes a byte at least. -/
theorem length_le_pairsSize (pairs : List NdmpPval) : pairs.length ≤ pairsSize pairs := by
  rw [pairsSize, ← List.length_map fun p : NdmpPval =>
    8 + Codec.padded p.name.length + Codec.padded p.value.length]
  refine List.length_le_sum_of_one_le _ fun n hn => ?_
  obtain ⟨p, -, rfl⟩ := List.mem_map.1 hn
  omega

/-- What is left of a string up to its zero can be sent back. -/
theorem valid_cString {s : Bytes} (h : s.length < 2 ^ 32) : Reply.cstring.Valid (cString s) := by
  have hbytes : (cString s).map Reply.byteOf = s.takeWhile (· ≠ 0) := by
    rw [cString, List.map_map]
    exact (List.map_congr_left fun b _ => Reply.byteOf_charOf b).trans (List.map_id _)
  refine ⟨?_, ?_⟩
  · show ((cString s).map Reply.byteOf).length < 2 ^ 32
    rw [List.length_map]
    exact Nat.lt_of_le_of_lt (length_cString_le s) h
  · show ((cString s).map Reply.byteOf).map Reply.charOf = cString s
    rw [hbytes]
    rfl

/-- The pairs of a decoded backup. -/
theorem valid_pairs_toRequest {handler : NdmpMessageHandler} {body : Wire.Body handler}
    (hvalid : (Wire.body handler).Valid body) {request : NdmpDataStartBackupRequest}
    (h : toRequest handler body = .dataStartBackup request) :
    ∀ p ∈ request.env, Reply.ndmpPval.Valid p := by
  have hhandler : handler = .ndmpDataStartBackup := by
    rw [← toRequest_handler handler body, h]
    rfl
  subst hhandler
  obtain ⟨buType, env⟩ := body
  cases h
  intro p hp
  obtain ⟨q, hq, rfl⟩ := List.mem_map.1 hp
  have hpair : Wire.ndmpPval.Valid q := hvalid.2.2 q hq
  exact ⟨valid_cString hpair.1, valid_cString hpair.2⟩

/-- The pairs of a backup, as they get into the environment. -/
theorem Incoming.pairs {a : Incoming} {request : NdmpDataStartBackupRequest}
    (h : a.txn.request = .dataStartBackup request) :
    (∀ p ∈ request.env, Reply.ndmpPval.Valid p) ∧ pairsSize request.env ≤ 2012 := by
  cases a with
  | connection => cases h
  | call c =>
    have hwhole : ArrivedWhole c.txn := fun _ => ⟨c.recv, c.arrival, c.complete, rfl⟩
    exact ⟨valid_pairs_toRequest c.valid.2 (c.txn_request.symm.trans h), hwhole.pairsSize_le h⟩

theorem environmentSendable_step {srv : Server} (h : srv.EnvironmentSendable) (a : Incoming) :
    (xdrDecodeEncode srv a.txn).1.EnvironmentSendable := by
  have henv := xdrDecodeEncode_environment srv a.txn
  unfold environmentEffect environmentAfterStop at henv
  split at henv
  · rename_i request hrequest
    obtain ⟨hvalid, hsize⟩ := Incoming.pairs hrequest
    exact ⟨henv ▸ hvalid, by rwa [Server.EnvironmentFits, henv]⟩
  · split at henv
    · exact ⟨by simp [henv], by simp [Server.EnvironmentFits, henv, pairsSize]⟩
    · exact ⟨henv ▸ h.valid, by rw [Server.EnvironmentFits, henv]; exact h.fits⟩
  · exact ⟨henv ▸ h.valid, by rw [Server.EnvironmentFits, henv]; exact h.fits⟩

/-! ## The replies of a server -/

section
variable {srv : Server} {txn : ClientTxn} (hseq : srv.sequenceNumber < 2 ^ 32)
  (hheader : Wire.header.Valid txn.header) (htxn : txn.Supplied)
include hseq hheader htxn

theorem valid_setHeader {error : Int} (herror : Codec.int.Valid error) : Wire.header.Valid
    (setHeader txn.header srv.sequenceNumber txn.answers.timeStamp error) := by
  obtain ⟨hsequence, -, -, hmessage, -⟩ := (valid_header_iff _).1 hheader
  have htype : (-2 ^ 31 : Int) ≤ NdmpHeaderMessageType.reply ∧
      (NdmpHeaderMessageType.reply : Int) < 2 ^ 31 := by decide
  exact (valid_header_iff _).2 ⟨hseq, htxn.timeStamp, htype, hmessage, hsequence, herror⟩

/-- A reply by `set_header`. -/
theorem valid_reply {error : Int} (herror : Codec.int.Valid error) (body : NdmpReplyBody)
    (hbody : error = NdmpError.noErr → body.Valid ∧ body.encode.length ≤ 2020) {reply : NdmpReply}
    (h : (srv.reply txn error body).2 = .message reply) :
    reply.Valid ∧ reply.encode.length ≤ 2044 := by
  cases h
  have hset := valid_setHeader hseq hheader htxn herror
  by_cases hnone : error = NdmpError.noErr
  · rw [if_pos hnone]
    refine ⟨⟨hset, ?_⟩, ?_⟩
    · rintro body ⟨⟩
      exact (hbody hnone).1
    · have hlength := (hbody hnone).2
      rw [NdmpReply.encode, List.length_append, length_header]
      show 24 + body.encode.length ≤ 2044
      omega
  · rw [if_neg hnone]
    refine ⟨⟨hset, ?_⟩, ?_⟩
    · rintro body ⟨⟩
    · rw [length_encode_of_body rfl]
      decide

theorem valid_errorMessage (error : NdmpError) {reply : NdmpReply}
    (h : (srv.errorMessage txn error).2 = .message reply) :
    reply.Valid ∧ reply.encode.length ≤ 2044 := by
  cases h
  refine ⟨⟨valid_setHeader hseq hheader htxn (valid_code error), ?_⟩, ?_⟩
  · rintro body ⟨⟩
  · rw [length_encode_of_body rfl]
    decide

/-- **Every reply can be sent.** -/
theorem valid_dispatch (hsrv : srv.EnvironmentSendable) {reply : NdmpReply}
    (h : (srv.dispatch txn).2 = .message reply) : reply.Valid ∧ reply.encode.length ≤ 2044 := by
  unfold Server.dispatch at h
  have hsmall (body : NdmpReplyBody) (hbody : body.Valid) (hlength : body.encode.length = 4) :
      body.Valid ∧ body.encode.length ≤ 2020 := ⟨hbody, by omega⟩
  cases hrequest : txn.request with
  | acceptNotify =>
    rw [hrequest] at h
    cases h
    have hword : Codec.int.Valid 0 := valid_code .noErr
    have htype : (-2 ^ 31 : Int) ≤ NdmpHeaderMessageType.request ∧
        (NdmpHeaderMessageType.request : Int) < 2 ^ 31 := by decide
    have hmessage : (-2 ^ 31 : Int) ≤ ndmpNotifyConnected ∧ ndmpNotifyConnected < 2 ^ 31 := by
      decide
    refine ⟨⟨(valid_header_iff _).2
      ⟨hseq, htxn.timeStamp, htype, hmessage, Nat.two_pow_pos 32, hword⟩, ?_⟩, ?_⟩
    · rintro body ⟨⟩
      exact ⟨hword, (by decide : 3 < 2 ^ 16), ⟨Nat.two_pow_pos 32, rfl⟩⟩
    · show 24 + 12 ≤ 2044
      decide
  | connectOpen request =>
    rw [hrequest] at h
    refine valid_reply hseq hheader htxn ?_ _ (fun _ => hsmall .connectOpen trivial rfl) h
    show Codec.int.Valid (connectOpenError request txn.locals _)
    unfold connectOpenError
    split_ifs
    all_goals first | exact valid_code _ | exact htxn.replyError
  | connectClose | dataGetState =>
    rw [hrequest] at h
    cases h
  | config request =>
    rw [hrequest] at h
    simp only at h
    split at h
    · rename_i config hconfig
      exact valid_reply hseq hheader htxn (valid_code .noErr) (.config config)
        (fun _ => htxn.config request config hrequest hconfig) h
    · exact valid_errorMessage hseq hheader htxn _ h
  | errorMessage =>
    rw [hrequest] at h
    exact valid_errorMessage hseq hheader htxn .notSupportedErr h
  | dataStartBackup request =>
    rw [hrequest] at h
    refine valid_reply hseq hheader htxn ?_ _ (fun _ => hsmall .dataStartBackup trivial rfl) h
    exact valid_transferError _ _
  | dataStartRecover request =>
    rw [hrequest] at h
    refine valid_reply hseq hheader htxn ?_ _ (fun _ => hsmall .dataStartRecover trivial rfl) h
    exact valid_transferError _ _
  | dataAbort =>
    rw [hrequest] at h
    exact valid_reply hseq hheader htxn (valid_ite _ _ _) _
      (fun _ => hsmall .dataAbort trivial rfl) h
  | dataStop =>
    rw [hrequest] at h
    exact valid_reply hseq hheader htxn (valid_ite _ _ _) _
      (fun _ => hsmall .dataStop trivial rfl) h
  | dataListen request =>
    rw [hrequest] at h
    refine valid_reply hseq hheader htxn (valid_addrError _ _)
      (.dataListen NdmpAddrType.addrLocal) (fun _ => ?_) h
    exact ⟨valid_code .noErr, (by decide : 8 ≤ 2020)⟩
  | dataConnect request =>
    rw [hrequest] at h
    exact valid_reply hseq hheader htxn (valid_addrError _ _) _
      (fun _ => hsmall .dataConnect trivial rfl) h
  | dataGetEnv =>
    rw [hrequest] at h
    simp only [ndmpDataGetEnv_eq] at h
    have hfits : pairsSize srv.environment ≤ 2012 := hsrv.fits
    have hlength := length_pairs srv.environment
    refine valid_reply hseq hheader htxn (valid_code .noErr)
      (.dataGetEnv srv.environment) (fun _ => ⟨⟨?_, hsrv.valid⟩, ?_⟩) h
    · have hcount := length_le_pairsSize srv.environment
      show srv.environment.length < 2 ^ 32
      omega
    · show (noErrWord ++ (Codec.array Reply.ndmpPval).encode srv.environment).length ≤ 2020
      rw [List.length_append, length_noErrWord]
      omega

end

/-! ## Runs -/

/-- A handler takes one number at most. -/
theorem dispatch_sequenceNumber_le (srv : Server) (txn : ClientTxn) :
    (srv.dispatch txn).1.sequenceNumber ≤ srv.sequenceNumber + 1 := by
  unfold Server.dispatch
  cases txn.request with
  | connectClose | dataGetState => exact Nat.le_succ _
  | config request =>
    simp only
    split <;> exact Nat.le_refl _
  | _ => exact Nat.le_refl _

theorem xdrDecodeEncode_sequenceNumber_le (srv : Server) (txn : ClientTxn) :
    (xdrDecodeEncode srv txn).1.sequenceNumber ≤ srv.sequenceNumber + 1 := by
  have hcleanup (srv : Server) :
      (srv.cleanupSession txn).1.sequenceNumber = srv.sequenceNumber := by
    unfold Server.cleanupSession
    simp only
    split
    · split <;> rfl
    · rfl
  show (((srv.addJobToSession txn).dispatch txn).1.cleanupSession txn).1.sequenceNumber ≤ _
  rw [hcleanup]
  exact dispatch_sequenceNumber_le (srv.addJobToSession txn) txn

theorem Incoming.valid_header {a : Incoming} (h : a.txn.Supplied) :
    Wire.header.Valid a.txn.header := by
  cases a with
  | call c =>
    have hheader : c.txn.header = c.request.header := c.txn_header
    exact hheader ▸ c.valid.1
  | connection =>
    have hword : Codec.int.Valid 0 := valid_code .noErr
    have hmessage : (-2 ^ 31 : Int) ≤ tcpConnectMessage ∧ tcpConnectMessage < 2 ^ 31 := by decide
    exact (valid_header_iff _).2
      ⟨Nat.two_pow_pos 32, h.timeStamp, hword, hmessage, Nat.two_pow_pos 32, hword⟩

/-- Every reply of a run can be sent, as long as the numbers of replies are words. -/
theorem valid_of_run {srv : Server} (hsrv : srv.EnvironmentSendable) {arrivals : List Incoming}
    (hcount : srv.sequenceNumber + arrivals.length ≤ 2 ^ 32) {id : Nat}
    (hsupplied : ∀ a ∈ arrivals, a.txn.sessionId = id → a.txn.Supplied) :
    ∀ reply ∈ repliesTo id (Mealy.trace xdrDecodeEncode srv (arrivals.map Incoming.txn)),
      reply.Valid ∧ reply.encode.length ≤ 2044 := by
  induction arrivals generalizing srv with
  | nil => rintro reply ⟨⟩
  | cons a arrivals ih =>
    rw [List.forall_mem_cons] at hsupplied
    rw [List.length_cons] at hcount
    have hnext := xdrDecodeEncode_sequenceNumber_le srv a.txn
    have hrest := ih (environmentSendable_step hsrv a) (by omega) hsupplied.2
    rw [List.map_cons, Mealy.trace_cons, repliesTo_cons]
    intro reply hreply
    rcases List.mem_append.1 hreply with hreply | hreply
    · by_cases hid : a.txn.sessionId = id
      · have htxn := hsupplied.1 hid
        rw [if_pos hid, Option.mem_toList] at hreply
        unfold replyTo at hreply
        split at hreply <;> cases hreply
        rename_i houtput
        have hseq : (srv.addJobToSession a.txn).sequenceNumber < 2 ^ 32 := by
          show srv.sequenceNumber < 2 ^ 32
          omega
        exact valid_dispatch hseq (Incoming.valid_header htxn) htxn ⟨hsrv.valid, hsrv.fits⟩
          (xdrDecodeEncode_some houtput).1
      · rw [if_neg hid] at hreply
        cases hreply
    · exact hrest reply hreply

/-- Records that are well put are put in one way at least. -/
theorem exists_puts {evs : List ServerEvent}
    (hrecorded : ∀ e ∈ evs, ∀ reply, e.output = some (.message reply) →
      (xdrDecodeEncode e.before e.input).2 = some (.message reply) ∧
        WellRecorded e.before e.input e.input.locals.reply) :
    ∃ blocks, List.Forall₂ Puts evs blocks := by
  induction evs with
  | nil => exact ⟨[], .nil⟩
  | cons e evs ih =>
    rw [List.forall_mem_cons] at hrecorded
    obtain ⟨blocks, hblocks⟩ := ih hrecorded.2
    obtain ⟨bytes, hbytes⟩ : ∃ bytes, Puts e bytes := by
      unfold Puts
      split
      · rename_i reply houtput
        obtain ⟨-, bytes, -, hbytes, -⟩ := (hrecorded.1 reply houtput).2 fun _ => 0
        exact ⟨bytes, _, hbytes⟩
      · rename_i length _
        exact ⟨_, List.replicate length 0, List.length_replicate, rfl⟩
      · exact ⟨_, rfl⟩
      · exact ⟨_, rfl⟩
    exact ⟨bytes :: blocks, .cons hbytes hblocks⟩

/-- Two clients connect, and the first asks for the end of a transfer that never began. -/
def connectAndAbort (memory : Memory) : List Incoming :=
  [.connection 0 4 [] default, .connection 1 5 [] default,
    .call ⟨abortRequest 7, ⟨2, 4, [], memory, default⟩, abortRequest_valid (by decide), by decide⟩]

section
variable {memory : Memory} (hlocals : memory.locals = default)

/-- None of the three has limits, or leaves anything unset. -/
theorem connectAndAbort_limits (w : World) :
    ∀ e ∈ Mealy.trace xdrDecodeEncode (.start w) ((connectAndAbort memory).map Incoming.txn),
      WithinLimits e.before e.input ∧ UnsetHarmless e.before e.input e.input.locals.reply := by
  intro e he
  obtain ⟨hinput, -⟩ := event_of_run (Server.noneTerminated_start w) he
  simp only [connectAndAbort, List.map_cons, List.map_nil, List.mem_cons, List.not_mem_nil,
    or_false] at hinput
  unfold WithinLimits UnsetHarmless
  rcases hinput with hinput | hinput | hinput
  · rw [hinput]
    exact ⟨trivial, trivial⟩
  · rw [hinput]
    exact ⟨trivial, trivial⟩
  · rw [hinput, Incoming.txn, RemoteCall.txn_request]
    exact ⟨trivial, trivial⟩

include hlocals

theorem connectAndAbort_served :
    ∀ a ∈ connectAndAbort memory, a.txn.sessionId = 4 → a.Served ∧ a.txn.Supplied := by
  have hzero : Codec.int.Valid 0 := valid_code .noErr
  intro a ha _
  simp only [connectAndAbort, List.mem_cons, List.not_mem_nil, or_false] at ha
  rcases ha with rfl | rfl | rfl
  · exact ⟨trivial, Nat.two_pow_pos 32, hzero, by rintro request reply ⟨⟩⟩
  · exact ⟨trivial, Nat.two_pow_pos 32, hzero, by rintro request reply ⟨⟩⟩
  · have hserved : (0x403 : Int) ≠ dataGetStateMessage ∧ (0x403 : Int) ≠ tcpConnectMessage := by
      decide
    refine ⟨hserved, Nat.two_pow_pos 32, ?_, ?_⟩
    · show Codec.int.Valid memory.locals.replyError
      rw [hlocals]
      exact hzero
    · intro request reply hrequest
      rw [Incoming.txn, RemoteCall.txn_request] at hrequest
      cases hrequest

end

end GlfsNdmp
