import GlfsNdmp.Lib.Reassembly
import GlfsNdmp.ReplyMemory

/-!
# What a client reads

A client has the definitions of `ndmp.x`, too. It takes records off its stream by their marks, and
of each record the header says which body follows: none if there is an error, and otherwise that of
the reply to the header's message.

**Theorem (`clientReads_of_run`).** In every run of the server, what a client reads on its
connection are the replies the handlers made, in order and with all their values, however the
network cuts the stream.

The values have to be those of their XDR types, the replies have to fit `reply.message`, and where a
request is refused, what was not set may not take the room of the header. The argument has two
halves that know nothing of each other: the bodies are decoded by what is announced in the header
(`decodeReply_encode`), and records are taken off the stream (`foldl_feed`).
-/

namespace GlfsNdmp

open Xdr Reassembly

/-! ## Bodies -/

/-- The handler that makes a reply. -/
def NdmpConfigReply.handler : NdmpConfigReply → NdmpMessageHandler
  | .hostInfo _ _ _ _ => .ndmpConfigGetHostInfo
  | .connectionType _ => .ndmpConfigGetConnectionType
  | .authAttr _ => .ndmpConfigGetAuthAttr
  | .butypeInfo _ => .ndmpConfigGetButypeInfo
  | .fsInfo _ => .ndmpConfigGetFsInfo
  | .tapeInfo _ => .ndmpConfigGetTapeInfo
  | .scsiInfo _ => .ndmpConfigGetScsiInfo
  | .serverInfo _ _ _ _ => .ndmpConfigGetServerInfo

def NdmpReplyBody.handler : NdmpReplyBody → NdmpMessageHandler
  | .connectOpen => .ndmpConnectOpen
  | .dataListen _ => .ndmpDataListen
  | .dataConnect => .ndmpDataConnect
  | .dataStartBackup => .ndmpDataStartBackup
  | .dataStartRecover => .ndmpDataStartRecover
  | .dataAbort => .ndmpDataAbort
  | .dataStop => .ndmpDataStop
  | .dataGetEnv _ => .ndmpDataGetEnv
  | .config reply => reply.handler
  | .notifyConnected _ _ _ => .ndmpAcceptNotify

/-- The values are values of their types. -/
def NdmpConfigReply.Valid : NdmpConfigReply → Prop
  | .hostInfo hostname osType osVers hostid =>
    Reply.cstring.Valid hostname ∧ Reply.cstring.Valid osType ∧ Reply.cstring.Valid osVers ∧
      Reply.cstring.Valid hostid
  | .connectionType addrTypes => addrTypes.length < 2 ^ 32
  | .authAttr authType => Codec.int.Valid authType
  | .butypeInfo info => (Codec.array Reply.ndmpButypeInfo).Valid info
  | .fsInfo info => (Codec.array Reply.ndmpFsInfo).Valid info
  | .tapeInfo info | .scsiInfo info => (Codec.array Reply.ndmpDeviceInfo).Valid info
  | .serverInfo vendorName productName revisionNumber authType =>
    Reply.cstring.Valid vendorName ∧ Reply.cstring.Valid productName ∧
      Reply.cstring.Valid revisionNumber ∧ (Codec.array Codec.int).Valid authType

def NdmpReplyBody.Valid : NdmpReplyBody → Prop
  | .dataListen addrType => Codec.int.Valid addrType
  | .dataGetEnv env => (Codec.array Reply.ndmpPval).Valid env
  | .config reply => reply.Valid
  | .notifyConnected reason protocolVersion textReason =>
    Codec.int.Valid reason ∧ Codec.ushort.Valid protocolVersion ∧ Reply.cstring.Valid textReason
  | _ => True

def NdmpReply.Valid (reply : NdmpReply) : Prop :=
  Wire.header.Valid reply.header ∧ ∀ body ∈ reply.body, body.Valid

theorem valid_header_iff (header : NdmpHeader) : Wire.header.Valid header ↔
    header.sequence < 2 ^ 32 ∧ header.timeStamp < 2 ^ 32 ∧
      (-2 ^ 31 ≤ header.messageType ∧ header.messageType < 2 ^ 31) ∧
      (-2 ^ 31 ≤ header.message ∧ header.message < 2 ^ 31) ∧ header.replySequence < 2 ^ 32 ∧
      (-2 ^ 31 ≤ header.error ∧ header.error < 2 ^ 31) := Iff.rfl

/-- `enum ndmp_addr_type`, from its words. -/
def addrTypeOf : Int → Option NdmpAddrType
  | 0 => some .addrLocal
  | 1 => some .addrTcp
  | 2 => some .addrFc
  | 3 => some .addrIpc
  | _ => none

theorem filterMap_addrTypeOf (addrTypes : List NdmpAddrType) :
    (addrTypes.map NdmpAddrType.code).filterMap addrTypeOf = addrTypes := by
  have hcode (t : NdmpAddrType) : addrTypeOf t.code = some t := by cases t <;> rfl
  induction addrTypes with
  | nil => rfl
  | cons t addrTypes ih => rw [List.map_cons, List.filterMap_cons_some (hcode t), ih]

/-- The fields behind the error. -/
def afterError {α : Type} (c : Codec α) (f : α → NdmpReplyBody) :
    Decoder NdmpReplyBody := fun bytes =>
  ((Codec.int.prod c).decode bytes).map fun r => (f r.1.2, r.2)

theorem afterError_decode {α : Type} {c : Codec α} {a : α} (h : c.Valid a)
    (f : α → NdmpReplyBody) : afterError c f (noErrWord ++ c.encode a) = some (f a, []) := by
  have hdecode := (Codec.int.prod c).decode_encode (a := (NdmpError.noErr.code, a))
    ⟨valid_code .noErr, h⟩ []
  rw [List.append_nil] at hdecode
  show ((Codec.int.prod c).decode ((Codec.int.prod c).encode (NdmpError.noErr.code, a))).map _ = _
  rw [hdecode]
  rfl

/-- `xdr_ndmp_..._reply` of the handlers that make one. -/
def decodeBody : NdmpMessageHandler → Decoder NdmpReplyBody
  | .ndmpConnectOpen => afterError Codec.void fun _ => .connectOpen
  | .ndmpDataListen => afterError Codec.int .dataListen
  | .ndmpDataConnect => afterError Codec.void fun _ => .dataConnect
  | .ndmpDataStartBackup => afterError Codec.void fun _ => .dataStartBackup
  | .ndmpDataStartRecover => afterError Codec.void fun _ => .dataStartRecover
  | .ndmpDataAbort => afterError Codec.void fun _ => .dataAbort
  | .ndmpDataStop => afterError Codec.void fun _ => .dataStop
  | .ndmpDataGetEnv => afterError (Codec.array Reply.ndmpPval) .dataGetEnv
  | .ndmpConfigGetHostInfo =>
    afterError (Reply.cstring.prod <| Reply.cstring.prod <| Reply.cstring.prod Reply.cstring)
      fun (hostname, osType, osVers, hostid) => .config (.hostInfo hostname osType osVers hostid)
  | .ndmpConfigGetConnectionType =>
    afterError (Codec.array Codec.int) fun codes =>
      .config (.connectionType (codes.filterMap addrTypeOf))
  | .ndmpConfigGetAuthAttr => afterError Codec.int fun authType => .config (.authAttr authType)
  | .ndmpConfigGetButypeInfo =>
    afterError (Codec.array Reply.ndmpButypeInfo) fun info => .config (.butypeInfo info)
  | .ndmpConfigGetFsInfo =>
    afterError (Codec.array Reply.ndmpFsInfo) fun info => .config (.fsInfo info)
  | .ndmpConfigGetTapeInfo =>
    afterError (Codec.array Reply.ndmpDeviceInfo) fun info => .config (.tapeInfo info)
  | .ndmpConfigGetScsiInfo =>
    afterError (Codec.array Reply.ndmpDeviceInfo) fun info => .config (.scsiInfo info)
  | .ndmpConfigGetServerInfo =>
    afterError (Reply.cstring.prod <| Reply.cstring.prod <| Reply.cstring.prod <|
        Codec.array Codec.int)
      fun (vendorName, productName, revisionNumber, authType) =>
        .config (.serverInfo vendorName productName revisionNumber authType)
  -- the notification has no field `error`
  | .ndmpAcceptNotify => fun bytes =>
    ((Codec.int.prod <| Codec.ushort.prod Reply.cstring).decode bytes).map
      fun ((reason, protocolVersion, textReason), rest) =>
        (.notifyConnected reason protocolVersion textReason, rest)
  | .ndmpConnectClose | .ndmpDataGetState | .ndmpErrorMessage => fun _ => none

/-- A body is decoded as what it is. -/
theorem decodeBody_encode {body : NdmpReplyBody} (h : body.Valid) :
    decodeBody body.handler body.encode = some (body, []) := by
  cases body with
  | connectOpen | dataConnect | dataStartBackup | dataStartRecover | dataAbort | dataStop =>
    exact afterError_decode (c := Codec.void) (a := ()) trivial fun _ => _
  | dataListen addrType => exact afterError_decode (c := Codec.int) h .dataListen
  | dataGetEnv env => exact afterError_decode (c := Codec.array Reply.ndmpPval) h .dataGetEnv
  | notifyConnected reason protocolVersion textReason =>
    let c := Codec.int.prod <| Codec.ushort.prod Reply.cstring
    have hdecode := c.decode_encode (a := (reason, protocolVersion, textReason)) h []
    rw [List.append_nil] at hdecode
    have hencode : (NdmpReplyBody.notifyConnected reason protocolVersion textReason).encode =
        c.encode (reason, protocolVersion, textReason) := List.append_assoc _ _ _
    rw [hencode]
    show (c.decode _).map _ = _
    rw [hdecode]
    rfl
  | config reply =>
    cases reply with
    | hostInfo hostname osType osVers hostid =>
      have hdecode := afterError_decode
        (c := Reply.cstring.prod <| Reply.cstring.prod <| Reply.cstring.prod Reply.cstring)
        (a := (hostname, osType, osVers, hostid)) h
        fun (hostname, osType, osVers, hostid) => .config (.hostInfo hostname osType osVers hostid)
      rw [← hdecode]
      simp only [NdmpReplyBody.encode, NdmpConfigReply.encode, List.append_assoc]
      rfl
    | connectionType addrTypes =>
      have hvalid : (Codec.array Codec.int).Valid (addrTypes.map NdmpAddrType.code) := by
        refine ⟨by rwa [List.length_map], fun i hi => ?_⟩
        obtain ⟨t, -, rfl⟩ := List.mem_map.1 hi
        show -2 ^ 31 ≤ t.code ∧ t.code < 2 ^ 31
        cases t <;> decide
      have hdecode := afterError_decode hvalid fun codes =>
        .config (.connectionType (codes.filterMap addrTypeOf))
      rwa [filterMap_addrTypeOf] at hdecode
    | authAttr authType =>
      exact afterError_decode (c := Codec.int) h fun authType => .config (.authAttr authType)
    | butypeInfo info =>
      exact afterError_decode (c := Codec.array Reply.ndmpButypeInfo) h fun info =>
        .config (.butypeInfo info)
    | fsInfo info =>
      exact afterError_decode (c := Codec.array Reply.ndmpFsInfo) h fun info =>
        .config (.fsInfo info)
    | tapeInfo info =>
      exact afterError_decode (c := Codec.array Reply.ndmpDeviceInfo) h fun info =>
        .config (.tapeInfo info)
    | scsiInfo info =>
      exact afterError_decode (c := Codec.array Reply.ndmpDeviceInfo) h fun info =>
        .config (.scsiInfo info)
    | serverInfo vendorName productName revisionNumber authType =>
      have hdecode := afterError_decode
        (c := Reply.cstring.prod <| Reply.cstring.prod <| Reply.cstring.prod <|
          Codec.array Codec.int)
        (a := (vendorName, productName, revisionNumber, authType)) h
        fun (vendorName, productName, revisionNumber, authType) =>
          .config (.serverInfo vendorName productName revisionNumber authType)
      rw [← hdecode]
      simp only [NdmpReplyBody.encode, NdmpConfigReply.encode, List.append_assoc]
      rfl

/-! ## Replies -/

/-- Which reply a header announces: the message says it, except for the notification, which the
server sends under a number of its own. -/
def announced (header : NdmpHeader) : NdmpMessageHandler :=
  if header.message = ndmpNotifyConnected then .ndmpAcceptNotify else ndmpDispatch header.message

/-- A record as a client reads it: a body follows unless there is an error. -/
def decodeReply (bytes : Bytes) : Option NdmpReply := do
  let (header, bytes) ← Wire.header.decode bytes
  if header.error = NdmpError.noErr then
    let (body, rest) ← decodeBody (announced header) bytes
    if rest = [] then some ⟨header, some body⟩ else none
  else if bytes = [] then some ⟨header, none⟩ else none

/-- What the server sees to: the header announces the body. -/
structure NdmpReply.Announced (reply : NdmpReply) : Prop where
  body_iff : reply.body.isSome ↔ reply.header.error = NdmpError.noErr
  handler : ∀ body ∈ reply.body, announced reply.header = body.handler

/-- A reply is decoded as what it is. -/
theorem decodeReply_encode {reply : NdmpReply} (h : reply.Announced) (hvalid : reply.Valid) :
    decodeReply reply.encode = some reply := by
  obtain ⟨header, body⟩ := reply
  rw [decodeReply, NdmpReply.encode, Wire.header.decode_encode hvalid.1]
  simp only [Option.bind_eq_bind, Option.bind_some]
  cases body with
  | none =>
    have herror : ¬ header.error = NdmpError.noErr := fun herror =>
      Bool.false_ne_true (h.body_iff.2 herror)
    rw [if_neg herror]
    rfl
  | some body =>
    rw [if_pos (h.body_iff.1 rfl), h.handler body rfl]
    simp only [Option.map_some, Option.getD_some, decodeBody_encode (hvalid.2 body rfl),
      Option.bind_some, if_true]

/-- A message with a handler of its own is not the notification. -/
theorem announced_of_handler {header : NdmpHeader} {handler : NdmpMessageHandler}
    (h : handler = ndmpDispatch header.message) (hne : handler ≠ .ndmpErrorMessage) :
    announced header = handler := by
  rw [announced, if_neg, h]
  intro hmessage
  rw [hmessage] at h
  exact hne h

theorem ndmpConfig_handler {os : ConfigAnswers} {request : NdmpConfigRequest}
    {reply : NdmpConfigReply} (h : ndmpConfig os request = .ok reply) :
    reply.handler = request.handler := by
  cases request with
  | getHostInfo =>
    simp only [ndmpConfig, ndmpConfigGetHostInfo] at h
    split at h <;> cases h
    rfl
  | getAuthAttr authType =>
    simp only [ndmpConfig, ndmpConfigGetAuthAttr] at h
    split at h <;> cases h
    rfl
  | getFsInfo =>
    simp only [ndmpConfig, ndmpConfigGetFsInfo] at h
    split at h <;> cases h
    rfl
  | getScsiInfo =>
    simp only [ndmpConfig, ndmpConfigGetScsiInfo] at h
    split at h <;> cases h
    rfl
  | getConnectionType | getButypeInfo | getTapeInfo | getServerInfo =>
    cases h
    rfl

/-- **Every reply the handlers make is announced in its header.** -/
theorem announced_dispatch {srv : Server} {txn : ClientTxn} {reply : NdmpReply}
    (h : (srv.dispatch txn).2 = .message reply) : reply.Announced := by
  have hbuilds : txn.request.buildsReply := by
    unfold Server.dispatch at h
    cases hrequest : txn.request with
    | connectClose | dataGetState =>
      rw [hrequest] at h
      cases h
    | _ => rfl
  obtain ⟨reply', hreply', hiff⟩ := dispatch_message srv hbuilds
  obtain rfl : reply' = reply := TxnReply.message.inj (hreply'.symm.trans h)
  refine ⟨hiff, ?_⟩
  have hdispatched := txn.dispatched
  have hbody (srv : Server) (error : Int) (body : NdmpReplyBody)
      (hhandler : txn.request.handler = body.handler) (hne : body.handler ≠ .ndmpErrorMessage)
      (heq : (srv.reply txn error body).2 = .message reply') :
      ∀ body ∈ reply'.body, announced reply'.header = body.handler := by
    cases heq
    intro body' (hbody' : (if error = NdmpError.noErr then some body else none) = some body')
    split at hbody' <;> cases hbody'
    exact announced_of_handler (hhandler ▸ hdispatched) hne
  unfold Server.dispatch at h
  cases hrequest : txn.request with
  | acceptNotify =>
    rw [hrequest] at h
    cases h
    rintro body ⟨⟩
    rfl
  | config request =>
    rw [hrequest] at h hbody
    simp only at h
    split at h
    · rename_i reply hreply
      have hhandler := ndmpConfig_handler hreply
      refine hbody _ _ (.config reply) hhandler.symm ?_ h
      show reply.handler ≠ _
      rw [hhandler]
      cases request <;> rintro ⟨⟩
    · cases h
      rintro body ⟨⟩
  | errorMessage =>
    rw [hrequest] at h
    cases h
    rintro body ⟨⟩
  | connectClose | dataGetState =>
    rw [hrequest] at h
    cases h
  | _ =>
    rw [hrequest] at h hbody
    exact hbody _ _ _ rfl (by rintro ⟨⟩) h

/-! ## The stream -/

theorem of_readRecord {bytes record rest : Bytes} (h : readRecord bytes = some (record, rest)) :
    ∃ n tail, getLong bytes = some (n + 2 ^ 31, tail) ∧ n ≤ tail.length ∧ record = tail.take n ∧
      rest = tail.drop n := by
  simp only [readRecord, Option.bind_eq_bind, Option.bind_eq_some_iff, Prod.exists] at h
  obtain ⟨mark, tail, hlong, h⟩ := h
  split at h
  · rename_i hin
    have hmark : mark = mark - 2 ^ 31 + 2 ^ 31 := by omega
    simp only [Option.some.injEq, Prod.mk.injEq] at h
    exact ⟨mark - 2 ^ 31, tail, hmark ▸ hlong, hin.2, h.1.symm, h.2.symm⟩
  · cases h

theorem getLong_append {bytes rest : Bytes} {n : Nat} (h : getLong bytes = some (n, rest))
    (more : Bytes) : getLong (bytes ++ more) = some (n, rest ++ more) := by
  rcases bytes with _ | ⟨a, _ | ⟨b, _ | ⟨c, _ | ⟨d, bytes⟩⟩⟩⟩ <;>
    simp only [getLong, Option.some.injEq, Prod.mk.injEq, reduceCtorEq] at h
  rw [← h.1, ← h.2]
  rfl

/-- A client takes a record off its stream once it is there. -/
theorem readRecord_lawful : Reader.Lawful (readRecord : Reader UInt8 Bytes) := by
  constructor
  · intro bytes rest record h
    obtain ⟨n, tail, hlong, -, -, hrest⟩ := of_readRecord h
    obtain ⟨used, hbytes, hused⟩ := getLong_rest hlong
    rw [hbytes, hrest, List.length_drop, List.length_append]
    omega
  · intro bytes rest record more h
    obtain ⟨n, tail, hlong, hn, hrecord, hrest⟩ := of_readRecord h
    have hmore : n ≤ (tail ++ more).length := by
      rw [List.length_append]
      omega
    rw [readRecord_of_getLong (getLong_append hlong more) rfl hmore, hrecord, hrest,
      List.take_append_of_le_length hn, List.drop_append_of_le_length hn]

/-- Replies that were framed are read as the records they are, however the stream is cut. -/
theorem feed_frames {replies : List NdmpReply}
    (hfits : ∀ reply ∈ replies, reply.encode.length ≤ 2044) {chunks : List Bytes}
    (hchunks : chunks.flatten = replies.flatMap fun reply => frame reply.encode) :
    chunks.foldl (feed readRecord) ([], []) = (replies.map NdmpReply.encode, []) := by
  have hread : ∀ reply ∈ replies, readRecord (frame reply.encode) = some (reply.encode, []) := by
    intro reply hreply
    have hlength := hfits reply hreply
    exact readRecord_frame (by omega)
  have hnil : readRecord [] = none := rfl
  have hall := readAll_flatMap readRecord_lawful hread []
  rw [List.append_nil, readAll_of_none hnil, List.append_nil] at hall
  rw [foldl_feed readRecord_lawful hnil, hchunks, hall]

/-- What a transaction puts on its connection: what the end of its handler leaves in
`reply.message`, which held something before. A handler that sets no length leaves whatever is
there. -/
def Puts (e : ServerEvent) (bytes : Bytes) : Prop :=
  match e.output with
  | some (.message _) =>
    ∃ memory, enqueuedBytes e.before e.input e.input.locals.reply memory = some bytes
  | some (.unset length) => ∃ message : Bytes, message.length = length ∧ bytes = frame message
  | some .empty | none => bytes = []

/-- The reply a transaction gets. -/
def replyTo (e : ServerEvent) : Option NdmpReply :=
  match e.output with
  | some (.message reply) => some reply
  | _ => none

/-- The transactions of a session. -/
def eventsOf (id : Nat) (evs : List ServerEvent) : List ServerEvent :=
  evs.filter (·.input.sessionId == id)

/-- The replies to a session. -/
def repliesTo (id : Nat) (evs : List ServerEvent) : List NdmpReply :=
  (eventsOf id evs).filterMap replyTo

/-- What a client has read when some chunks have come, and what it still waits with. -/
def clientReads (chunks : List Bytes) : List (Option NdmpReply) × Bytes :=
  let (records, rest) := chunks.foldl (feed readRecord) ([], [])
  (records.map decodeReply, rest)

theorem xdrDecodeEncode_some {srv : Server} {txn : ClientTxn} {reply : TxnReply}
    (h : (xdrDecodeEncode srv txn).2 = some reply) :
    ((srv.addJobToSession txn).dispatch txn).2 = reply ∧ reply.isEmpty = false := by
  simp only [xdrDecodeEncode] at h
  split at h <;> cases h
  rename_i hempty
  rw [Bool.or_eq_true, not_or, Bool.not_eq_true] at hempty
  exact ⟨rfl, by simpa using hempty.2⟩

/-- The one handler that sets no length is the one for `DATA_GET_STATE`. -/
theorem request_of_unset {srv : Server} {txn : ClientTxn} {length : Nat}
    (h : (srv.dispatch txn).2 = .unset length) : txn.request = .dataGetState := by
  unfold Server.dispatch at h
  cases hrequest : txn.request with
  | dataGetState => rfl
  | config request =>
    rw [hrequest] at h
    simp only at h
    split at h <;> cases h
  | _ =>
    rw [hrequest] at h
    cases h

/-- An event of a run is what `xdr_decode_encode` does, on a server with no session terminated. -/
theorem event_of_run {srv : Server} (h : srv.NoneTerminated) {txns : List ClientTxn}
    {e : ServerEvent} (he : e ∈ Mealy.trace xdrDecodeEncode srv txns) :
    e.input ∈ txns ∧ e.before.NoneTerminated ∧
      e.output = (xdrDecodeEncode e.before e.input).2 := by
  obtain ⟨hbefore, houtput⟩ :=
    Mealy.event_invariant xdrDecodeEncode xdrDecodeEncode_noneTerminated h he
  obtain ⟨pre, post, htrace⟩ := List.append_of_mem he
  obtain ⟨as, bs, rfl, -⟩ := Mealy.trace_eq_append_cons xdrDecodeEncode htrace
  exact ⟨by simp, hbefore, houtput⟩

/-- What is put on a connection are its replies. -/
theorem flatten_of_puts {evs : List ServerEvent} {blocks : List Bytes}
    (h : List.Forall₂ Puts evs blocks)
    (hset : ∀ e ∈ evs, ∀ length, e.output ≠ some (.unset length))
    (hrecorded : ∀ e ∈ evs, ∀ reply, e.output = some (.message reply) →
      (xdrDecodeEncode e.before e.input).2 = some (.message reply) ∧
        WellRecorded e.before e.input e.input.locals.reply) :
    blocks.flatten = (evs.filterMap replyTo).flatMap fun reply => frame reply.encode := by
  induction h with
  | nil => rfl
  | @cons e bytes evs blocks hputs _ ih =>
    rw [List.forall_mem_cons] at hset hrecorded
    rw [List.flatten_cons, ih hset.2 hrecorded.2]
    cases houtput : e.output with
    | none =>
      simp only [Puts, houtput] at hputs
      simp [replyTo, houtput, hputs]
    | some reply =>
      cases reply with
      | empty =>
        simp only [Puts, houtput] at hputs
        simp [replyTo, houtput, hputs]
      | unset length => exact absurd houtput (hset.1 length)
      | message reply =>
        simp only [Puts, houtput] at hputs
        obtain ⟨memory, hputs⟩ := hputs
        obtain ⟨hmessage, hwell⟩ := hrecorded.1 reply houtput
        obtain ⟨reply', bytes', hreply', hbytes', hrecord⟩ := hwell memory
        rw [hmessage] at hreply'
        cases hreply'
        rw [hputs] at hbytes'
        cases hbytes'
        simp [replyTo, houtput, hrecord.bytes_eq, frame]

/-- Replies that fit are put on `reply_jobs` as they are, if what is unset does no harm. -/
theorem wellRecorded_of_run {srv : Server} (hnone : srv.NoneTerminated) {txns : List ClientTxn}
    {id : Nat}
    (hharmless : ∀ e ∈ eventsOf id (Mealy.trace xdrDecodeEncode srv txns),
      UnsetHarmless e.before e.input e.input.locals.reply)
    (hfits : ∀ reply ∈ repliesTo id (Mealy.trace xdrDecodeEncode srv txns),
      reply.Valid ∧ reply.encode.length ≤ 2044) :
    ∀ e ∈ eventsOf id (Mealy.trace xdrDecodeEncode srv txns), ∀ reply,
      e.output = some (.message reply) →
        (xdrDecodeEncode e.before e.input).2 = some (.message reply) ∧
          WellRecorded e.before e.input e.input.locals.reply := by
  intro e he reply houtput
  obtain ⟨-, hbefore, hout⟩ := event_of_run hnone (List.mem_filter.1 he).1
  have hmem : reply ∈ repliesTo id (Mealy.trace xdrDecodeEncode srv txns) :=
    List.mem_filterMap.2 ⟨e, he, by rw [replyTo, houtput]⟩
  rw [hout] at houtput
  have hreply := (xdrDecodeEncode_some houtput).1
  exact ⟨houtput, (wellRecorded_iff_unsetHarmless _ (hbefore _) hreply
    (announced_dispatch hreply).body_iff (hfits reply hmem).2).2 (hharmless e he)⟩

/-- **A client reads what the handlers have made.** In every run of the server, for every session
that does not ask for `DATA_GET_STATE`: if what refusals leave unset does no harm, and its replies
fit `reply.message` and have values of their types, then from what is put on its connection, however
it is cut into chunks, the client takes records that it decodes as these replies, in order, and
nothing is left over. -/
theorem clientReads_of_run {srv : Server} (hnone : srv.NoneTerminated) {txns : List ClientTxn}
    {id : Nat}
    (hstub : ∀ txn ∈ txns, txn.sessionId = id → txn.request ≠ .dataGetState)
    (hharmless : ∀ e ∈ eventsOf id (Mealy.trace xdrDecodeEncode srv txns),
      UnsetHarmless e.before e.input e.input.locals.reply)
    (hfits : ∀ reply ∈ repliesTo id (Mealy.trace xdrDecodeEncode srv txns),
      reply.Valid ∧ reply.encode.length ≤ 2044)
    {blocks chunks : List Bytes}
    (hputs : List.Forall₂ Puts (eventsOf id (Mealy.trace xdrDecodeEncode srv txns)) blocks)
    (hchunks : chunks.flatten = blocks.flatten) :
    clientReads chunks = ((repliesTo id (Mealy.trace xdrDecodeEncode srv txns)).map some, []) := by
  have hevent {e : ServerEvent} (he : e ∈ eventsOf id (Mealy.trace xdrDecodeEncode srv txns)) :
      e.input ∈ txns ∧ e.input.sessionId = id ∧ e.before.NoneTerminated ∧
        e.output = (xdrDecodeEncode e.before e.input).2 := by
    obtain ⟨hmem, hid⟩ := List.mem_filter.1 he
    obtain ⟨hinput, hbefore, houtput⟩ := event_of_run hnone hmem
    exact ⟨hinput, by simpa using hid, hbefore, houtput⟩
  have hannounced : ∀ reply ∈ repliesTo id (Mealy.trace xdrDecodeEncode srv txns),
      reply.Announced := by
    intro reply hreply
    obtain ⟨e, he, hreply⟩ := List.mem_filterMap.1 hreply
    unfold replyTo at hreply
    split at hreply <;> cases hreply
    rename_i houtput
    rw [(hevent he).2.2.2] at houtput
    exact announced_dispatch (xdrDecodeEncode_some houtput).1
  have hset : ∀ e ∈ eventsOf id (Mealy.trace xdrDecodeEncode srv txns), ∀ length,
      e.output ≠ some (.unset length) := by
    intro e he length houtput
    obtain ⟨hmem, hid, -, hout⟩ := hevent he
    rw [hout] at houtput
    exact hstub e.input hmem hid (request_of_unset (xdrDecodeEncode_some houtput).1)
  have hfeed := feed_frames (fun reply hreply => (hfits reply hreply).2)
    (hchunks.trans (flatten_of_puts hputs hset (wellRecorded_of_run hnone hharmless hfits)))
  have hdecode : ((repliesTo id (Mealy.trace xdrDecodeEncode srv txns)).map
      NdmpReply.encode).map decodeReply =
        (repliesTo id (Mealy.trace xdrDecodeEncode srv txns)).map some := by
    rw [List.map_map]
    refine List.map_congr_left fun reply hreply => ?_
    rw [Function.comp_apply]
    exact decodeReply_encode (hannounced reply hreply) (hfits reply hreply).1
  rw [clientReads, hfeed]
  show (_, _) = _
  rw [hdecode]

end GlfsNdmp
