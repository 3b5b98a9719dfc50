import GlfsNdmp.Server
import GlfsNdmp.Wire

/-!
# What is decoded of a message

Nobody asks the decoders whether they have succeeded. `xdr_decode_encode` goes on with what
`xdr_ndmp_header` has left in its variable, and the handlers with what is in theirs. With less than
the four bytes of the mark, `txn->request.length-4` wraps around, and the decoders read memory that
was never received.
-/

namespace GlfsNdmp

open Xdr

/-! ## Decoding -/

/-- What `recv` has done: the bytes it has put into `txn->request.message`, and whether it has
returned `-1` instead of their number. -/
structure Received where
  bytes : Bytes
  failed : Bool
  size : bytes.length ≤ 2048
  empty : failed = true → bytes = []

/-- `txn->request.length`. -/
def Received.length (recv : Received) : Int := if recv.failed then -1 else recv.bytes.length

/-- What is in variables and memory that are read without having been set: behind what was received,
in `header`, in the `request` of the handler, and the rest of its locals. -/
structure Memory where
  message : Nat → UInt8
  header : NdmpHeader
  request : NdmpMessageHandler → NdmpRequest
  request_handler : ∀ handler, (request handler).handler = handler
  locals : Locals

def Received.stream (recv : Received) (memory : Memory) : Bytes :=
  requestStream recv.length recv.bytes memory.message

/-- The fields `xdr_ndmp_header` decodes. -/
def headerFields : List (Nat → NdmpHeader → NdmpHeader) :=
  [fun n h => { h with sequence := n },
    fun n h => { h with timeStamp := n },
    fun n h => { h with messageType := (n : Int).bmod (2 ^ 32) },
    fun n h => { h with message := (n : Int).bmod (2 ^ 32) },
    fun n h => { h with replySequence := n },
    fun n h => { h with error := (n : Int).bmod (2 ^ 32) }]

/-- `xdr_ndmp_header(&request_stream, &header)`. -/
def xdrNdmpHeader (header : NdmpHeader) (stream : Bytes) : NdmpHeader × Bool × Bytes :=
  fill headerFields header stream

/-- The string a `char *` points to. -/
def cString (s : Bytes) : CString := (s.takeWhile (· ≠ 0)).map fun b => Char.ofNat b.toNat

def Wire.NdmpPval.toPval (p : Wire.NdmpPval) : GlfsNdmp.NdmpPval := ⟨cString p.name, cString p.value⟩

def Wire.NdmpName.toName (n : Wire.NdmpName) : GlfsNdmp.NdmpName :=
  ⟨cString n.originalPath, cString n.destinationDir, cString n.newName, cString n.otherName⟩

/-- The request as the handler sees it once it is decoded. -/
def toRequest : (handler : NdmpMessageHandler) → Wire.Body handler → NdmpRequest
  | .ndmpAcceptNotify, _ => .acceptNotify
  | .ndmpConnectOpen, (protocolVersion : Nat) => .connectOpen ⟨protocolVersion⟩
  | .ndmpConnectClose, _ => .connectClose
  | .ndmpConfigGetHostInfo, _ => .config .getHostInfo
  | .ndmpConfigGetConnectionType, _ => .config .getConnectionType
  | .ndmpConfigGetAuthAttr, (authType : Int) => .config (.getAuthAttr authType)
  | .ndmpConfigGetButypeInfo, _ => .config .getButypeInfo
  | .ndmpConfigGetFsInfo, _ => .config .getFsInfo
  | .ndmpConfigGetTapeInfo, _ => .config .getTapeInfo
  | .ndmpConfigGetScsiInfo, _ => .config .getScsiInfo
  | .ndmpConfigGetServerInfo, _ => .config .getServerInfo
  | .ndmpDataGetState, _ => .dataGetState
  | .ndmpDataStartBackup, (r : Wire.NdmpDataStartBackupRequest) =>
    .dataStartBackup ⟨cString r.buType, r.env.map Wire.NdmpPval.toPval⟩
  | .ndmpDataStartRecover, (r : Wire.NdmpDataStartRecoverRequest) =>
    .dataStartRecover ⟨r.env.map Wire.NdmpPval.toPval, r.nlist.map Wire.NdmpName.toName,
      cString r.buType⟩
  | .ndmpDataAbort, _ => .dataAbort
  | .ndmpDataGetEnv, _ => .dataGetEnv
  | .ndmpDataStop, _ => .dataStop
  | .ndmpDataListen, (addrType : Int) => .dataListen ⟨addrType⟩
  | .ndmpDataConnect, (addr : Wire.NdmpAddr) => .dataConnect ⟨addr.addrType⟩
  | .ndmpErrorMessage, _ => .errorMessage

theorem toRequest_handler (handler : NdmpMessageHandler) (body : Wire.Body handler) :
    (toRequest handler body).handler = handler := by
  cases handler <;> rfl

/-- What the handler finds in its `request`. The discriminant of the address is decoded before its
arm; of the other bodies that fail to decode nothing is known. -/
def seenRequest (memory : Memory) (handler : NdmpMessageHandler) (stream : Bytes) : NdmpRequest :=
  match (Wire.body handler).decode stream with
  | some (body, _) => toRequest handler body
  | none =>
    match handler, Codec.int.decode stream with
    | .ndmpDataConnect, some (addrType, _) => .dataConnect ⟨addrType⟩
    | handler, _ => memory.request handler

theorem seenRequest_handler (memory : Memory) (handler : NdmpMessageHandler) (stream : Bytes) :
    (seenRequest memory handler stream).handler = handler := by
  unfold seenRequest
  split
  · exact toRequest_handler _ _
  · split
    · rfl
    · exact memory.request_handler _

/-! ## What the decoders write -/

/-- `xdr_string`, decoding: the bytes, and a zero behind them. -/
def decodeString (size : Nat) (s : Bytes) : List PreallocatedWrite := [.text (s.length + 1) size]

/-- `xdr_ndmp_pval`, into a preallocated pair. -/
def decodePval (p : Wire.NdmpPval) : List PreallocatedWrite :=
  decodeString 64 p.name ++ decodeString 64 p.value

/-- `xdr_ndmp_name`, into a preallocated name. -/
def decodeName (n : Wire.NdmpName) : List PreallocatedWrite :=
  decodeString 64 n.originalPath ++ decodeString 64 n.destinationDir ++
    decodeString 64 n.newName ++ decodeString 64 n.otherName

/-- `xdr_ndmp_data_start_backup_request`. -/
def decodeStartBackup (r : Wire.NdmpDataStartBackupRequest) : List PreallocatedWrite :=
  decodeString 8 r.buType ++ eachSlot 8 decodePval r.env

/-- `xdr_ndmp_data_start_recover_request`. -/
def decodeStartRecover (r : Wire.NdmpDataStartRecoverRequest) : List PreallocatedWrite :=
  eachSlot 8 decodePval r.env ++ eachSlot 5 decodeName r.nlist ++ decodeString 8 r.buType

/-- What decoding a body writes. -/
def bodyDecoderWrites :
    (handler : NdmpMessageHandler) → Wire.Body handler → List PreallocatedWrite
  | .ndmpDataStartBackup, (r : Wire.NdmpDataStartBackupRequest) => decodeStartBackup r
  | .ndmpDataStartRecover, (r : Wire.NdmpDataStartRecoverRequest) => decodeStartRecover r
  | _, _ => []

/-- The writes of a body that is decoded to its end. -/
def seenWrites (handler : NdmpMessageHandler) (stream : Bytes) : List PreallocatedWrite :=
  match (Wire.body handler).decode stream with
  | some (body, _) => bodyDecoderWrites handler body
  | none => []

/-- How many bytes of an address of the last arm are put where `comm_data_val` points: as soon as
there are as many as the length says, all of them. Their padding is read behind them. -/
def commDataPut (stream : Bytes) : Nat :=
  match Codec.int.decode stream with
  | some (addrType, rest) =>
    match getLong rest with
    | some (length, rest) =>
      if addrType = NdmpAddrType.addrIpc ∧ length ≤ rest.length then length else 0
    | none => 0
  | none => 0

/-- The session a request comes in on, and what the machine supplies while it is handled. -/
structure Arrival where
  address : Nat
  sessionId : Nat
  client : CString
  memory : Memory
  answers : Answers

/-- The transaction with its request decoded. -/
def Received.txn (recv : Received) (arrival : Arrival) : ClientTxn :=
  let decoded := xdrNdmpHeader arrival.memory.header (recv.stream arrival.memory)
  { address := arrival.address
    sessionId := arrival.sessionId
    client := arrival.client
    isTcpConnect := false
    header := decoded.1
    request := seenRequest arrival.memory (ndmpDispatch decoded.1.message) decoded.2.2
    decoderWrites := seenWrites (ndmpDispatch decoded.1.message) decoded.2.2
    commDataLen :=
      if ndmpDispatch decoded.1.message = .ndmpDataConnect then commDataPut decoded.2.2 else 0
    locals := arrival.memory.locals
    answers := arrival.answers
    dispatched := seenRequest_handler _ _ _ }

/-- A complete header and the complete body of the request it names, behind the mark. -/
def Received.Complete (recv : Received) : Prop :=
  (Wire.Request.decode (recv.bytes.drop 4)).isSome

/-! ## The header -/

/-- A complete header is decoded, whatever was in the variable. -/
theorem xdrNdmpHeader_of_le (memory : NdmpHeader) {stream : Bytes} (h : 24 ≤ stream.length) :
    Wire.header.decode stream = some ((xdrNdmpHeader memory stream).1, stream.drop 24) := by
  have word : ∀ k, k + 4 ≤ stream.length →
      ∃ n, getLong (stream.drop k) = some (n, stream.drop (k + 4)) := by
    intro k hk
    rcases getLong_cases (stream.drop k) with ⟨hlt, -⟩ | ⟨-, n, hn⟩
    · rw [List.length_drop] at hlt
      omega
    · exact ⟨n, by rw [hn, List.drop_drop]⟩
  obtain ⟨n₀, h₀⟩ := word 0 (by omega)
  obtain ⟨n₁, h₁⟩ := word 4 (by omega)
  obtain ⟨n₂, h₂⟩ := word 8 (by omega)
  obtain ⟨n₃, h₃⟩ := word 12 (by omega)
  obtain ⟨n₄, h₄⟩ := word 16 (by omega)
  obtain ⟨n₅, h₅⟩ := word 20 (by omega)
  rw [List.drop_zero] at h₀
  have hfields := Codec.prod_decode (c := Codec.ulong) h₀ <| Codec.prod_decode (c := Codec.ulong) h₁ <|
    Codec.prod_decode (Codec.int_decode h₂) <| Codec.prod_decode (Codec.int_decode h₃) <|
      Codec.prod_decode (c := Codec.ulong) h₄ (Codec.int_decode h₅)
  have hheader : Wire.header.decode stream =
      some (⟨n₀, n₁, (n₂ : Int).bmod (2 ^ 32), (n₃ : Int).bmod (2 ^ 32), n₄,
        (n₅ : Int).bmod (2 ^ 32)⟩, stream.drop 24) := Codec.congr_decode _ hfields
  rw [hheader, xdrNdmpHeader, headerFields, fill_of_some _ _ _ h₀, fill_of_some _ _ _ h₁,
    fill_of_some _ _ _ h₂, fill_of_some _ _ _ h₃, fill_of_some _ _ _ h₄, fill_of_some _ _ _ h₅,
    fill]

theorem header_decode_of_lt {stream : Bytes} (h : stream.length < 24) :
    Wire.header.decode stream = none :=
  Wire.header.decode_eq_none (fun _ => Nat.le_refl 24) h

/-- The message number is the fourth word, or what was in the variable. -/
theorem xdrNdmpHeader_message (memory : NdmpHeader) (stream : Bytes) :
    (xdrNdmpHeader memory stream).1.message =
      ((Codec.int.decode (stream.drop 12)).map Prod.fst).getD memory.message := by
  -- the three fields before it, and the two behind it, leave it alone
  let before := headerFields.take 3
  let behind := headerFields.drop 4
  have hbefore : ∀ field ∈ before, ∀ n h, NdmpHeader.message (field n h) = h.message := by
    simp [before, headerFields]
  have hbehind : ∀ field ∈ behind, ∀ n h, NdmpHeader.message (field n h) = h.message := by
    simp [behind, headerFields]
  show (fill (before ++ _ :: behind) memory stream).1.message = _
  rcases Nat.lt_or_ge stream.length 12 with hlt | hle
  · have hnone : Codec.int.decode (stream.drop 12) = none := by
      rw [Codec.int_decode_eq_none, List.length_drop]
      omega
    rw [fill_append_of_lt before _ memory hlt, fill_frame NdmpHeader.message hbefore, hnone]
    rfl
  · have hlength : 4 * before.length = 12 := rfl
    rw [fill_append_of_le before _ memory hle, hlength]
    rcases getLong_cases (stream.drop 12) with ⟨hlt, hnone⟩ | ⟨-, n, hsome⟩
    · rw [fill_of_none _ _ _ hnone, fill_frame NdmpHeader.message hbefore,
        Codec.int_decode_eq_none.2 hlt]
      rfl
    · rw [fill_of_some _ _ _ hsome, fill_frame NdmpHeader.message hbehind, Codec.int_decode hsome,
        Option.map_some, Option.getD_some]
/-! ## What the handlers see -/

/-- Where less than a word is left, only a request without fields can be decoded. -/
theorem toRequest_of_short (request : NdmpRequest) {stream rest : Bytes}
    (hlt : stream.length < 4) {body : Wire.Body request.handler}
    (h : (Wire.body request.handler).decode stream = some (body, rest)) :
    toRequest request.handler body = request := by
  have short {α : Type} {c : Codec α} {r : α × Bytes} (hc : ∀ a, 4 ≤ (c.encode a).length)
      (hdecode : c.decode stream = some r) : False := by
    rw [c.decode_eq_none hc hlt] at hdecode
    cases hdecode
  cases request with
  | connectOpen request => exact (short (c := Codec.ushort) (fun _ => Nat.le_refl 4) h).elim
  | dataListen request => exact (short (c := Codec.int) (fun _ => Nat.le_refl 4) h).elim
  | dataConnect request =>
    refine (short (c := Wire.ndmpAddr) (fun addr => ?_) h).elim
    show 4 ≤ (Codec.int.encode _ ++ _).length
    rw [List.length_append]
    exact Nat.le_add_right 4 _
  | dataStartBackup request =>
    exact (short (c := Wire.ndmpDataStartBackupRequest)
      (fun _ => Codec.le_length_prod Codec.four_le_length_string _ _) h).elim
  | dataStartRecover request =>
    exact (short (c := Wire.ndmpDataStartRecoverRequest)
      (fun _ => Codec.le_length_prod (Codec.four_le_length_array _) _ _) h).elim
  | config request =>
    cases request with
    | getAuthAttr authType => exact (short (c := Codec.int) (fun _ => Nat.le_refl 4) h).elim
    | _ => rfl
  | _ => rfl

/-- A request is complete if its header is there, and the body the header names. -/
theorem request_decode_eq_none (memory : NdmpHeader) {stream : Bytes} :
    Wire.Request.decode stream = none ↔ stream.length < 24 ∨
      24 ≤ stream.length ∧
        (Wire.body (ndmpDispatch (xdrNdmpHeader memory stream).1.message)).decode
          (stream.drop 24) = none := by
  unfold Wire.Request.decode
  rcases Nat.lt_or_ge stream.length 24 with hlt | hle
  · rw [header_decode_of_lt hlt]
    exact iff_of_true rfl (.inl hlt)
  · rw [xdrNdmpHeader_of_le memory hle]
    simp only [Option.bind_eq_bind, Option.bind_some]
    rcases (Wire.body _).decode (stream.drop 24) with _ | ⟨body, rest⟩
    · exact iff_of_true rfl (.inr ⟨hle, rfl⟩)
    · refine iff_of_false (by rintro ⟨⟩) ?_
      rintro (hlt | ⟨-, ⟨⟩⟩)
      omega

/-- What the header has left in the stream. -/
theorem xdrNdmpHeader_rest (memory : NdmpHeader) (stream : Bytes) :
    stream.length < 24 ∧ (xdrNdmpHeader memory stream).2.2.length < 4 ∨
      24 ≤ stream.length ∧ (xdrNdmpHeader memory stream).2.2 = stream.drop 24 := by
  rcases Nat.lt_or_ge stream.length 24 with hlt | hle
  · exact .inl ⟨hlt, length_of_fill_eq_false (fill_of_lt headerFields memory hlt)⟩
  · exact .inr ⟨hle, congrArg Prod.snd (fill_of_le headerFields memory hle)⟩

/-- The body is that of a request to connect, and its address type is there. -/
def AddrTypeDecoded (handler : NdmpMessageHandler) (stream : Bytes) : Prop :=
  handler = .ndmpDataConnect ∧ (Codec.int.decode stream).isSome

/-- The handler of an incomplete request sees what was in its variable. -/
theorem seenRequest_of_incomplete (memory : Memory) {stream : Bytes}
    (h : Wire.Request.decode stream = none) {handler : NdmpMessageHandler}
    (hhandler : ndmpDispatch (xdrNdmpHeader memory.header stream).1.message = handler)
    (haddr : ¬ AddrTypeDecoded handler (stream.drop 24)) :
    seenRequest memory handler (xdrNdmpHeader memory.header stream).2.2 =
      memory.request handler := by
  have hnone : ¬ AddrTypeDecoded handler (xdrNdmpHeader memory.header stream).2.2 := by
    rcases xdrNdmpHeader_rest memory.header stream with ⟨-, hrest⟩ | ⟨-, hrest⟩
    · rintro ⟨-, hsome⟩
      rw [Codec.int_decode_eq_none.2 hrest] at hsome
      cases hsome
    · rw [hrest]
      exact haddr
  unfold seenRequest
  split
  · rename_i body rest hbody
    rcases xdrNdmpHeader_rest memory.header stream with ⟨-, hrest⟩ | ⟨hle, hrest⟩
    · -- the header was cut, and the body has no fields
      obtain ⟨request, hrequest⟩ : ∃ request, memory.request handler = request := ⟨_, rfl⟩
      have hsame := memory.request_handler handler
      rw [hrequest] at hsame ⊢
      subst hsame
      exact toRequest_of_short request hrest hbody
    · rcases (request_decode_eq_none memory.header).1 h with hlt | ⟨-, hbodyNone⟩
      · omega
      · rw [hhandler, ← hrest, hbody] at hbodyNone
        cases hbodyNone
  · split
    · rename_i addrType rest hint _ _
      exact absurd ⟨rfl, by rw [hint]; rfl⟩ hnone
    · rfl

/-- If the address type of an incomplete request is there, it is not `NDMP_ADDR_LOCAL`: that would
have completed the request. -/
theorem seenRequest_of_addrType (memory : Memory) {stream : Bytes}
    (h : Wire.Request.decode stream = none)
    (hhandler : ndmpDispatch (xdrNdmpHeader memory.header stream).1.message = .ndmpDataConnect)
    (haddr : (Codec.int.decode (stream.drop 24)).isSome) :
    ∃ addrType : Int, addrType ≠ NdmpAddrType.addrLocal ∧
      seenRequest memory .ndmpDataConnect (xdrNdmpHeader memory.header stream).2.2 =
        .dataConnect ⟨addrType⟩ := by
  obtain ⟨⟨addrType, rest⟩, hint⟩ := Option.isSome_iff_exists.1 haddr
  have hle : 24 ≤ stream.length := by
    rcases Nat.lt_or_ge stream.length 24 with hlt | hle
    · rw [List.drop_eq_nil_of_le (Nat.le_of_lt hlt)] at hint
      cases hint
    · exact hle
  have hrest : (xdrNdmpHeader memory.header stream).2.2 = stream.drop 24 := by
    rcases xdrNdmpHeader_rest memory.header stream with ⟨hlt, -⟩ | ⟨-, hrest⟩
    · omega
    · exact hrest
  have hbody : Wire.ndmpAddr.decode (stream.drop 24) = none := by
    rcases (request_decode_eq_none memory.header).1 h with hlt | ⟨-, hbody⟩
    · omega
    · rw [hhandler] at hbody
      exact hbody
  refine ⟨addrType, ?_, ?_⟩
  · rintro rfl
    have hlocal : Wire.ndmpAddr.decode (stream.drop 24) = some (.addrLocal, rest) := by
      show (Codec.int.decode (stream.drop 24)).bind _ = _
      rw [hint]
      rfl
    rw [hlocal] at hbody
    cases hbody
  · have hbody' : (Wire.body .ndmpDataConnect).decode (stream.drop 24) = none := hbody
    rw [hrest]
    unfold seenRequest
    rw [hbody', hint]
/-! ## Any memory -/

theorem exists_request (handler : NdmpMessageHandler) :
    ∃ request : NdmpRequest, request.handler = handler := by
  cases handler with
  | ndmpAcceptNotify => exact ⟨.acceptNotify, rfl⟩
  | ndmpConnectOpen => exact ⟨.connectOpen ⟨0⟩, rfl⟩
  | ndmpConnectClose => exact ⟨.connectClose, rfl⟩
  | ndmpConfigGetHostInfo => exact ⟨.config .getHostInfo, rfl⟩
  | ndmpConfigGetConnectionType => exact ⟨.config .getConnectionType, rfl⟩
  | ndmpConfigGetAuthAttr => exact ⟨.config (.getAuthAttr 0), rfl⟩
  | ndmpConfigGetButypeInfo => exact ⟨.config .getButypeInfo, rfl⟩
  | ndmpConfigGetFsInfo => exact ⟨.config .getFsInfo, rfl⟩
  | ndmpConfigGetTapeInfo => exact ⟨.config .getTapeInfo, rfl⟩
  | ndmpConfigGetScsiInfo => exact ⟨.config .getScsiInfo, rfl⟩
  | ndmpConfigGetServerInfo => exact ⟨.config .getServerInfo, rfl⟩
  | ndmpDataGetState => exact ⟨.dataGetState, rfl⟩
  | ndmpDataStartBackup => exact ⟨.dataStartBackup ⟨[], []⟩, rfl⟩
  | ndmpDataStartRecover => exact ⟨.dataStartRecover ⟨[], [], []⟩, rfl⟩
  | ndmpDataAbort => exact ⟨.dataAbort, rfl⟩
  | ndmpDataGetEnv => exact ⟨.dataGetEnv, rfl⟩
  | ndmpDataStop => exact ⟨.dataStop, rfl⟩
  | ndmpDataListen => exact ⟨.dataListen ⟨0⟩, rfl⟩
  | ndmpDataConnect => exact ⟨.dataConnect ⟨0⟩, rfl⟩
  | ndmpErrorMessage => exact ⟨.errorMessage, rfl⟩

/-- Any header and any request may be in memory. -/
theorem exists_memory (header : NdmpHeader) (request : NdmpRequest) (locals : Locals) :
    ∃ memory : Memory, memory.header = header ∧
      memory.request request.handler = request ∧ memory.locals = locals := by
  have hsome : ∀ handler : NdmpMessageHandler, ∃ other : NdmpRequest, other.handler = handler ∧
      (handler = request.handler → other = request) := by
    intro handler
    by_cases hhandler : handler = request.handler
    · exact ⟨request, hhandler.symm, fun _ => rfl⟩
    · obtain ⟨other, hother⟩ := exists_request handler
      exact ⟨other, hother, fun h => absurd h hhandler⟩
  choose requests hrequests hrequest using hsome
  exact ⟨⟨fun _ => 0, header, requests, hrequests, locals⟩, rfl, hrequest _ rfl, rfl⟩

/-! ## The stream -/

theorem Received.bytes_length_of_lt {recv : Received} (h : recv.length < 4) :
    recv.bytes.length < 4 := by
  unfold Received.length at h
  split at h
  · rename_i hfailed
    rw [recv.empty hfailed]
    decide
  · omega

section
variable {recv : Received} (h : 4 ≤ recv.length)
include h

theorem Received.length_of_le : recv.length = recv.bytes.length := by
  unfold Received.length at h ⊢
  split at h
  · omega
  · rename_i hfailed
    rw [if_neg hfailed]

theorem Received.stream_of_le (memory : Memory) : recv.stream memory = recv.bytes.drop 4 := by
  have hlength := Received.length_of_le h
  have hsize := recv.size
  rw [Received.stream, hlength]
  exact requestStream_of_le (by omega) (by omega) memory.message

/-- The request in the transaction. -/
theorem Received.txn_request (arrival : Arrival) :
    (recv.txn arrival).request = seenRequest arrival.memory
      (ndmpDispatch (xdrNdmpHeader arrival.memory.header (recv.bytes.drop 4)).1.message)
      (xdrNdmpHeader arrival.memory.header (recv.bytes.drop 4)).2.2 := by
  rw [← Received.stream_of_le h arrival.memory]
  rfl

end

end GlfsNdmp
