import GlfsNdmp.Lib.Xdr
import GlfsNdmp.Server

/-!
# Requests on the wire

The header and the request bodies of `ndmp.x` as they are transmitted, and what `xdr_decode_encode`
and the handlers make of the bytes they are given: the header is decoded first, its message number
selects the handler, and the handler decodes the body. Neither looks at what the decoder returns, so
where it fails the handler goes on with what its variables held before.
-/

namespace GlfsNdmp

open Xdr

namespace Wire

/-! ## Structures -/

/-- `struct ndmp_pval`. -/
structure NdmpPval where
  name : Bytes
  value : Bytes

/-- `struct ndmp_name`. -/
structure NdmpName where
  originalPath : Bytes
  destinationDir : Bytes
  newName : Bytes
  otherName : Bytes
  node : NdmpUQuad
  fhInfo : NdmpUQuad

/-- `union ndmp_addr`. -/
inductive NdmpAddr
  | addrLocal
  | tcpAddr (ipAddr port : Nat)
  | fcAddr (loopId : Nat)
  | ipcAddr (commData : Bytes)

/-- `struct ndmp_data_start_backup_request`. -/
structure NdmpDataStartBackupRequest where
  buType : Bytes
  env : List NdmpPval

/-- `struct ndmp_data_start_recover_request`. -/
structure NdmpDataStartRecoverRequest where
  env : List NdmpPval
  nlist : List NdmpName
  buType : Bytes

def NdmpAddr.addrType : NdmpAddr → NdmpAddrType
  | .addrLocal => .addrLocal
  | .tcpAddr _ _ => .addrTcp
  | .fcAddr _ => .addrFc
  | .ipcAddr _ => .addrIpc

/-! ## Codecs -/

/-- `xdr_ndmp_header`. -/
def header : Codec NdmpHeader :=
  (Codec.ulong.prod <| Codec.ulong.prod <| Codec.int.prod <| Codec.int.prod <|
    Codec.ulong.prod Codec.int).congr
    { toFun := fun ⟨sequence, timeStamp, messageType, message, replySequence, error⟩ =>
        ⟨sequence, timeStamp, messageType, message, replySequence, error⟩
      invFun := fun ⟨sequence, timeStamp, messageType, message, replySequence, error⟩ =>
        ⟨sequence, timeStamp, messageType, message, replySequence, error⟩
      left_inv := fun _ => rfl
      right_inv := fun _ => rfl }

/-- `xdr_ndmp_u_quad`. -/
def ndmpUQuad : Codec NdmpUQuad :=
  (Codec.ulong.prod Codec.ulong).congr
    { toFun := fun ⟨high, low⟩ => ⟨high, low⟩
      invFun := fun ⟨high, low⟩ => ⟨high, low⟩
      left_inv := fun _ => rfl
      right_inv := fun _ => rfl }

/-- `xdr_ndmp_pval`. -/
def ndmpPval : Codec NdmpPval :=
  (Codec.string.prod Codec.string).congr
    { toFun := fun ⟨name, value⟩ => ⟨name, value⟩
      invFun := fun ⟨name, value⟩ => ⟨name, value⟩
      left_inv := fun _ => rfl
      right_inv := fun _ => rfl }

/-- `xdr_ndmp_name`. -/
def ndmpName : Codec NdmpName :=
  (Codec.string.prod <| Codec.string.prod <| Codec.string.prod <| Codec.string.prod <|
    ndmpUQuad.prod ndmpUQuad).congr
    { toFun := fun ⟨originalPath, destinationDir, newName, otherName, node, fhInfo⟩ =>
        ⟨originalPath, destinationDir, newName, otherName, node, fhInfo⟩
      invFun := fun ⟨originalPath, destinationDir, newName, otherName, node, fhInfo⟩ =>
        ⟨originalPath, destinationDir, newName, otherName, node, fhInfo⟩
      left_inv := fun _ => rfl
      right_inv := fun _ => rfl }

/-- The arms of `union ndmp_addr`; there is no default. -/
def addrArm : Int → Option (Codec NdmpAddr)
  | 0 => some (Codec.void.embed (fun _ => .addrLocal)
      (fun | .addrLocal => some () | _ => none) fun _ => rfl)
  | 1 => some ((Codec.ulong.prod Codec.ushort).embed (fun a => .tcpAddr a.1 a.2)
      (fun | .tcpAddr ipAddr port => some (ipAddr, port) | _ => none) fun _ => rfl)
  | 2 => some (Codec.ulong.embed .fcAddr
      (fun | .fcAddr loopId => some loopId | _ => none) fun _ => rfl)
  | 3 => some (Codec.string.embed .ipcAddr
      (fun | .ipcAddr commData => some commData | _ => none) fun _ => rfl)
  | _ => none

theorem addrType_of_addrArm {t : Int} {c : Codec NdmpAddr} (h : addrArm t = some c) {a : NdmpAddr}
    (ha : c.Valid a) : (a.addrType : Int) = t := by
  unfold addrArm at h
  split at h <;> cases h <;> obtain ⟨x, -, rfl⟩ := ha <;> rfl

/-- `xdr_ndmp_addr`. -/
def ndmpAddr : Codec NdmpAddr := Codec.union (fun a => a.addrType) addrArm addrType_of_addrArm

/-- `xdr_ndmp_data_start_backup_request`. -/
def ndmpDataStartBackupRequest : Codec NdmpDataStartBackupRequest :=
  (Codec.string.prod (Codec.array ndmpPval)).congr
    { toFun := fun ⟨buType, env⟩ => ⟨buType, env⟩
      invFun := fun ⟨buType, env⟩ => ⟨buType, env⟩
      left_inv := fun _ => rfl
      right_inv := fun _ => rfl }

/-- `xdr_ndmp_data_start_recover_request`. -/
def ndmpDataStartRecoverRequest : Codec NdmpDataStartRecoverRequest :=
  ((Codec.array ndmpPval).prod <| (Codec.array ndmpName).prod Codec.string).congr
    { toFun := fun ⟨env, nlist, buType⟩ => ⟨env, nlist, buType⟩
      invFun := fun ⟨env, nlist, buType⟩ => ⟨env, nlist, buType⟩
      left_inv := fun _ => rfl
      right_inv := fun _ => rfl }

/-! ## Bodies -/

/-- The body the handler of a request decodes. `ndmp_error_message` decodes none, and leaves the
bytes of the body in the stream. -/
def Body : NdmpMessageHandler → Type
  | .ndmpConnectOpen => Nat
  | .ndmpConfigGetAuthAttr | .ndmpDataListen => Int
  | .ndmpDataConnect => NdmpAddr
  | .ndmpDataStartBackup => NdmpDataStartBackupRequest
  | .ndmpDataStartRecover => NdmpDataStartRecoverRequest
  | .ndmpErrorMessage => Bytes
  | .ndmpAcceptNotify | .ndmpConnectClose | .ndmpConfigGetHostInfo | .ndmpConfigGetConnectionType
  | .ndmpConfigGetButypeInfo | .ndmpConfigGetFsInfo | .ndmpConfigGetTapeInfo
  | .ndmpConfigGetScsiInfo | .ndmpConfigGetServerInfo | .ndmpDataGetState | .ndmpDataAbort
  | .ndmpDataGetEnv | .ndmpDataStop => Unit

/-- How a handler decodes the body. -/
def body : (handler : NdmpMessageHandler) → Tail (Body handler)
  | .ndmpConnectOpen => .ofCodec Codec.ushort
  | .ndmpConfigGetAuthAttr | .ndmpDataListen => .ofCodec Codec.int
  | .ndmpDataConnect => .ofCodec ndmpAddr
  | .ndmpDataStartBackup => .ofCodec ndmpDataStartBackupRequest
  | .ndmpDataStartRecover => .ofCodec ndmpDataStartRecoverRequest
  | .ndmpErrorMessage => .raw
  | .ndmpAcceptNotify | .ndmpConnectClose | .ndmpConfigGetHostInfo | .ndmpConfigGetConnectionType
  | .ndmpConfigGetButypeInfo | .ndmpConfigGetFsInfo | .ndmpConfigGetTapeInfo
  | .ndmpConfigGetScsiInfo | .ndmpConfigGetServerInfo | .ndmpDataGetState | .ndmpDataAbort
  | .ndmpDataGetEnv | .ndmpDataStop => .ofCodec Codec.void

/-- A request: its header, and the body its message number calls for. -/
structure Request where
  header : NdmpHeader
  body : Body (ndmpDispatch header.message)

namespace Request

/-- The request can be transmitted. -/
def Valid (r : Request) : Prop :=
  Wire.header.Valid r.header ∧ (Wire.body (ndmpDispatch r.header.message)).Valid r.body

def encode (r : Request) : Bytes :=
  Wire.header.encode r.header ++ (Wire.body (ndmpDispatch r.header.message)).encode r.body

/-- Decoding the header, and then the body. -/
def decode (bytes : Bytes) : Option (Request × Bytes) := do
  let (header, bytes) ← Wire.header.decode bytes
  let (body, bytes) ← (Wire.body (ndmpDispatch header.message)).decode bytes
  some (⟨header, body⟩, bytes)

theorem decode_encode {r : Request} (h : r.Valid) : decode r.encode = some (r, []) := by
  unfold decode encode
  rw [Wire.header.decode_encode h.1]
  simp only [Option.bind_eq_bind, Option.bind_some]
  rw [(Wire.body _).decode_encode h.2]
  rfl

theorem length_of_decode {bytes rest : Bytes} {r : Request} (h : decode bytes = some (r, rest)) :
    bytes.length = r.encode.length + rest.length := by
  simp only [decode, Option.bind_eq_bind, Option.bind_eq_some_iff, Option.some_inj, Prod.exists]
    at h
  obtain ⟨header, bytes₁, hheader, body, bytes₂, hbody, heq⟩ := h
  cases heq
  have hlength := Wire.header.length_of_decode hheader
  have hrest := (Wire.body (ndmpDispatch header.message)).length_of_decode hbody
  rw [hlength, hrest, encode, List.length_append, Nat.add_assoc]

end Request

end Wire

/-! ## What `recv` has left in the transaction -/

/-- A byte of `txn->request.message`: one that was received, or what the memory held before. -/
def messageByte (received : Bytes) (memory : Nat → UInt8) (i : Nat) : UInt8 :=
  (received[i]?).getD (memory i)

/-- `xdrmem_create(&request_stream, txn->request.message+4, txn->request.length-4, XDR_DECODE)`, with
the length as the unsigned number `xdrmem_create` takes. -/
def requestStream (length : Int) (received : Bytes) (memory : Nat → UInt8) : Bytes :=
  (List.range ((length - 4) % 2 ^ 32).toNat).map fun i => messageByte received memory (i + 4)

/-- Four bytes or more: the stream is what was received behind the mark. -/
theorem requestStream_of_le {received : Bytes} (h : 4 ≤ received.length)
    (hlt : received.length < 2 ^ 32) (memory : Nat → UInt8) :
    requestStream received.length received memory = received.drop 4 := by
  have hhandy : (((received.length : Int) - 4) % 2 ^ 32).toNat = received.length - 4 := by omega
  rw [requestStream, hhandy]
  refine List.ext_getElem (by simp) fun i hi hi' => ?_
  have hin : i + 4 < received.length := by
    simp only [List.length_map, List.length_range] at hi
    omega
  simp only [List.getElem_map, List.getElem_range, messageByte, List.getElem?_eq_getElem hin,
    Option.getD_some, List.getElem_drop, Nat.add_comm 4 i]

/-- Fewer than four: the subtraction wraps, and the stream is memory that was not received. -/
theorem requestStream_of_lt {length : Int} (hneg : -1 ≤ length) (h : length < 4) {received : Bytes}
    (hreceived : received.length < 4) (memory : Nat → UInt8) :
    ∃ rest, requestStream length received memory =
      memory 4 :: memory 5 :: memory 6 :: memory 7 :: rest := by
  obtain ⟨k, hk⟩ : ∃ k, ((length - 4) % 2 ^ 32).toNat = k + 4 :=
    Nat.exists_eq_add_of_le' (by omega)
  have hbyte : ∀ i, 4 ≤ i → messageByte received memory i = memory i := by
    intro i hi
    rw [messageByte, List.getElem?_eq_none (by omega)]
    rfl
  refine ⟨((List.range k).map (4 + ·)).map fun i => messageByte received memory (i + 4), ?_⟩
  rw [requestStream, hk, Nat.add_comm k 4, List.range_add, List.map_append]
  show messageByte received memory 4 :: messageByte received memory 5 ::
    messageByte received memory 6 :: messageByte received memory 7 :: _ = _
  rw [hbyte 4 (by decide), hbyte 5 (by decide), hbyte 6 (by decide), hbyte 7 (by decide)]
  rfl

end GlfsNdmp
