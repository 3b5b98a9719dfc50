import GlfsNdmp.Lib.XdrMemory
import GlfsNdmp.Replies
import GlfsNdmp.ReplyWire

/-!
# Replies in `reply.message`

A handler adds up what `xdr_sizeof` says of the header and of the body, makes a stream of that
length over `reply.message`, encodes the header, and then the body if there is no error; if there
is one, it takes the size of the body off again. The body may have fields that were not set then,
and their size is what memory happens to say.

`recorded_iff`: what is put on `reply_jobs` is the mark, the header and, without an error, the
body, if and only if the unset fields of a refused request can be measured and do not take the
header's room. Only the fields of the replies are looked at here, and the paths that are freed after
a refused `GET_FS_INFO`; what else a handler reads without having set it is in `GlfsNdmp.MemoryUse`.
-/

namespace GlfsNdmp

open Xdr

/-! ## The sizes of fields that were not set -/

/-- `xdr_ndmp_addr`. -/
def NdmpAddrMemory.measure (a : NdmpAddrMemory) : Measured :=
  match a.addrType with
  | 0 => .word
  | 1 => Measured.word.andThen (.size 8)
  | 2 => Measured.word.andThen .word
  | 3 => Measured.word.andThen (.size (4 + Codec.padded a.commDataLen.toNat))
  | _ => .refused

/-- `xdr_ndmp_auth_attr`. -/
def measureAuthAttr (authType : Int) : Measured :=
  match authType with
  | 0 | 1 => .word
  | 2 => Measured.word.andThen (.size 64)
  | _ => .refused

/-- `xdr_string` on a `char *`. -/
def measureString (s : Pointer CString) : Measured := s.measure List.length

def NdmpPvalMemory.measure (p : NdmpPvalMemory) : Measured :=
  (measureString p.name).andThen (measureString p.value)

/-- `xdr_ndmp_fs_info`: between the devices and the environment are five quads. -/
def NdmpFsInfoMemory.measure (info : NdmpFsInfoMemory) : Measured :=
  ((((((Measured.word.andThen (measureString info.fsType)).andThen
    (measureString info.fsLogicalDevice)).andThen (measureString info.fsPhysicalDevice)).andThen
    (.size 40)).andThen (info.fsEnv.measure 16 NdmpPvalMemory.measure))).andThen
    (measureString info.fsStatus)

def NdmpDeviceCapabilityMemory.measure (c : NdmpDeviceCapabilityMemory) : Measured :=
  ((measureString c.device).andThen .word).andThen
    (c.capability.measure 16 NdmpPvalMemory.measure)

def NdmpDeviceInfoMemory.measure (info : NdmpDeviceInfoMemory) : Measured :=
  (measureString info.model).andThen (info.caplist.measure 32 NdmpDeviceCapabilityMemory.measure)

/-- The body of `ndmp_config_get_host_info`: the calls that have not failed have set their
strings. -/
def UnsetFields.measureHostInfo (unset : UnsetFields) (os : ConfigAnswers) : Measured :=
  let hostname := os.hostname.elim unset.hostname .target
  let osType := os.uname.elim unset.osType fun u => .target u.1
  let osVers := os.uname.elim unset.osVers fun u => .target u.2
  ((((Measured.word.andThen (measureString hostname)).andThen (measureString osType)).andThen
    (measureString osVers))).andThen (measureString (.target "1".toList))

/-- What `xdr_sizeof` meets in the body of a request that is refused. `ndmp_error_message`
measures no body; the bodies that are not named here have no field but the error. -/
def UnsetFields.measureBody (unset : UnsetFields) (txn : ClientTxn) : Measured :=
  match txn.request with
  | .dataListen _ => Measured.word.andThen unset.dataConnectionAddr.measure
  | .config (.getAuthAttr _) => Measured.word.andThen (measureAuthAttr unset.authType)
  | .config .getHostInfo => unset.measureHostInfo txn.answers.config
  | .config .getFsInfo =>
    Measured.word.andThen (unset.fsInfo.measure 136 NdmpFsInfoMemory.measure)
  | .config .getScsiInfo =>
    Measured.word.andThen (unset.scsiInfo.measure 24 NdmpDeviceInfoMemory.measure)
  | .errorMessage => .size 0
  | _ => .word

/-- `ndmp_config_get_fs_info` frees the paths at its end, whether they were allocated or not. -/
def UnsetFields.released (unset : UnsetFields) (txn : ClientTxn) : Bool :=
  match txn.request, txn.answers.config.statvfs with
  | .config .getFsInfo, none =>
    match unset.fsInfoPaths with
    | .target (logical, physical) => logical != .other && physical != .other
    | _ => false
  | _, _ => true

/-! ## The handlers' end -/

/-- What `xdr_ndmp_header` puts, one word after the other. -/
def headerWords (header : NdmpHeader) : List Bytes :=
  [putLong header.sequence, putLong header.timeStamp, Codec.int.encode header.messageType,
    Codec.int.encode header.message, putLong header.replySequence, Codec.int.encode header.error]

/-- `xdr_sizeof` of the body: a body that is sent has all its fields set. -/
def NdmpReply.measureBody (reply : NdmpReply) (unset : Measured) : Measured :=
  (reply.body.map fun body => Measured.size body.encode.length).getD unset

/-- What the end of a handler leaves in `reply.message` and `reply.length`. -/
def encodeReply (memory : Nat → UInt8) (reply : NdmpReply) (unset : Measured) :
    Option ((Nat → UInt8) × Int) := do
  let size ← (reply.measureBody unset).xdrSizeof
  let length := (24 + size : Int).bmod (2 ^ 32)
  let stream : MemStream := ⟨memory, 0, (length % 2 ^ 32).toNat⟩
  let stream := (stream.putAll (headerWords reply.header)).1
  match reply.body with
  | some body => some ((stream.putAll [body.encode]).1.memory, length)
  | none => some (stream.memory, (length - size).bmod (2 ^ 32))

/-- `xdr_decode_encode` puts the mark in front of the reply, by way of `buf`. -/
def frameInPlace (message : Nat → UInt8) (length : Int) : Bytes :=
  let buf := recordMark length.toNat ++ load message length.toNat
  load (store message 0 buf) (length.toNat + 4)

/-- The bytes that are put on `reply_jobs`. -/
def enqueuedBytes (srv : Server) (txn : ClientTxn) (unset : UnsetFields) (memory : Nat → UInt8) :
    Option Bytes :=
  match (xdrDecodeEncode srv txn).2 with
  | some (.message reply) =>
    if unset.released txn
    then (encodeReply memory reply (unset.measureBody txn)).map fun m => frameInPlace m.1 m.2
    else none
  | _ => none

/-! ## What a client reads -/

/-- A record: a mark with its top bit set, and as many bytes as it says. -/
def readRecord (bytes : Bytes) : Option (Bytes × Bytes) := do
  let (mark, rest) ← getLong bytes
  if 2 ^ 31 ≤ mark ∧ mark - 2 ^ 31 ≤ rest.length
  then some (rest.take (mark - 2 ^ 31), rest.drop (mark - 2 ^ 31)) else none

/-- The record of a reply: its mark, its header, and its body unless the header carries an error. -/
structure Recorded (bytes : Bytes) (reply : NdmpReply) : Prop where
  bytes_eq : bytes = recordMark reply.encode.length ++ reply.encode
  body_iff : reply.body.isSome ↔ reply.header.error = NdmpError.noErr
  read_eq : readRecord bytes = some (reply.encode, [])

/-- Whatever is in the memory of the reply. -/
def WellRecorded (srv : Server) (txn : ClientTxn) (unset : UnsetFields) : Prop :=
  ∀ memory, ∃ reply bytes, (xdrDecodeEncode srv txn).2 = some (.message reply) ∧
    enqueuedBytes srv txn unset memory = some bytes ∧ Recorded bytes reply

theorem or_topBit {n : Nat} (h : n < 2 ^ 31) : n ||| 2 ^ 31 = n + 2 ^ 31 := by
  have hmul := Nat.two_pow_add_eq_or_of_lt h 1
  rw [Nat.mul_one] at hmul
  rw [Nat.or_comm, ← hmul, Nat.add_comm]

/-- The mark says the length, and its top bit is set. -/
theorem recordMark_eq {n : Nat} (h : n < 2 ^ 31) : recordMark n = putLong (n + 2 ^ 31) :=
  congrArg putLong (or_topBit h)

theorem getLong_frame {reply : Bytes} (h : reply.length < 2 ^ 31) :
    getLong (frame reply) = some ((reply.length + 2 ^ 31) % 2 ^ 32, reply) := by
  rw [frame, recordMark_eq h]
  exact getLong_putLong _ _

theorem readRecord_of_getLong {mark n : Nat} {bytes rest : Bytes}
    (h : getLong bytes = some (mark, rest)) (hmark : mark = n + 2 ^ 31) (hle : n ≤ rest.length) :
    readRecord bytes = some (rest.take n, rest.drop n) := by
  have hsub : mark - 2 ^ 31 = n := by omega
  have hin : 2 ^ 31 ≤ mark ∧ mark - 2 ^ 31 ≤ rest.length := by omega
  rw [readRecord, h]
  simp only [Option.bind_eq_bind, Option.bind_some]
  rw [if_pos hin, hsub]

/-- A framed reply is read back. -/
theorem readRecord_frame {reply : Bytes} (h : reply.length < 2 ^ 31) :
    readRecord (frame reply) = some (reply, []) := by
  have hmark : (reply.length + 2 ^ 31) % 2 ^ 32 = reply.length + 2 ^ 31 := by omega
  rw [readRecord_of_getLong (getLong_frame h) hmark (Nat.le_refl _), List.take_length,
    List.drop_length]

/-! ## Room for the header -/

/-- The size is found, and the length with the header does not wrap around below the header's. -/
def LeavesHeader (m : Measured) : Prop := ∃ n, m.xdrSizeof = some n ∧ n < 2 ^ 32 - 24

/-- The length as `xdrmem_create` takes it. -/
theorem handy_eq (size : Nat) :
    ((24 + (size : Int)).bmod (2 ^ 32) % 2 ^ 32).toNat = (24 + size) % 2 ^ 32 := by
  have hmod : (24 + (size : Int)).bmod (2 ^ 32) % ((2 ^ 32 : Nat) : Int) =
      (24 + (size : Int)) % ((2 ^ 32 : Nat) : Int) := Int.bmod_emod
  have hpow : ((2 ^ 32 : Nat) : Int) = 2 ^ 32 := rfl
  rw [hpow] at hmod
  omega

/-- The length without the body. -/
theorem length_back (size : Nat) :
    ((24 + (size : Int)).bmod (2 ^ 32) - size).bmod (2 ^ 32) = 24 := by
  rw [Int.bmod_sub_bmod, Int.add_sub_cancel]
  rfl

theorem flatten_headerWords (header : NdmpHeader) :
    (headerWords header).flatten = Wire.header.encode header := by
  simp only [headerWords, List.flatten_cons, List.flatten_nil, List.append_nil]
  rfl

/-- A reply with a body. -/
theorem encodeReply_some (memory : Nat → UInt8) {reply : NdmpReply} {body : NdmpReplyBody}
    (hbody : reply.body = some body) (h : reply.encode.length ≤ 2044) (unset : Measured) :
    ∃ message, encodeReply memory reply unset = some (message, (reply.encode.length : Int)) ∧
      load message reply.encode.length = reply.encode := by
  have hencode : reply.encode = Wire.header.encode reply.header ++ body.encode := by
    rw [NdmpReply.encode, hbody]
    rfl
  have hlength : reply.encode.length = 24 + body.encode.length := by
    rw [hencode, List.length_append, length_header]
  have hsize : (Measured.size body.encode.length).xdrSizeof = some body.encode.length :=
    congrArg some (Nat.mod_eq_of_lt (by omega))
  have hint : (24 + (body.encode.length : Int)).bmod (2 ^ 32) = 24 + body.encode.length :=
    Int.bmod_eq_of_le_mul_two (by omega) (by omega)
  have hhandy : ((24 + (body.encode.length : Int)) % 2 ^ 32).toNat = 24 + body.encode.length := by
    omega
  have hheader : (headerWords reply.header).flatten.length ≤ 24 + body.encode.length := by
    rw [flatten_headerWords, length_header]
    exact Nat.le_add_right _ _
  obtain ⟨memory₁, hput₁, hload₁⟩ := @MemStream.putAll_of_le
    ⟨memory, 0, 24 + body.encode.length⟩ _ hheader
  rw [flatten_headerWords, length_header] at hput₁ hload₁
  have hbodyFits : [body.encode].flatten.length ≤ 24 + body.encode.length - 24 := by
    simp
  obtain ⟨memory₂, hput₂, hload₂⟩ := @MemStream.putAll_of_le
    ⟨memory₁, 0 + 24, 24 + body.encode.length - 24⟩ _ hbodyFits
  refine ⟨memory₂, ?_, ?_⟩
  · rw [encodeReply, NdmpReply.measureBody, hbody]
    simp only [Option.map_some, Option.getD_some, hsize, Option.bind_eq_bind, Option.bind_some,
      hint, hhandy, hput₁, hput₂]
    rw [hlength]
    rfl
  · simp only [List.flatten_singleton, hload₁, Nat.zero_add] at hload₂
    rw [hlength, hload₂, hencode]
    rfl

/-- A header alone, if it has room. -/
theorem encodeReply_none (memory : Nat → UInt8) {reply : NdmpReply} (hbody : reply.body = none)
    {unset : Measured} (h : LeavesHeader unset) :
    ∃ message, encodeReply memory reply unset = some (message, 24) ∧
      load message 24 = reply.encode := by
  obtain ⟨n, hsize, hlt⟩ := h
  have hencode : reply.encode = Wire.header.encode reply.header := by
    rw [NdmpReply.encode, hbody]
    exact List.append_nil _
  have hhandy := (handy_eq n).trans (Nat.mod_eq_of_lt (by omega))
  have hheader : (headerWords reply.header).flatten.length ≤ 24 + n := by
    rw [flatten_headerWords, length_header]
    exact Nat.le_add_right _ _
  obtain ⟨message, hput, hload⟩ := @MemStream.putAll_of_le ⟨memory, 0, 24 + n⟩ _ hheader
  rw [flatten_headerWords, length_header] at hput hload
  refine ⟨message, ?_, ?_⟩
  · rw [encodeReply, NdmpReply.measureBody, hbody]
    simp only [Option.map_none, Option.getD_none, hsize, Option.bind_eq_bind, Option.bind_some,
      hhandy, hput, length_back]
  · rw [hencode]
    exact hload

/-- Behind the room for the header, there is what the memory held. -/
theorem encodeReply_cut (memory : Nat → UInt8) {reply : NdmpReply} (hbody : reply.body = none)
    {unset : Measured} {n : Nat} (hsize : unset.xdrSizeof = some n) :
    ∃ message, encodeReply memory reply unset = some (message, 24) ∧
      ∀ i, (24 + n) % 2 ^ 32 ≤ i → message i = memory i := by
  refine ⟨_, ?_, fun i hi => MemStream.putAll_frame ⟨memory, 0, (24 + n) % 2 ^ 32⟩
    (headerWords reply.header) ?_⟩
  · rw [encodeReply, NdmpReply.measureBody, hbody]
    simp only [Option.map_none, Option.getD_none, hsize, Option.bind_eq_bind, Option.bind_some,
      handy_eq, length_back]
  · show 0 + (24 + n) % 2 ^ 32 ≤ i
    omega

/-- Where the unset address is an IPC address of 2 ^ 32 - 24 bytes, the header has room for three
words, and its error is what memory held. -/
theorem encodeReply_wrapped {reply : NdmpReply} (hbody : reply.body = none) :
    ∃ message, encodeReply (fun _ => 0) reply
        (Measured.word.andThen (NdmpAddrMemory.measure ⟨3, -24⟩)) = some (message, 24) ∧
      (load message 24).drop 20 = [0, 0, 0, 0] := by
  have hsize : (Measured.word.andThen (NdmpAddrMemory.measure ⟨3, -24⟩)).xdrSizeof =
      some (2 ^ 32 - 12) := rfl
  obtain ⟨message, hmessage, hkept⟩ := encodeReply_cut (fun _ => 0) hbody hsize
  have hbyte (i : Nat) (hi : 12 ≤ i) : message i = 0 := hkept i hi
  exact ⟨message, hmessage, by simp [load, List.range, List.range.loop, hbyte]⟩

/-! ## The record that is enqueued -/

/-- What is read back of `buf` is `buf`. -/
theorem frameInPlace_eq (message : Nat → UInt8) (n : Nat) :
    frameInPlace message n = recordMark n ++ load message n := by
  have hbuf : (recordMark n ++ load message n).length = n + 4 := by
    rw [List.length_append, length_load]
    exact Nat.add_comm 4 n
  have hload := load_store message 0 (recordMark n ++ load message n)
  rw [hbuf, Nat.zero_add] at hload
  exact hload

theorem recorded_of_frame {reply : NdmpReply} (h : reply.encode.length ≤ 2044)
    (hbody : reply.body.isSome ↔ reply.header.error = NdmpError.noErr) :
    Recorded (frame reply.encode) reply :=
  ⟨rfl, hbody, readRecord_frame (by omega)⟩

section
variable {srv : Server} {txn : ClientTxn} {reply : NdmpReply} (unset : UnsetFields)
  (houtput : (xdrDecodeEncode srv txn).2 = some (.message reply))
  (herror : reply.body.isSome ↔ reply.header.error = NdmpError.noErr)
  (hfits : reply.encode.length ≤ 2044)
include houtput herror hfits

omit herror hfits in
theorem enqueuedBytes_eq (memory : Nat → UInt8) : enqueuedBytes srv txn unset memory =
    if unset.released txn
    then (encodeReply memory reply (unset.measureBody txn)).map fun m => frameInPlace m.1 m.2
    else none := by
  rw [enqueuedBytes, houtput]

omit herror hfits in
/-- A record is there only if the handler comes to its end. -/
theorem released_of_wellRecorded (h : WellRecorded srv txn unset) :
    unset.released txn ∧ ∀ memory, ∃ bytes,
      (encodeReply memory reply (unset.measureBody txn)).map (fun m => frameInPlace m.1 m.2) =
        some bytes ∧ Recorded bytes reply := by
  have hall : ∀ memory, unset.released txn ∧ ∃ bytes,
      (encodeReply memory reply (unset.measureBody txn)).map (fun m => frameInPlace m.1 m.2) =
        some bytes ∧ Recorded bytes reply := by
    intro memory
    obtain ⟨_, bytes, hsame, hbytes, hrecorded⟩ := h memory
    cases houtput.symm.trans hsame
    rw [enqueuedBytes_eq unset houtput] at hbytes
    split at hbytes
    · rename_i hreleased
      exact ⟨hreleased, bytes, hbytes, hrecorded⟩
    · cases hbytes
  exact ⟨(hall fun _ => 0).1, fun memory => (hall memory).2⟩

omit herror hfits in
/-- A header alone is recorded whole only if there is room for it. -/
theorem leavesHeader_of_wellRecorded (h : WellRecorded srv txn unset) (hbody : reply.body = none) :
    LeavesHeader (unset.measureBody txn) := by
  obtain ⟨-, hall⟩ := released_of_wellRecorded unset houtput h
  cases hsize : (unset.measureBody txn).xdrSizeof with
  | none =>
    obtain ⟨bytes, hbytes, -⟩ := hall fun _ => 0
    rw [encodeReply, NdmpReply.measureBody, hbody, Option.map_none, Option.getD_none,
      hsize] at hbytes
    cases hbytes
  | some n =>
    refine ⟨n, hsize, Nat.lt_of_not_le fun hle => ?_⟩
    -- the last byte of the header may be any
    obtain ⟨bytes, hbytes, hrecorded⟩ := hall fun _ => (reply.encode[23]?).getD 0 + 1
    have hlt := Measured.xdrSizeof_lt hsize
    obtain ⟨message, hmessage, hkept⟩ := encodeReply_cut
      (fun _ => (reply.encode[23]?).getD 0 + 1) hbody hsize
    have hbyte := hkept 23 (by omega)
    have hframe : frameInPlace message 24 = recordMark 24 ++ load message 24 :=
      frameInPlace_eq message 24
    rw [hmessage, Option.map_some, Option.some_inj, hrecorded.bytes_eq, hframe,
      length_encode_of_body hbody] at hbytes
    have hload := List.append_cancel_left hbytes
    rw [← hload] at hbyte
    simp [load] at hbyte

/-- With room for the header, the record is well formed. -/
theorem wellRecorded_of_leavesHeader (hreleased : unset.released txn)
    (hroom : reply.body = none → LeavesHeader (unset.measureBody txn)) :
    WellRecorded srv txn unset := by
  intro memory
  refine ⟨reply, frame reply.encode, houtput, ?_, recorded_of_frame hfits herror⟩
  rw [enqueuedBytes_eq unset houtput, if_pos hreleased]
  cases hbody : reply.body with
  | none =>
    obtain ⟨message, hmessage, hload⟩ := encodeReply_none memory hbody (hroom hbody)
    have hframe : frameInPlace message 24 = recordMark 24 ++ load message 24 :=
      frameInPlace_eq message 24
    rw [hmessage, Option.map_some, frame, length_encode_of_body hbody, hframe, hload]
  | some body =>
    obtain ⟨message, hmessage, hload⟩ := encodeReply_some memory hbody hfits
      (unset.measureBody txn)
    rw [hmessage, Option.map_some, frameInPlace_eq, hload]
    rfl

/-- The record of a reply is well formed if and only if the handler comes to its end and, where no
body is sent, the header has room. -/
theorem wellRecorded_iff_leavesHeader :
    WellRecorded srv txn unset ↔ unset.released txn ∧
      (reply.body = none → LeavesHeader (unset.measureBody txn)) := by
  constructor
  · intro h
    exact ⟨(released_of_wellRecorded unset houtput h).1,
      leavesHeader_of_wellRecorded unset houtput h⟩
  · intro ⟨hreleased, hroom⟩
    exact wellRecorded_of_leavesHeader unset houtput herror hfits hreleased hroom

end

/-! ## Errors -/

theorem valid_code (e : NdmpError) : Codec.int.Valid e.code := by
  show -2 ^ 31 ≤ e.code ∧ e.code < 2 ^ 31
  cases e <;> decide

theorem valid_ite (p : Prop) [Decidable p] (e e' : NdmpError) :
    Codec.int.Valid (if p then (e : Int) else e') := by
  by_cases h : p
  · rw [if_pos h]
    exact valid_code e
  · rw [if_neg h]
    exact valid_code e'

theorem valid_addrError (addrType dataState : Int) :
    Codec.int.Valid (addrError addrType dataState) := by
  by_cases h : dataState ≠ NdmpDataState.idle
  · rw [addrError, if_pos h]
    exact valid_code _
  · rw [addrError, if_neg h]
    exact valid_ite _ _ _

/-- The error of a transfer, which may have failed after its check. -/
theorem valid_transferError (done : Bool) (dataState : Int) : Codec.int.Valid
    (if done then dataStartError dataState else (NdmpError.illegalStateErr : Int)) := by
  cases done with
  | false => exact valid_code _
  | true => exact valid_ite _ _ _

/-! ## Who leaves what unset -/

/-- The handlers that build a reply. -/
def NdmpRequest.buildsReply : NdmpRequest → Bool
  | .connectClose | .dataGetState => false
  | _ => true

/-- What a refused request leaves unset does no harm: in the address, the length is not one of the
24 whose size wraps around into the header; the others can be measured, and what is freed was
allocated. The requests that are not named leave nothing unset that is measured and can be long. -/
def UnsetHarmless (srv : Server) (txn : ClientTxn) (unset : UnsetFields) : Prop :=
  match txn.request with
  | .dataListen request =>
    ((srv.session txn.sessionId).dataState = NdmpDataState.idle ∧
        request.addrType = NdmpAddrType.addrLocal) ∨
      ¬ (unset.dataConnectionAddr.addrType = NdmpAddrType.addrIpc ∧
        2 ^ 32 - 39 ≤ unset.dataConnectionAddr.commDataLen.toNat ∧
        unset.dataConnectionAddr.commDataLen.toNat ≤ 2 ^ 32 - 16)
  | .config .getHostInfo =>
    (txn.answers.config.hostname.isSome ∧ txn.answers.config.uname.isSome) ∨
      LeavesHeader (unset.measureHostInfo txn.answers.config)
  | .config .getFsInfo =>
    txn.answers.config.statvfs.isSome ∨
      (LeavesHeader (Measured.word.andThen (unset.fsInfo.measure 136 NdmpFsInfoMemory.measure)) ∧
        ∃ logical physical, unset.fsInfoPaths = .target (logical, physical) ∧
          logical ≠ .other ∧ physical ≠ .other)
  | .config .getScsiInfo =>
    txn.answers.config.scsiInfo ≠ [] ∨
      LeavesHeader (Measured.word.andThen
        (unset.scsiInfo.measure 24 NdmpDeviceInfoMemory.measure))
  | _ => True

theorem leavesHeader_size_iff {n : Nat} :
    LeavesHeader (.size n) ↔ n % 2 ^ 32 < 2 ^ 32 - 24 := by
  constructor
  · rintro ⟨k, hk, hlt⟩
    cases hk
    exact hlt
  · intro hlt
    exact ⟨_, rfl, hlt⟩

theorem leavesHeader_size {n : Nat} (h : n < 2 ^ 32 - 24) : LeavesHeader (.size n) :=
  leavesHeader_size_iff.2 (Nat.lt_of_le_of_lt (Nat.mod_le _ _) h)

theorem leavesHeader_refused : LeavesHeader .refused := ⟨0, rfl, by decide⟩

/-- Two words, and a string of so many bytes with its length. -/
theorem leavesHeader_ipc_iff {length : Nat} (h : length < 2 ^ 32) :
    LeavesHeader (.size (4 + (4 + (4 + Codec.padded length)))) ↔
      ¬ (2 ^ 32 - 39 ≤ length ∧ length ≤ 2 ^ 32 - 16) := by
  rw [leavesHeader_size_iff]
  unfold Codec.padded Codec.padding
  constructor
  · rintro hlt ⟨hle, hge⟩
    omega
  · intro hnot
    omega

/-- An address is harmless unless it has the last arm and one of 24 lengths. -/
theorem leavesHeader_addr (a : NdmpAddrMemory) :
    LeavesHeader (Measured.word.andThen a.measure) ↔
      ¬ (a.addrType = NdmpAddrType.addrIpc ∧ 2 ^ 32 - 39 ≤ a.commDataLen.toNat ∧
        a.commDataLen.toNat ≤ 2 ^ 32 - 16) := by
  have hother {t : Int} (ht : t ≠ NdmpAddrType.addrIpc) (htype : a.addrType = t) :
      ¬ (a.addrType = NdmpAddrType.addrIpc ∧ 2 ^ 32 - 39 ≤ a.commDataLen.toNat ∧
        a.commDataLen.toNat ≤ 2 ^ 32 - 16) :=
    fun hin => ht (htype.symm.trans hin.1)
  have hshort {t : Int} {n : Nat} (hn : n < 2 ^ 32 - 24) (ht : t ≠ NdmpAddrType.addrIpc)
      (htype : a.addrType = t) : LeavesHeader (.size n) ↔
        ¬ (a.addrType = NdmpAddrType.addrIpc ∧ 2 ^ 32 - 39 ≤ a.commDataLen.toNat ∧
          a.commDataLen.toNat ≤ 2 ^ 32 - 16) :=
    iff_of_true (leavesHeader_size hn) (hother ht htype)
  unfold NdmpAddrMemory.measure
  split
  · rename_i htype
    exact hshort (by decide) (by decide) htype
  · rename_i htype
    exact hshort (by decide) (by decide) htype
  · rename_i htype
    exact hshort (by decide) (by decide) htype
  · rename_i htype
    have hipc : a.addrType = NdmpAddrType.addrIpc := htype
    rw [and_iff_right hipc]
    exact leavesHeader_ipc_iff a.commDataLen.toNat_lt
  · rename_i htype
    exact iff_of_true leavesHeader_refused (hother htype rfl)

theorem leavesHeader_authAttr (authType : Int) :
    LeavesHeader (Measured.word.andThen (measureAuthAttr authType)) := by
  unfold measureAuthAttr
  split
  · exact leavesHeader_size (by decide)
  · exact leavesHeader_size (by decide)
  · exact leavesHeader_size (by decide)
  · exact leavesHeader_refused

/-- A handler that builds a reply has a body for it if and only if there is no error. -/
theorem dispatch_message (srv : Server) {txn : ClientTxn} (h : txn.request.buildsReply) :
    ∃ reply, (srv.dispatch txn).2 = .message reply ∧
      (reply.body.isSome ↔ reply.header.error = NdmpError.noErr) := by
  have hreply (srv : Server) (error : Int) (body : NdmpReplyBody) :
      ∃ reply, (srv.reply txn error body).2 = .message reply ∧
        (reply.body.isSome ↔ reply.header.error = NdmpError.noErr) := by
    refine ⟨_, rfl, ?_⟩
    show (if error = NdmpError.noErr then some body else none).isSome ↔ error = NdmpError.noErr
    by_cases herror : error = NdmpError.noErr
    · rw [if_pos herror]
      exact iff_of_true rfl herror
    · rw [if_neg herror]
      exact iff_of_false Bool.false_ne_true herror
  have hmessage (srv : Server) : ∃ reply,
      (srv.errorMessage txn NdmpError.notSupportedErr).2 = .message reply ∧
        (reply.body.isSome ↔ reply.header.error = NdmpError.noErr) :=
    ⟨_, rfl, iff_of_false Bool.false_ne_true (by decide : (1 : Int) ≠ 0)⟩
  unfold Server.dispatch
  cases hrequest : txn.request with
  | connectClose | dataGetState =>
    rw [hrequest] at h
    cases h
  | acceptNotify => exact ⟨_, rfl, iff_of_true rfl rfl⟩
  | config request =>
    simp only
    split
    · exact hreply _ _ _
    · rename_i e he
      rw [ndmpConfig_error he]
      exact hmessage srv
  | errorMessage => exact hmessage srv
  | _ => exact hreply _ _ _

theorem addrError_eq_noErr (addrType dataState : Int) :
    addrError addrType dataState = NdmpError.noErr ↔
      dataState = NdmpDataState.idle ∧ addrType = NdmpAddrType.addrLocal := by
  unfold addrError
  by_cases hstate : dataState = NdmpDataState.idle
  · rw [if_neg (not_not.2 hstate)]
    by_cases htype : addrType = NdmpAddrType.addrLocal
    · rw [if_pos htype]
      exact iff_of_true rfl ⟨hstate, htype⟩
    · rw [if_neg htype]
      exact iff_of_false (by decide : (9 : Int) ≠ 0) fun h => htype h.2
  · rw [if_pos hstate]
    exact iff_of_false (by decide : (19 : Int) ≠ 0) fun h => hstate h.1

section
variable {srv : Server} {txn : ClientTxn} {reply : NdmpReply} (unset : UnsetFields)
  (hreply : (srv.dispatch txn).2 = .message reply)
include hreply

/-- `DATA_LISTEN` is refused in any state but idle, and for any address type but the local one. -/
theorem body_eq_none_listen {request : NdmpDataListenRequest}
    (hrequest : txn.request = .dataListen request) :
    reply.body = none ↔ ¬ ((srv.session txn.sessionId).dataState = NdmpDataState.idle ∧
      request.addrType = NdmpAddrType.addrLocal) := by
  rw [← addrError_eq_noErr]
  simp only [Server.dispatch, hrequest] at hreply
  cases hreply
  show (if addrError _ _ = NdmpError.noErr.code then _ else none) = none ↔ _
  split
  · rename_i herror
    exact iff_of_false (Option.some_ne_none _) (not_not.2 herror)
  · rename_i herror
    exact iff_of_true rfl herror

/-- A CONFIG request is refused where its handler gives an error. -/
theorem body_eq_none_config {request : NdmpConfigRequest}
    (hrequest : txn.request = .config request) :
    reply.body = none ↔ ∃ e, ndmpConfig txn.answers.config request = .error e := by
  simp only [Server.dispatch, hrequest] at hreply
  split at hreply
  · rename_i body hbody
    cases hreply
    rw [hbody]
    refine iff_of_false ?_ (by rintro ⟨e, ⟨⟩⟩)
    show (if (NdmpError.noErr.code = NdmpError.noErr.code) then _ else none) ≠ none
    rw [if_pos rfl]
    exact Option.some_ne_none _
  · rename_i e he
    cases hreply
    exact iff_of_true rfl ⟨e, he⟩

/-- What the end of the handler asks for is that the unset fields do no harm. -/
theorem released_and_leavesHeader_iff :
    (unset.released txn ∧ (reply.body = none → LeavesHeader (unset.measureBody txn))) ↔
      UnsetHarmless srv txn unset := by
  unfold UnsetFields.released UnsetFields.measureBody UnsetHarmless
  cases hrequest : txn.request with
  | dataListen request =>
    simp only [true_and]
    rw [body_eq_none_listen hreply hrequest, leavesHeader_addr, ← or_iff_not_imp_left]
  | errorMessage => exact iff_of_true ⟨rfl, fun _ => leavesHeader_size (by decide)⟩ trivial
  | config request =>
    have hnone := body_eq_none_config hreply hrequest
    cases request with
    | getAuthAttr authType => exact iff_of_true ⟨rfl, fun _ => leavesHeader_authAttr _⟩ trivial
    | getHostInfo =>
      simp only [true_and]
      rw [hnone, or_iff_not_imp_left]
      refine imp_congr_left ?_
      unfold ndmpConfig ndmpConfigGetHostInfo
      cases txn.answers.config.hostname <;> cases txn.answers.config.uname <;> simp
    | getFsInfo =>
      unfold ndmpConfig ndmpConfigGetFsInfo at hnone
      cases hstatvfs : txn.answers.config.statvfs with
      | none =>
        rw [hstatvfs] at hnone
        have hbody : reply.body = none := hnone.2 ⟨_, rfl⟩
        simp only [hbody, Option.isSome_none, Bool.false_eq_true, false_or, true_implies]
        rw [and_comm]
        refine and_congr_right fun _ => ?_
        cases unset.fsInfoPaths with
        | null | wild => simp
        | target paths =>
          obtain ⟨logical, physical⟩ := paths
          simp
      | some st =>
        rw [hstatvfs] at hnone
        refine iff_of_true ⟨rfl, fun hbody => ?_⟩ (.inl rfl)
        obtain ⟨e, he⟩ := hnone.1 hbody
        cases he
    | getScsiInfo =>
      simp only [true_and]
      rw [hnone, or_iff_not_imp_left]
      refine imp_congr_left ?_
      unfold ndmpConfig ndmpConfigGetScsiInfo
      cases txn.answers.config.scsiInfo <;> simp
    | _ => exact iff_of_true ⟨rfl, fun _ => leavesHeader_size (by decide)⟩ trivial
  | _ => exact iff_of_true ⟨rfl, fun _ => leavesHeader_size (by decide)⟩ trivial

end

/-- For the reply the handler has made. -/
theorem wellRecorded_iff_unsetHarmless {srv : Server} {txn : ClientTxn} {reply : NdmpReply}
    (unset : UnsetFields) (hterminated : (srv.session txn.sessionId).isTerminated = false)
    (hreply : ((srv.addJobToSession txn).dispatch txn).2 = .message reply)
    (herror : reply.body.isSome ↔ reply.header.error = NdmpError.noErr)
    (hfits : reply.encode.length ≤ 2044) :
    WellRecorded srv txn unset ↔ UnsetHarmless srv txn unset := by
  have houtput : (xdrDecodeEncode srv txn).2 = some (.message reply) := by
    rw [xdrDecodeEncode_reply srv txn hterminated, hreply]
    rfl
  rw [wellRecorded_iff_leavesHeader unset houtput herror hfits,
    released_and_leavesHeader_iff unset hreply]
  unfold UnsetHarmless
  rw [Server.addJobToSession_session]
  rfl

/-- **What is enqueued.** A request that builds a reply, on a session that is not terminated,
leaves the record of its reply on `reply_jobs`, whatever `reply.message` held, if and only if what
a refusal leaves unset does no harm. -/
theorem recorded_iff {srv : Server} {txn : ClientTxn} (unset : UnsetFields)
    (hterminated : (srv.session txn.sessionId).isTerminated = false)
    (hbuilds : txn.request.buildsReply)
    (hfits : ∀ reply, (xdrDecodeEncode srv txn).2 = some (.message reply) →
      reply.encode.length ≤ 2044) :
    WellRecorded srv txn unset ↔ UnsetHarmless srv txn unset := by
  obtain ⟨reply, hreply, herror⟩ := dispatch_message (srv.addJobToSession txn) hbuilds
  refine wellRecorded_iff_unsetHarmless unset hterminated hreply herror (hfits reply ?_)
  rw [xdrDecodeEncode_reply srv txn hterminated, hreply]
  rfl

/-- `DATA_LISTEN` on a session that has not sent anything yet. -/
def dataListen (addrType : NdmpAddrType) : ClientTxn :=
  .receive 0 4 [] (.dataListen ⟨addrType⟩) default

/-- Zeros, but for the address in `ndmp_data_listen`. -/
def unsetAddr (addrType : NdmpAddrType) (commDataLen : UInt32) : UnsetFields where
  dataConnectionAddr := ⟨addrType, commDataLen⟩
  authType := 0
  hostname := .null
  osType := .null
  osVers := .null
  fsInfo := ⟨0, fun _ => none⟩
  fsInfoPaths := .null
  scsiInfo := ⟨0, fun _ => none⟩

theorem recorded_dataListen :
    WellRecorded (.start (.boot [])) (dataListen .addrTcp) (unsetAddr .addrIpc 5) ↔
      UnsetHarmless (.start (.boot [])) (dataListen .addrTcp) (unsetAddr .addrIpc 5) := by
  refine recorded_iff (unsetAddr .addrIpc 5) rfl rfl ?_
  intro reply hreply
  cases hreply
  decide

/-- A request for another address type is refused, and where memory holds an address of the last arm
with 2 ^ 32 - 24 bytes, the header has room for three words of six. -/
theorem not_recorded_dataListen :
    ¬ WellRecorded (.start (.boot [])) (dataListen .addrTcp) (unsetAddr .addrIpc (-24)) := by
  have hbuilds : (dataListen .addrTcp).request.buildsReply := rfl
  obtain ⟨reply, hreply, herror⟩ := dispatch_message
    ((Server.start (.boot [])).addJobToSession (dataListen .addrTcp)) hbuilds
  have hfits : reply.encode.length ≤ 2044 := by
    cases hreply
    decide
  rw [wellRecorded_iff_unsetHarmless _ rfl hreply herror hfits]
  rintro (⟨-, hlocal⟩ | hnot)
  · exact absurd hlocal (by decide)
  · exact hnot (by decide)

end GlfsNdmp
