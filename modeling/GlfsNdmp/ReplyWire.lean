import GlfsNdmp.ReplyStream
import GlfsNdmp.Wire

/-!
# Replies on the wire

The reply bodies of `ndmp.x` as they are encoded, and how many bytes that takes.

`fsInfo_exact_iff`: `CONFIG_GET_FS_INFO` puts its numbers into the low words of its quads and zeros
into the high ones, so a client reads them as they are if and only if the low words hold them.
-/

namespace GlfsNdmp

open Xdr

namespace Reply

/-! ## Strings -/

def charOf (b : UInt8) : Char := Char.ofNat b.toNat

def byteOf (c : Char) : UInt8 := UInt8.ofNat c.toNat

theorem byteOf_charOf (b : UInt8) : byteOf (charOf b) = b := by
  have hvalid : b.toNat.isValidChar := Or.inl (Nat.lt_trans b.toNat_lt (by decide))
  rw [byteOf, charOf, Char.ofNat, dif_pos hvalid]
  exact UInt8.ofNat_toNat

/-- `xdr_string` on what a `char *` points to. -/
def cstring : Codec CString :=
  Codec.string.retract (·.map charOf) (·.map byteOf) fun s => by
    rw [List.map_map]
    exact (List.map_congr_left fun b _ => byteOf_charOf b).trans (List.map_id s)

@[simp] theorem length_cstring (s : CString) :
    (cstring.encode s).length = 4 + Codec.padded s.length := by
  show (Codec.string.encode _).length = _
  rw [Codec.length_string, List.length_map]

/-! ## Structures -/

/-- `xdr_ndmp_pval`. -/
def ndmpPval : Codec NdmpPval :=
  (cstring.prod cstring).congr
    { toFun := fun ⟨name, value⟩ => ⟨name, value⟩
      invFun := fun ⟨name, value⟩ => ⟨name, value⟩
      left_inv := fun _ => rfl
      right_inv := fun _ => rfl }

/-- `xdr_ndmp_butype_info`. -/
def ndmpButypeInfo : Codec NdmpButypeInfo :=
  (cstring.prod <| (Codec.array ndmpPval).prod Codec.ulong).congr
    { toFun := fun ⟨butypeName, defaultEnv, attrs⟩ => ⟨butypeName, defaultEnv, attrs⟩
      invFun := fun ⟨butypeName, defaultEnv, attrs⟩ => ⟨butypeName, defaultEnv, attrs⟩
      left_inv := fun _ => rfl
      right_inv := fun _ => rfl }

/-- The five quads of `ndmp_fs_info`. -/
def fsQuads : Codec (NdmpUQuad × NdmpUQuad × NdmpUQuad × NdmpUQuad × NdmpUQuad) :=
  Wire.ndmpUQuad.prod <| Wire.ndmpUQuad.prod <| Wire.ndmpUQuad.prod <|
    Wire.ndmpUQuad.prod Wire.ndmpUQuad

/-- `xdr_ndmp_fs_info`. -/
def ndmpFsInfo : Codec NdmpFsInfo :=
  (Codec.ulong.prod <| cstring.prod <| cstring.prod <| cstring.prod <| fsQuads.prod <|
    (Codec.array ndmpPval).prod cstring).congr
    { toFun := fun ⟨invalid, fsType, logical, physical, ⟨total, used, avail, inodes, usedInodes⟩,
          fsEnv, fsStatus⟩ =>
        ⟨invalid, fsType, logical, physical, total, used, avail, inodes, usedInodes, fsEnv, fsStatus⟩
      invFun := fun ⟨invalid, fsType, logical, physical, total, used, avail, inodes, usedInodes,
          fsEnv, fsStatus⟩ =>
        ⟨invalid, fsType, logical, physical, ⟨total, used, avail, inodes, usedInodes⟩, fsEnv, fsStatus⟩
      left_inv := fun _ => rfl
      right_inv := fun _ => rfl }

/-- `xdr_ndmp_device_capability`. -/
def ndmpDeviceCapability : Codec NdmpDeviceCapability :=
  (cstring.prod <| Codec.ulong.prod (Codec.array ndmpPval)).congr
    { toFun := fun ⟨device, attr, capability⟩ => ⟨device, attr, capability⟩
      invFun := fun ⟨device, attr, capability⟩ => ⟨device, attr, capability⟩
      left_inv := fun _ => rfl
      right_inv := fun _ => rfl }

/-- `xdr_ndmp_device_info`. -/
def ndmpDeviceInfo : Codec NdmpDeviceInfo :=
  (cstring.prod (Codec.array ndmpDeviceCapability)).congr
    { toFun := fun ⟨model, caplist⟩ => ⟨model, caplist⟩
      invFun := fun ⟨model, caplist⟩ => ⟨model, caplist⟩
      left_inv := fun _ => rfl
      right_inv := fun _ => rfl }

/-- `xdr_ndmp_config_get_fs_info_reply`. -/
def ndmpConfigGetFsInfoReply : Codec (Int × List NdmpFsInfo) :=
  Codec.int.prod (Codec.array ndmpFsInfo)

end Reply

/-! ## Bodies -/

/-- The field `error` of a body that is sent. -/
def noErrWord : Bytes := Codec.int.encode NdmpError.noErr

/-- The fields behind the error. -/
def NdmpConfigReply.encode : NdmpConfigReply → Bytes
  | .hostInfo hostname osType osVers hostid =>
    Reply.cstring.encode hostname ++ Reply.cstring.encode osType ++ Reply.cstring.encode osVers ++
      Reply.cstring.encode hostid
  | .connectionType addrTypes => (Codec.array Codec.int).encode (addrTypes.map NdmpAddrType.code)
  -- `NDMP_AUTH_NONE`, whose arm is void
  | .authAttr authType => Codec.int.encode authType
  | .butypeInfo info => (Codec.array Reply.ndmpButypeInfo).encode info
  | .fsInfo info => (Codec.array Reply.ndmpFsInfo).encode info
  | .tapeInfo info | .scsiInfo info => (Codec.array Reply.ndmpDeviceInfo).encode info
  | .serverInfo vendorName productName revisionNumber authType =>
    Reply.cstring.encode vendorName ++ Reply.cstring.encode productName ++
      Reply.cstring.encode revisionNumber ++ (Codec.array Codec.int).encode authType

/-- The body of a reply; the notification of a connection has no field `error`. -/
def NdmpReplyBody.encode : NdmpReplyBody → Bytes
  | .connectOpen | .dataConnect | .dataStartBackup | .dataStartRecover | .dataAbort | .dataStop =>
    noErrWord
  -- `NDMP_ADDR_LOCAL`, whose arm is void
  | .dataListen addrType => noErrWord ++ Codec.int.encode addrType
  | .dataGetEnv env => noErrWord ++ (Codec.array Reply.ndmpPval).encode env
  | .config reply => noErrWord ++ reply.encode
  | .notifyConnected reason protocolVersion textReason =>
    Codec.int.encode reason ++ Codec.ushort.encode protocolVersion ++
      Reply.cstring.encode textReason

/-- `xdr_ndmp_header`, and the body if there is one. -/
def NdmpReply.encode (reply : NdmpReply) : Bytes :=
  Wire.header.encode reply.header ++ (reply.body.map NdmpReplyBody.encode).getD []

@[simp] theorem length_noErrWord : noErrWord.length = 4 := rfl

@[simp] theorem length_header (header : NdmpHeader) : (Wire.header.encode header).length = 24 :=
  rfl

/-- A reply without a body is the header. -/
theorem length_encode_of_body {reply : NdmpReply} (h : reply.body = none) :
    reply.encode.length = 24 := by
  rw [NdmpReply.encode, h, List.length_append, length_header]
  rfl

/-! ## Sizes -/

@[simp] theorem length_ndmpPval (p : NdmpPval) :
    (Reply.ndmpPval.encode p).length =
      8 + Codec.padded p.name.length + Codec.padded p.value.length := by
  show ((Reply.cstring.prod Reply.cstring).encode (p.name, p.value)).length = _
  rw [Codec.length_prod, Reply.length_cstring, Reply.length_cstring]
  show 4 + Codec.padded p.name.length + (4 + Codec.padded p.value.length) = _
  omega

/-- The bytes of a list of pairs, without their number. -/
def pairsSize (pairs : List NdmpPval) : Nat :=
  (pairs.map fun p => 8 + Codec.padded p.name.length + Codec.padded p.value.length).sum

@[simp] theorem length_pairs (pairs : List NdmpPval) :
    ((Codec.array Reply.ndmpPval).encode pairs).length = 4 + pairsSize pairs := by
  rw [Codec.length_array]
  simp only [length_ndmpPval, pairsSize]

/-! ## The file system -/

/-- The number a quad stands for. -/
def NdmpUQuad.value (q : NdmpUQuad) : Nat := q.high * 2 ^ 32 + q.low

/-- A quad as it is read: of each word, the encoder takes what four bytes hold. -/
def NdmpUQuad.sent (q : NdmpUQuad) : NdmpUQuad := ⟨q.high % 2 ^ 32, q.low % 2 ^ 32⟩

/-- `ndmp_fs_info` as it is read. -/
def NdmpFsInfo.sent (info : NdmpFsInfo) : NdmpFsInfo :=
  { info with
    totalSize := info.totalSize.sent
    usedSize := info.usedSize.sent
    availSize := info.availSize.sent
    totalInodes := info.totalInodes.sent
    usedInodes := info.usedInodes.sent }

/-- The quads say what `statvfs` has said, in units of 1024 bytes, and no part exceeds the whole. -/
structure NdmpFsInfo.Reports (info : NdmpFsInfo) (st : Statvfs) : Prop where
  totalSize : info.totalSize.value = st.fBlocks * st.fFrsize / 1024
  availSize : info.availSize.value = st.fBavail * st.fFrsize / 1024
  usedSize : (info.usedSize.value : Int) =
    (info.totalSize.value : Int) - (st.fBfree * st.fFrsize / 1024 : Nat)
  totalInodes : info.totalInodes.value = st.fFiles
  usedInodes : (info.usedInodes.value : Int) = (st.fFiles : Int) - st.fFfree
  used_le : info.usedSize.value ≤ info.totalSize.value
  avail_le : info.availSize.value ≤ info.totalSize.value
  usedInodes_le : info.usedInodes.value ≤ info.totalInodes.value

/-- The reply is read from the wire behind its header, and reports the file system. -/
def FsInfoExact (srv : Server) (txn : ClientTxn) (st : Statvfs) : Prop :=
  ∃ reply info, (srv.dispatch txn).2 = .message reply ∧
    Reply.ndmpConfigGetFsInfoReply.decode (reply.encode.drop 24) =
      some ((NdmpError.noErr.code, [info]), []) ∧ info.Reports st

/-- What `ndmp_config_get_fs_info` makes of the result of `statvfs`. -/
def fsInfoOf (st : Statvfs) : NdmpFsInfo where
  invalid := 0
  fsType := "glusterfs".toList
  fsLogicalDevice := fsMount
  fsPhysicalDevice := fsMount
  totalSize := ⟨0, kilobytes st.fBlocks st.fFrsize⟩
  usedSize := ⟨0, ulong (kilobytes st.fBlocks st.fFrsize - kilobytes st.fBfree st.fFrsize)⟩
  availSize := ⟨0, kilobytes st.fBavail st.fFrsize⟩
  totalInodes := ⟨0, st.fFiles⟩
  usedInodes := ⟨0, ulong (st.fFiles - st.fFfree)⟩
  fsEnv := []
  fsStatus := "up".toList

theorem ndmpConfigGetFsInfo_eq {os : ConfigAnswers} {st : Statvfs} (h : os.statvfs = some st) :
    ndmpConfigGetFsInfo os = .ok (.fsInfo [fsInfoOf st]) := by
  rw [ndmpConfigGetFsInfo, h]
  rfl

theorem NdmpUQuad.encode_sent (q : NdmpUQuad) :
    Wire.ndmpUQuad.encode q.sent = Wire.ndmpUQuad.encode q := by
  show putLong (q.high % 2 ^ 32) ++ putLong (q.low % 2 ^ 32) = _
  rw [putLong_mod, putLong_mod]
  rfl

theorem NdmpFsInfo.encode_sent (info : NdmpFsInfo) :
    Reply.ndmpFsInfo.encode info.sent = Reply.ndmpFsInfo.encode info := by
  have hencode (info : NdmpFsInfo) : Reply.ndmpFsInfo.encode info =
      putLong info.invalid ++ (Reply.cstring.encode info.fsType ++
        (Reply.cstring.encode info.fsLogicalDevice ++
          (Reply.cstring.encode info.fsPhysicalDevice ++
            ((Wire.ndmpUQuad.encode info.totalSize ++ (Wire.ndmpUQuad.encode info.usedSize ++
              (Wire.ndmpUQuad.encode info.availSize ++ (Wire.ndmpUQuad.encode info.totalInodes ++
                Wire.ndmpUQuad.encode info.usedInodes)))) ++
              ((Codec.array Reply.ndmpPval).encode info.fsEnv ++
                Reply.cstring.encode info.fsStatus))))) := rfl
  rw [hencode, hencode]
  simp only [sent, NdmpUQuad.encode_sent]

/-- What is read is valid: the words of the quads are words. -/
theorem valid_sent_fsInfoOf (st : Statvfs) : Reply.ndmpFsInfo.Valid (fsInfoOf st).sent := by
  have hword (n : Nat) : n % 2 ^ 32 < 2 ^ 32 := Nat.mod_lt _ (by decide)
  have hquad (q : NdmpUQuad) : Wire.ndmpUQuad.Valid q.sent := ⟨hword _, hword _⟩
  have hstring : ∀ s ∈ ["glusterfs".toList, fsMount, "up".toList], Reply.cstring.Valid s := by
    simp only [Reply.cstring, Codec.retract, Codec.string]
    decide
  have hzero : Codec.ulong.Valid 0 := Nat.two_pow_pos 32
  have hnone : (Codec.array Reply.ndmpPval).Valid [] := ⟨Nat.two_pow_pos 32, by simp⟩
  simp only [List.forall_mem_cons] at hstring
  obtain ⟨htype, hdevice, hstatus, -⟩ := hstring
  exact ⟨hzero, htype, hdevice, hdevice, ⟨hquad _, hquad _, hquad _, hquad _, hquad _⟩, hnone,
    hstatus⟩

/-- What a client reads behind the header. -/
theorem decode_fsInfo (st : Statvfs) :
    Reply.ndmpConfigGetFsInfoReply.decode
        (NdmpReplyBody.config (.fsInfo [fsInfoOf st])).encode =
      some ((NdmpError.noErr.code, [(fsInfoOf st).sent]), []) := by
  have hbytes : (NdmpReplyBody.config (.fsInfo [fsInfoOf st])).encode =
      Reply.ndmpConfigGetFsInfoReply.encode (NdmpError.noErr.code, [(fsInfoOf st).sent]) := by
    show noErrWord ++ (putLong 1 ++ List.flatMap _ [_]) =
      noErrWord ++ (putLong 1 ++ List.flatMap _ [_])
    rw [List.flatMap_singleton, List.flatMap_singleton, NdmpFsInfo.encode_sent]
  have hvalid : Reply.ndmpConfigGetFsInfoReply.Valid
      (NdmpError.noErr.code, [(fsInfoOf st).sent]) := by
    have herror : Codec.int.Valid NdmpError.noErr.code := by
      show -2 ^ 31 ≤ (0 : Int) ∧ (0 : Int) < 2 ^ 31
      decide
    refine ⟨herror, Nat.one_lt_two_pow (by decide), ?_⟩
    intro info hinfo
    rw [List.mem_singleton.1 hinfo]
    exact valid_sent_fsInfoOf st
  rw [hbytes, ← List.append_nil (Reply.ndmpConfigGetFsInfoReply.encode _)]
  exact Reply.ndmpConfigGetFsInfoReply.decode_encode hvalid []

theorem ulong_of_lt {n : Nat} (h : n < 2 ^ 64) : ulong n = n := by
  rw [ulong, BitVec.toNat_ofInt]
  omega

/-- The numbers `statvfs` may give. -/
structure Statvfs.Consistent (st : Statvfs) : Prop where
  avail_le : st.fBavail ≤ st.fBfree
  bfree_le : st.fBfree ≤ st.fBlocks
  ffree_le : st.fFfree ≤ st.fFiles
  size_lt : st.fBlocks * st.fFrsize < 2 ^ 64

section
variable {st : Statvfs} (h : st.Consistent)
include h

/-- No product wraps around. -/
theorem kilobytes_of_le {blocks : Nat} (hblocks : blocks ≤ st.fBlocks) :
    kilobytes blocks st.fFrsize = blocks * st.fFrsize / 1024 := by
  have hle : blocks * st.fFrsize ≤ st.fBlocks * st.fFrsize := Nat.mul_le_mul_right _ hblocks
  have hlt : blocks * st.fFrsize < 2 ^ 64 := Nat.lt_of_le_of_lt hle h.size_lt
  rw [kilobytes]
  exact congrArg (· / 1024) (ulong_of_lt hlt)

/-- The numbers in the reply, before they are encoded. -/
theorem fsInfoOf_low :
    (fsInfoOf st).totalSize.low = st.fBlocks * st.fFrsize / 1024 ∧
      (fsInfoOf st).availSize.low = st.fBavail * st.fFrsize / 1024 ∧
      (fsInfoOf st).usedSize.low =
        st.fBlocks * st.fFrsize / 1024 - st.fBfree * st.fFrsize / 1024 := by
  have hfree : st.fBfree * st.fFrsize / 1024 ≤ st.fBlocks * st.fFrsize / 1024 :=
    Nat.div_le_div_right (Nat.mul_le_mul_right _ h.bfree_le)
  have hsize := h.size_lt
  refine ⟨kilobytes_of_le h (Nat.le_refl _),
    kilobytes_of_le h (Nat.le_trans h.avail_le h.bfree_le), ?_⟩
  show ulong (kilobytes _ _ - kilobytes _ _) = _
  rw [kilobytes_of_le h (Nat.le_refl _), kilobytes_of_le h h.bfree_le, ← Int.ofNat_sub hfree]
  exact ulong_of_lt (by omega)

theorem avail_kilobytes_le :
    st.fBavail * st.fFrsize / 1024 ≤ st.fBlocks * st.fFrsize / 1024 :=
  Nat.div_le_div_right (Nat.mul_le_mul_right _ (Nat.le_trans h.avail_le h.bfree_le))

/-- The quads that are read say what `statvfs` said if and only if the two wholes fit a word; the
parts are no greater. -/
theorem sent_reports_iff :
    (fsInfoOf st).sent.Reports st ↔
      st.fBlocks * st.fFrsize / 1024 < 2 ^ 32 ∧ st.fFiles < 2 ^ 32 := by
  obtain ⟨htotal, havail, hused⟩ := fsInfoOf_low h
  have hvalue (low : Nat) : (NdmpUQuad.mk 0 low).sent.value = low % 2 ^ 32 := by
    simp [NdmpUQuad.sent, NdmpUQuad.value]
  have htotal' : (fsInfoOf st).sent.totalSize.value =
      st.fBlocks * st.fFrsize / 1024 % 2 ^ 32 := (hvalue _).trans (congrArg (· % 2 ^ 32) htotal)
  have havail' : (fsInfoOf st).sent.availSize.value =
      st.fBavail * st.fFrsize / 1024 % 2 ^ 32 := (hvalue _).trans (congrArg (· % 2 ^ 32) havail)
  have hused' : (fsInfoOf st).sent.usedSize.value =
      (st.fBlocks * st.fFrsize / 1024 - st.fBfree * st.fFrsize / 1024) % 2 ^ 32 :=
    (hvalue _).trans (congrArg (· % 2 ^ 32) hused)
  have hinodes : (fsInfoOf st).sent.totalInodes.value = st.fFiles % 2 ^ 32 := hvalue _
  constructor
  · intro hreports
    have hsize := htotal'.symm.trans hreports.totalSize
    have hfiles := hinodes.symm.trans hreports.totalInodes
    exact ⟨hsize ▸ Nat.mod_lt _ (Nat.two_pow_pos 32), hfiles ▸ Nat.mod_lt _ (Nat.two_pow_pos 32)⟩
  · rintro ⟨hsize, hfiles⟩
    have hle := avail_kilobytes_le h
    have hfree : st.fBfree * st.fFrsize / 1024 ≤ st.fBlocks * st.fFrsize / 1024 :=
      Nat.div_le_div_right (Nat.mul_le_mul_right _ h.bfree_le)
    have hffree := h.ffree_le
    have husedInodes : (fsInfoOf st).sent.usedInodes.value = st.fFiles - st.fFfree := by
      refine (hvalue _).trans ?_
      rw [← Int.ofNat_sub hffree, ulong_of_lt (by omega)]
      omega
    constructor <;> omega

end

/-- Whether the reply is exact is decided by the quads that are read. -/
theorem fsInfoExact_iff_sent {srv : Server} {txn : ClientTxn} {st : Statvfs}
    (hrequest : txn.request = .config .getFsInfo) (hst : txn.answers.config.statvfs = some st) :
    FsInfoExact srv txn st ↔ (fsInfoOf st).sent.Reports st := by
  have hdispatch : (srv.dispatch txn).2 = (srv.reply txn NdmpError.noErr
      (.config (.fsInfo [fsInfoOf st]))).2 := by
    simp only [Server.dispatch, hrequest, ndmpConfig, ndmpConfigGetFsInfo_eq hst]
  rw [FsInfoExact, hdispatch]
  constructor
  · rintro ⟨reply, info, hreply, hdecode, hreports⟩
    cases hreply
    rw [NdmpReply.encode, List.drop_left' (length_header _)] at hdecode
    have hread := hdecode.symm.trans (decode_fsInfo st)
    simp only [Option.some.injEq, Prod.mk.injEq, List.cons.injEq, and_true, true_and] at hread
    exact hread ▸ hreports
  · intro hreports
    refine ⟨_, _, rfl, ?_, hreports⟩
    rw [NdmpReply.encode, List.drop_left' (length_header _)]
    exact decode_fsInfo st

/-- **The sizes in `CONFIG_GET_FS_INFO`.** For a consistent result of `statvfs`, a client reads the
sizes and the numbers of inodes as they are if and only if the size in kilobytes and the number of
inodes fit 32 bits. -/
theorem fsInfo_exact_iff {srv : Server} {txn : ClientTxn} {st : Statvfs}
    (hrequest : txn.request = .config .getFsInfo) (hst : txn.answers.config.statvfs = some st)
    (h : st.Consistent) :
    FsInfoExact srv txn st ↔
      st.fBlocks * st.fFrsize / 1024 < 2 ^ 32 ∧ st.fFiles < 2 ^ 32 :=
  (fsInfoExact_iff_sent hrequest hst).trans (sent_reports_iff h)

/-- `CONFIG_GET_FS_INFO` on a machine with a given file system. -/
def getFsInfo (st : Statvfs) : ClientTxn :=
  .receive 0 4 [] (.config .getFsInfo)
    { (default : Answers) with config := { (default : ConfigAnswers) with statvfs := some st } }

/-- A terabyte, half of it free. -/
def terabyte : Statvfs := ⟨4096, 2 ^ 28, 2 ^ 27, 2 ^ 27 - 2 ^ 20, 2 ^ 26, 2 ^ 25⟩

theorem fsInfo_exact_terabyte :
    FsInfoExact (.start (.boot [])) (getFsInfo terabyte) terabyte ↔
      2 ^ 28 * 4096 / 1024 < 2 ^ 32 ∧ 2 ^ 26 < 2 ^ 32 :=
  fsInfo_exact_iff rfl rfl ⟨by decide, by decide, by decide, by decide⟩

/-- Four terabytes, half of them free. -/
def fourTerabytes : Statvfs := ⟨4096, 2 ^ 30, 2 ^ 29, 2 ^ 29 - 2 ^ 20, 2 ^ 26, 2 ^ 25⟩

/-- Its size is read as 0, and half of it is used. -/
theorem not_fsInfoExact_fourTerabytes :
    fourTerabytes.Consistent ∧ (fsInfoOf fourTerabytes).sent.totalSize.value = 0 ∧
      (fsInfoOf fourTerabytes).sent.usedSize.value = 2 ^ 31 ∧
      ¬ FsInfoExact (.start (.boot [])) (getFsInfo fourTerabytes) fourTerabytes := by
  have hconsistent : fourTerabytes.Consistent := ⟨by decide, by decide, by decide, by decide⟩
  refine ⟨hconsistent, by decide, by decide, ?_⟩
  rw [fsInfoExact_iff_sent rfl rfl, sent_reports_iff hconsistent]
  decide

end GlfsNdmp
