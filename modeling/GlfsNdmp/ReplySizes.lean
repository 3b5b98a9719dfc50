import GlfsNdmp.Decoding
import GlfsNdmp.Environment
import GlfsNdmp.ReplyWire
import Mathlib.Algebra.Order.BigOperators.Group.List
import Mathlib.Algebra.Order.Ring.Nat

/-!
# The size of replies

A reply is encoded into `reply.message`, and `xdr_decode_encode` puts its mark in front of it in the
same array. Nobody compares its size with that of the array.

* `getEnv_fits`: in any run, the reply to `DATA_GET_ENV` fits, since the pairs in it came in a
  message of the same size.
* `scsiInfo_fits_iff`: the reply to `CONFIG_GET_SCSI_INFO` fits if and only if the strings of the
  devices, rounded up to words, leave room for what goes with them.
-/

namespace GlfsNdmp

open Xdr

/-- `MAX_MESSAGE_SIZE`. -/
def maxMessageSize : Nat := 2048

/-- A reply, with its mark, is inside `reply.message`. -/
def NdmpReply.Fits (reply : NdmpReply) : Prop := (frame reply.encode).length ≤ maxMessageSize

theorem length_frame (reply : Bytes) : (frame reply).length = 4 + reply.length := by
  rw [frame, List.length_append]
  rfl

/-! ## The environment -/

/-- A `DATA_START_BACKUP` that came in one buffer, and could be decoded. -/
def ArrivedWhole (txn : ClientTxn) : Prop :=
  txn.request.handler = .ndmpDataStartBackup →
    ∃ (recv : Received) (arrival : Arrival), recv.Complete ∧ txn = recv.txn arrival

/-- The pairs fit a reply. -/
def Server.EnvironmentFits (srv : Server) : Prop := pairsSize srv.environment ≤ 2012

/-- Of a decoded string, the terminating zero may cut something off. -/
theorem length_cString_le (s : Bytes) : (cString s).length ≤ s.length := by
  rw [cString, List.length_map]
  exact (List.takeWhile_sublist _).length_le

theorem pairsSize_toPval_le (env : List Wire.NdmpPval) :
    pairsSize (env.map Wire.NdmpPval.toPval) + 4 ≤
      ((Codec.array Wire.ndmpPval).encode env).length := by
  rw [Codec.length_array, pairsSize, List.map_map, Nat.add_comm]
  refine Nat.add_le_add_left (List.sum_le_sum fun p _ => ?_) 4
  have hname := Codec.padded_mono (length_cString_le p.name)
  have hvalue := Codec.padded_mono (length_cString_le p.value)
  have hlength : (Wire.ndmpPval.encode p).length =
      4 + Codec.padded p.name.length + (4 + Codec.padded p.value.length) := by
    rw [← Codec.length_string, ← Codec.length_string]
    exact List.length_append
  rw [hlength]
  show 8 + Codec.padded (cString p.name).length + Codec.padded (cString p.value).length ≤ _
  omega

/-- The pairs of a backup leave at least a word for its type, and one for their number. -/
theorem pairsSize_toRequest_le {handler : NdmpMessageHandler} {body : Wire.Body handler}
    {request : NdmpDataStartBackupRequest}
    (h : toRequest handler body = .dataStartBackup request) :
    pairsSize request.env + 8 ≤ ((Wire.body handler).encode body).length := by
  have hhandler : handler = .ndmpDataStartBackup := by
    rw [← toRequest_handler handler body, h]
    rfl
  subst hhandler
  obtain ⟨buType, env⟩ := body
  cases h
  have htype := Codec.four_le_length_string buType
  have henv := pairsSize_toPval_le env
  show _ ≤ (Codec.string.encode buType ++ (Codec.array Wire.ndmpPval).encode env).length
  rw [List.length_append]
  show pairsSize (env.map Wire.NdmpPval.toPval) + 8 ≤ _
  omega

theorem seenRequest_of_decode (memory : Memory) {handler : NdmpMessageHandler}
    {stream rest : Bytes} {body : Wire.Body handler}
    (h : (Wire.body handler).decode stream = some (body, rest)) :
    seenRequest memory handler stream = toRequest handler body := by
  unfold seenRequest
  split
  · rename_i hsome
    cases h.symm.trans hsome
    rfl
  · rename_i hnone
    cases h.symm.trans hnone

/-- What the handler of a complete request sees is what was sent. -/
theorem Received.txn_of_complete {recv : Received} (h : recv.Complete) (arrival : Arrival) :
    ∃ (request : Wire.Request) (rest : Bytes),
      Wire.Request.decode (recv.bytes.drop 4) = some (request, rest) ∧
        (recv.txn arrival).request = toRequest _ request.body := by
  obtain ⟨⟨request, rest⟩, hdecode⟩ := Option.isSome_iff_exists.1 h
  refine ⟨request, rest, hdecode, ?_⟩
  have hlength := Wire.Request.length_of_decode hdecode
  have hheader : 24 ≤ request.encode.length := by
    rw [Wire.Request.encode, List.length_append, length_header]
    exact Nat.le_add_right _ _
  have hbytes : 28 ≤ recv.bytes.length := by
    rw [List.length_drop] at hlength
    omega
  have hle : 4 ≤ recv.length := by
    by_contra hlt
    have hshort := Received.bytes_length_of_lt (Int.not_le.1 hlt)
    omega
  have hlong : 24 ≤ (recv.bytes.drop 4).length := by omega
  have hfound := xdrNdmpHeader_of_le arrival.memory.header hlong
  have hrest : (xdrNdmpHeader arrival.memory.header (recv.bytes.drop 4)).2.2 =
      (recv.bytes.drop 4).drop 24 := by
    rcases xdrNdmpHeader_rest arrival.memory.header (recv.bytes.drop 4) with ⟨hlt, -⟩ | ⟨-, hrest⟩
    · omega
    · exact hrest
  rw [Received.txn_request hle, hrest]
  rw [Wire.Request.decode, hfound] at hdecode
  simp only [Option.bind_eq_bind, Option.bind_some, Option.bind_eq_some_iff, Option.some.injEq,
    Prod.exists, Prod.mk.injEq] at hdecode
  obtain ⟨body, rest', hbody, rfl, rfl⟩ := hdecode
  exact seenRequest_of_decode arrival.memory hbody

/-- The pairs, their number, an empty type, the header and the mark came in 2048 bytes. -/
theorem ArrivedWhole.pairsSize_le {txn : ClientTxn} (h : ArrivedWhole txn)
    {request : NdmpDataStartBackupRequest} (hrequest : txn.request = .dataStartBackup request) :
    pairsSize request.env ≤ 2012 := by
  obtain ⟨recv, arrival, hcomplete, rfl⟩ := h (by rw [hrequest]; rfl)
  obtain ⟨sent, rest, hdecode, hseen⟩ := Received.txn_of_complete hcomplete arrival
  have hpairs := pairsSize_toRequest_le (hseen.symm.trans hrequest)
  have hlength := Wire.Request.length_of_decode hdecode
  have hsize := recv.size
  rw [Wire.Request.encode, List.length_append, length_header, List.length_drop] at hlength
  omega

theorem xdrDecodeEncode_environmentFits (srv : Server) (txn : ClientTxn) (htxn : ArrivedWhole txn)
    (h : srv.EnvironmentFits) : (xdrDecodeEncode srv txn).1.EnvironmentFits := by
  unfold Server.EnvironmentFits
  rw [xdrDecodeEncode_environment]
  unfold environmentEffect environmentAfterStop
  split
  · rename_i request hrequest
    exact htxn.pairsSize_le hrequest
  · split
    · exact Nat.zero_le _
    · exact h
  · exact h

/-- The reply to `DATA_GET_ENV`. -/
theorem dispatch_getEnv_fits {srv : Server} (h : srv.EnvironmentFits) {txn : ClientTxn}
    (hget : txn.request.isGetEnv) :
    ∃ reply, (srv.dispatch txn).2 = .message reply ∧ reply.Fits := by
  unfold Server.dispatch
  cases hrequest : txn.request with
  | dataGetEnv =>
    simp only [ndmpDataGetEnv_eq]
    refine ⟨_, rfl, ?_⟩
    unfold Server.EnvironmentFits at h
    rw [NdmpReply.Fits, length_frame, NdmpReply.encode, List.length_append, length_header]
    show 4 + (24 + (noErrWord ++ (Codec.array Reply.ndmpPval).encode srv.environment).length) ≤ 2048
    rw [List.length_append, length_noErrWord, length_pairs]
    omega
  | _ =>
    rw [hrequest] at hget
    cases hget

/-- **The reply to `DATA_GET_ENV`.** In every run in which each `DATA_START_BACKUP` came in one
buffer and was decoded, the environment is returned in a reply that fits. -/
theorem getEnv_fits (w : World) {txns : List ClientTxn} (h : ∀ txn ∈ txns, ArrivedWhole txn)
    {e : ServerEvent} (he : e ∈ Mealy.trace xdrDecodeEncode (.start w) txns)
    (hget : e.input.request.isGetEnv) :
    ∃ reply, e.output = some (.message reply) ∧ reply.Fits := by
  have hstart : (Server.start w).EnvironmentFits := Nat.zero_le _
  have hfits := Mealy.event_invariant_of_mem xdrDecodeEncode xdrDecodeEncode_environmentFits hstart
    h he
  obtain ⟨hterm, heq⟩ := eventOf_of_mem_trace (Server.noneTerminated_start w) he
  have hjob : (e.before.addJobToSession e.input).EnvironmentFits := hfits
  obtain ⟨reply, hreply, hsize⟩ := dispatch_getEnv_fits hjob hget
  refine ⟨reply, ?_, hsize⟩
  rw [heq]
  show (xdrDecodeEncode e.before e.input).2 = _
  rw [xdrDecodeEncode_reply _ _ (hterm _), hreply]
  rfl

/-- A backup in the format `tar` for the user `eve`. -/
def startBackup : Received :=
  ⟨recordMark 52 ++ Wire.header.encode ⟨1, 0, 0, 0x401, 0, 0⟩ ++
      Wire.ndmpDataStartBackupRequest.encode
        ⟨[0x74, 0x61, 0x72], [⟨[0x55, 0x53, 0x45, 0x52], [0x65, 0x76, 0x65]⟩]⟩,
    false, by decide, by decide⟩

/-- The backup, and what is asked for afterwards. -/
def backupAsked (arrival : Arrival) : List ClientTxn :=
  [startBackup.txn arrival, .receive 1 4 [] .dataGetEnv default]

theorem startBackup_complete : startBackup.Complete := by
  unfold Received.Complete
  decide +kernel

theorem getEnv_fits_backupAsked : ∃ (arrival : Arrival) (e : ServerEvent),
    e ∈ Mealy.trace xdrDecodeEncode (.start (.boot [])) (backupAsked arrival) ∧
      ∃ reply, e.output = some (.message reply) ∧ reply.Fits := by
  obtain ⟨memory, -⟩ := exists_memory default .errorMessage default
  let arrival : Arrival := ⟨0, 4, [], memory, default⟩
  have hmem : eventOf (xdrDecodeEncode (.start (.boot [])) (startBackup.txn arrival)).1
      (.receive 1 4 [] .dataGetEnv default) ∈
      Mealy.trace xdrDecodeEncode (.start (.boot [])) (backupAsked arrival) :=
    List.mem_cons_of_mem _ List.mem_cons_self
  have harrived : ∀ txn ∈ backupAsked arrival, ArrivedWhole txn := by
    intro txn htxn
    rcases List.mem_cons.1 htxn with rfl | htxn
    · exact fun _ => ⟨startBackup, _, startBackup_complete, rfl⟩
    · rw [List.mem_singleton.1 htxn]
      rintro ⟨⟩
  exact ⟨arrival, _, hmem, getEnv_fits (.boot []) harrived hmem rfl⟩

/-! ## The SCSI devices -/

/-- A device as `alloc_scsi_info` makes room for it: one capability, sixteen properties, and 32
bytes for each string. -/
structure ScsiDevice where
  model : CString
  device : CString
  attr : Nat
  properties : List NdmpPval
  properties_le : properties.length ≤ 16
  model_lt : model.length < 32
  device_lt : device.length < 32
  strings_lt : ∀ p ∈ properties, p.name.length < 32 ∧ p.value.length < 32

/-- `struct ndmp_device_info`, with its only capability. -/
def ScsiDevice.info (d : ScsiDevice) : NdmpDeviceInfo :=
  ⟨d.model, [⟨d.device, d.attr, d.properties⟩]⟩

/-- The devices, of which there are 32 at most. -/
structure ScsiDevices where
  devices : List ScsiDevice
  devices_le : devices.length ≤ 32

def ScsiDevices.infos (scsi : ScsiDevices) : List NdmpDeviceInfo := scsi.devices.map ScsiDevice.info

/-- The bytes of a device: five words, and the strings of the device and its properties. -/
def ScsiDevice.size (d : ScsiDevice) : Nat :=
  20 + Codec.padded d.model.length + Codec.padded d.device.length + pairsSize d.properties

theorem ScsiDevice.length_encode (d : ScsiDevice) :
    (Reply.ndmpDeviceInfo.encode d.info).length = d.size := by
  have hcapability : (Reply.ndmpDeviceCapability.encode ⟨d.device, d.attr, d.properties⟩).length =
      (4 + Codec.padded d.device.length) + (4 + (4 + pairsSize d.properties)) := by
    rw [← Reply.length_cstring, ← length_pairs]
    show (Reply.cstring.encode d.device ++ (putLong d.attr ++
      (Codec.array Reply.ndmpPval).encode d.properties)).length = _
    rw [List.length_append, List.length_append, length_putLong]
  have hmodel : (Reply.ndmpDeviceInfo.encode d.info).length = (4 + Codec.padded d.model.length) +
      ((Codec.array Reply.ndmpDeviceCapability).encode
        [⟨d.device, d.attr, d.properties⟩]).length := by
    rw [← Reply.length_cstring]
    exact List.length_append
  rw [hmodel, Codec.length_array, List.map_singleton, List.sum_singleton, hcapability,
    ScsiDevice.size]
  omega

theorem ScsiDevices.length_encode (scsi : ScsiDevices) :
    ((Codec.array Reply.ndmpDeviceInfo).encode scsi.infos).length =
      4 + (scsi.devices.map ScsiDevice.size).sum := by
  rw [Codec.length_array, ScsiDevices.infos, List.map_map]
  congr 2
  exact List.map_congr_left fun d _ => d.length_encode

theorem fits_of_body_eq_none {reply : NdmpReply} (h : reply.body = none) : reply.Fits := by
  rw [NdmpReply.Fits, length_frame, length_encode_of_body h]
  decide

/-- The reply with devices: the mark, the header, the error and the number of the devices take 36
bytes. -/
theorem fits_scsiInfo_iff (header : NdmpHeader) (scsi : ScsiDevices) :
    NdmpReply.Fits ⟨header, some (.config (.scsiInfo scsi.infos))⟩ ↔
      (scsi.devices.map ScsiDevice.size).sum ≤ 2012 := by
  have hbody : (NdmpReplyBody.config (.scsiInfo scsi.infos)).encode.length =
      8 + (scsi.devices.map ScsiDevice.size).sum := by
    show (noErrWord ++ (Codec.array Reply.ndmpDeviceInfo).encode scsi.infos).length = _
    rw [List.length_append, length_noErrWord, ScsiDevices.length_encode]
    omega
  rw [NdmpReply.Fits, length_frame, NdmpReply.encode, List.length_append, length_header]
  show 4 + (24 + (NdmpReplyBody.config (.scsiInfo scsi.infos)).encode.length) ≤ 2048 ↔ _
  rw [hbody]
  omega

/-- A request is answered by a reply that fits. -/
def AnsweredWithin (srv : Server) (txn : ClientTxn) : Prop :=
  ∃ reply, (srv.dispatch txn).2 = .message reply ∧ reply.Fits

/-- If there is a device, the devices are sent. -/
theorem dispatch_scsiInfo (srv : Server) {txn : ClientTxn} {scsi : ScsiDevices}
    (hrequest : txn.request = .config .getScsiInfo)
    (hscsi : txn.answers.config.scsiInfo = scsi.infos) (hpos : 0 < scsi.devices.length) :
    ∃ header, (srv.dispatch txn).2 = .message ⟨header, some (.config (.scsiInfo scsi.infos))⟩ := by
  have hlength : 0 < scsi.infos.length := by rwa [ScsiDevices.infos, List.length_map]
  unfold Server.dispatch
  rw [hrequest]
  simp only [ndmpConfig, ndmpConfigGetScsiInfo, hscsi, if_pos hlength]
  exact ⟨_, rfl⟩

/-- **The reply to `CONFIG_GET_SCSI_INFO`.** For any devices within the limits of
`alloc_scsi_info`, it fits if and only if their bytes come to 2012 at most. -/
theorem scsiInfo_fits_iff (srv : Server) {txn : ClientTxn} {scsi : ScsiDevices}
    (hrequest : txn.request = .config .getScsiInfo)
    (hscsi : txn.answers.config.scsiInfo = scsi.infos) :
    AnsweredWithin srv txn ↔ (scsi.devices.map ScsiDevice.size).sum ≤ 2012 := by
  by_cases hpos : 0 < scsi.devices.length
  · obtain ⟨header, hdispatch⟩ := dispatch_scsiInfo srv hrequest hscsi hpos
    rw [AnsweredWithin, hdispatch, ← fits_scsiInfo_iff header scsi]
    constructor
    · rintro ⟨reply, hreply, hfits⟩
      cases hreply
      exact hfits
    · intro hfits
      exact ⟨_, rfl, hfits⟩
  · have hnil : scsi.devices = [] := List.length_eq_zero_iff.1 (by omega)
    have hnone : ¬ txn.answers.config.scsiInfo.length > 0 := by
      rw [hscsi, ScsiDevices.infos, hnil]
      decide
    rw [AnsweredWithin, Server.dispatch, hrequest]
    simp only [ndmpConfig, ndmpConfigGetScsiInfo, if_neg hnone]
    refine iff_of_true ⟨_, rfl, fits_of_body_eq_none rfl⟩ ?_
    rw [hnil]
    decide

/-- What the kernel says about a hard disk. -/
def hardDisk : ScsiDevice where
  model := "ST1000DM003-1ER1".toList
  device := "Direct-Access".toList
  attr := 8
  properties :=
    [⟨"Host:".toList, "scsi0".toList⟩, ⟨"Channel:".toList, "00".toList⟩,
      ⟨"Id:".toList, "00".toList⟩, ⟨"Lun:".toList, "00".toList⟩,
      ⟨"Vendor:".toList, "ATA".toList⟩, ⟨"Model:".toList, "ST1000DM003-1ER1".toList⟩,
      ⟨"Rev:".toList, "CC45".toList⟩, ⟨"Type:".toList, "Direct-Access".toList⟩,
      ⟨"ANSI SCSI revision:".toList, "05".toList⟩]
  properties_le := by decide
  model_lt := by decide
  device_lt := by decide
  strings_lt := by decide

def hardDisks (n : Nat) (h : n ≤ 32) : ScsiDevices where
  devices := List.replicate n hardDisk
  devices_le := by rwa [List.length_replicate]

/-- `CONFIG_GET_SCSI_INFO` on a machine with given devices. -/
def scsiInfoRequest (scsi : ScsiDevices) : ClientTxn :=
  .receive 0 4 [] (.config .getScsiInfo)
    { (default : Answers) with
      config := { (default : ConfigAnswers) with scsiInfo := scsi.infos } }

theorem scsiInfo_fits_oneDisk :
    AnsweredWithin (.start (.boot [])) (scsiInfoRequest (hardDisks 1 (by decide))) ↔
      ((hardDisks 1 (by decide)).devices.map ScsiDevice.size).sum ≤ 2012 :=
  scsiInfo_fits_iff _ rfl rfl

/-- Eight hard disks are too many. -/
theorem not_fits_eightDisks :
    ¬ AnsweredWithin (.start (.boot [])) (scsiInfoRequest (hardDisks 8 (by decide))) := by
  have hpos : 0 < (hardDisks 8 (by decide)).devices.length := by decide
  obtain ⟨header, hdispatch⟩ :
      ∃ header, ((Server.start (.boot [])).dispatch (scsiInfoRequest (hardDisks 8 (by decide)))).2 =
        .message ⟨header, some (.config (.scsiInfo (hardDisks 8 (by decide)).infos))⟩ :=
    dispatch_scsiInfo _ rfl rfl hpos
  rintro ⟨reply, hreply, hfits⟩
  rw [hdispatch] at hreply
  cases hreply
  rw [fits_scsiInfo_iff] at hfits
  exact absurd hfits (by decide)

end GlfsNdmp
