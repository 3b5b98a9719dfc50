import GlfsNdmp.Protocol

/-!
# The CONFIG requests

`ndmp_config.c`: each handler puts together a reply from what the operating system tells it, and
touches nothing else of the server. A reply is either an error or the body that goes with
`NDMP_NO_ERR`.
-/

namespace GlfsNdmp

/-- The CONFIG requests, with the argument of the one that has one. -/
inductive NdmpConfigRequest
  | getHostInfo
  | getConnectionType
  | getAuthAttr (authType : Int)
  | getButypeInfo
  | getFsInfo
  | getTapeInfo
  | getScsiInfo
  | getServerInfo
  deriving DecidableEq, Repr

/-- `ndmp_u_quad`. -/
structure NdmpUQuad where
  high : Nat
  low : Nat
  deriving DecidableEq, Repr

/-- `ndmp_butype_info`. -/
structure NdmpButypeInfo where
  butypeName : CString
  defaultEnv : List NdmpPval
  attrs : Nat
  deriving DecidableEq, Repr

/-- `ndmp_fs_info`. -/
structure NdmpFsInfo where
  invalid : Nat
  fsType : CString
  fsLogicalDevice : CString
  fsPhysicalDevice : CString
  totalSize : NdmpUQuad
  usedSize : NdmpUQuad
  availSize : NdmpUQuad
  totalInodes : NdmpUQuad
  usedInodes : NdmpUQuad
  fsEnv : List NdmpPval
  fsStatus : CString
  deriving DecidableEq, Repr

/-- `ndmp_device_capability`. -/
structure NdmpDeviceCapability where
  device : CString
  attr : Nat
  capability : List NdmpPval
  deriving DecidableEq, Repr

/-- `ndmp_device_info`. -/
structure NdmpDeviceInfo where
  model : CString
  caplist : List NdmpDeviceCapability
  deriving DecidableEq, Repr

/-- The reply bodies; each starts with the error, which is `NDMP_NO_ERR` when it is sent. -/
inductive NdmpConfigReply
  | hostInfo (hostname osType osVers hostid : CString)
  | connectionType (addrTypes : List NdmpAddrType)
  | authAttr (authType : Int)
  | butypeInfo (butypeInfo : List NdmpButypeInfo)
  | fsInfo (fsInfo : List NdmpFsInfo)
  | tapeInfo (tapeInfo : List NdmpDeviceInfo)
  | scsiInfo (scsiInfo : List NdmpDeviceInfo)
  | serverInfo (vendorName productName revisionNumber : CString) (authType : List Int)
  deriving DecidableEq, Repr

/-- The fields of `struct statvfs` the handler reads, each a 64-bit word. -/
structure Statvfs where
  fFrsize : Nat
  fBlocks : Nat
  fBfree : Nat
  fBavail : Nat
  fFiles : Nat
  fFfree : Nat

/-- What the operating system tells the handlers; `none` where the call returns `-1`. For
`/proc/scsi/scsi` it is the devices `get_scsi_info` makes of it, and no device where there is none
in the file, or no file. -/
structure ConfigAnswers where
  hostname : Option CString
  uname : Option (CString × CString)
  statvfs : Option Statvfs
  scsiInfo : List NdmpDeviceInfo
  deriving Inhabited

/-- `NDMP_AUTH_NONE`. -/
def ndmpAuthNone : Int := 0

def ndmpConfigGetHostInfo (os : ConfigAnswers) : Except NdmpError NdmpConfigReply :=
  match os.hostname, os.uname with
  | some hostname, some (sysname, version) => .ok (.hostInfo hostname sysname version "1".toList)
  | _, _ => .error .notSupportedErr

def ndmpConfigGetConnectionType : Except NdmpError NdmpConfigReply :=
  .ok (.connectionType [.addrLocal, .addrTcp])

def ndmpConfigGetAuthAttr (authType : Int) : Except NdmpError NdmpConfigReply :=
  if authType = ndmpAuthNone then .ok (.authAttr ndmpAuthNone) else .error .notSupportedErr

/-- `NDMP_BUTYPE_BACKUP_FILELIST`, `_DIRECT`, `_INCREMENTAL` and `_UTF8`. -/
def buTypes : List Nat := [0x0002, 0x0008, 0x0020, 0x0080]

def ndmpConfigGetButypeInfo : Except NdmpError NdmpConfigReply :=
  .ok (.butypeInfo (buTypes.flatMap fun attrs =>
    [⟨"dump".toList, [], attrs⟩, ⟨"tar".toList, [], attrs⟩, ⟨"cpio".toList, [], attrs⟩]))

/-- The path the server reports on. -/
def fsMount : CString := "/".toList

/-- An `u_long` expression is computed modulo `2 ^ 64`. -/
def ulong (n : Int) : Nat := (BitVec.ofInt 64 n).toNat

/-- `f_blocks * f_frsize / 1024` and its like, on 64-bit words. -/
def kilobytes (blocks frsize : Nat) : Nat := ulong (blocks * frsize) / 1024

/-- Where `statvfs` fails, the two paths behind a pointer nobody has set are freed as well, and the
error may not get as far as the client: `UnsetFields.fsInfoPaths`, `Contained`. -/
def ndmpConfigGetFsInfo (os : ConfigAnswers) : Except NdmpError NdmpConfigReply :=
  match os.statvfs with
  | none => .error .notSupportedErr
  | some st =>
    let total := kilobytes st.fBlocks st.fFrsize
    .ok (.fsInfo [{
      invalid := 0
      fsType := "glusterfs".toList
      fsLogicalDevice := fsMount
      fsPhysicalDevice := fsMount
      totalSize := ⟨0, total⟩
      usedSize := ⟨0, ulong (total - kilobytes st.fBfree st.fFrsize)⟩
      availSize := ⟨0, kilobytes st.fBavail st.fFrsize⟩
      totalInodes := ⟨0, st.fFiles⟩
      usedInodes := ⟨0, ulong (st.fFiles - st.fFfree)⟩
      fsEnv := []
      fsStatus := "up".toList }])

/-- `NDMP_TAPE_ATTR_REWIND`. -/
def ndmpTapeAttrRewind : Nat := 0x00000001

def ndmpConfigGetTapeInfo : Except NdmpError NdmpConfigReply :=
  .ok (.tapeInfo [⟨"HP MSL6000 Tape".toList,
    [⟨"/dev/tape0".toList, ndmpTapeAttrRewind, [⟨"TAPE_SIZE".toList, "1GB".toList⟩]⟩]⟩])

def ndmpConfigGetScsiInfo (os : ConfigAnswers) : Except NdmpError NdmpConfigReply :=
  if os.scsiInfo.length > 0 then .ok (.scsiInfo os.scsiInfo) else .error .notSupportedErr

def ndmpConfigGetServerInfo : Except NdmpError NdmpConfigReply :=
  .ok (.serverInfo "Red Hat, Inc.".toList "NDMP Server".toList "0.1".toList [ndmpAuthNone])

/-- The CONFIG handlers together. -/
def ndmpConfig (os : ConfigAnswers) : NdmpConfigRequest → Except NdmpError NdmpConfigReply
  | .getHostInfo => ndmpConfigGetHostInfo os
  | .getConnectionType => ndmpConfigGetConnectionType
  | .getAuthAttr authType => ndmpConfigGetAuthAttr authType
  | .getButypeInfo => ndmpConfigGetButypeInfo
  | .getFsInfo => ndmpConfigGetFsInfo os
  | .getTapeInfo => ndmpConfigGetTapeInfo
  | .getScsiInfo => ndmpConfigGetScsiInfo os
  | .getServerInfo => ndmpConfigGetServerInfo

/-- A CONFIG request fails with one error only. -/
theorem ndmpConfig_error {os : ConfigAnswers} {request : NdmpConfigRequest} {e : NdmpError}
    (h : ndmpConfig os request = .error e) : e = .notSupportedErr := by
  cases request with
  | getHostInfo =>
    simp only [ndmpConfig, ndmpConfigGetHostInfo] at h
    split at h <;> cases h
    rfl
  | getAuthAttr authType =>
    simp only [ndmpConfig, ndmpConfigGetAuthAttr] at h
    split at h <;> cases h
    rfl
  | getFsInfo =>
    simp only [ndmpConfig, ndmpConfigGetFsInfo] at h
    split at h <;> cases h
    rfl
  | getScsiInfo =>
    simp only [ndmpConfig, ndmpConfigGetScsiInfo] at h
    split at h <;> cases h
    rfl
  | getConnectionType | getButypeInfo | getTapeInfo | getServerInfo => cases h

end GlfsNdmp
