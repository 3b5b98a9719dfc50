import GlfsNdmp.Protocol
import GlfsNdmp.Lib.XdrMemory

/-!
# Fields that were not set

The handlers declare the reply they build without a value. Of a reply that is refused only the
error is set, and the other fields are measured and freed all the same. What the transfers leave
unset is in `GlfsNdmp.Handlers`.
-/

namespace GlfsNdmp

open Xdr

/-- A `ndmp_addr`: the discriminant, and the length in its last arm. -/
structure NdmpAddrMemory where
  addrType : Int
  commDataLen : UInt32
  deriving Inhabited

/-- The character pointers of a `ndmp_pval`. -/
structure NdmpPvalMemory where
  name : Pointer CString
  value : Pointer CString

/-- The pointers of a `ndmp_fs_info`. -/
structure NdmpFsInfoMemory where
  fsType : Pointer CString
  fsLogicalDevice : Pointer CString
  fsPhysicalDevice : Pointer CString
  fsEnv : MemoryArray NdmpPvalMemory
  fsStatus : Pointer CString

/-- The pointers of a `ndmp_device_capability`. -/
structure NdmpDeviceCapabilityMemory where
  device : Pointer CString
  capability : MemoryArray NdmpPvalMemory

/-- The pointers of a `ndmp_device_info`. -/
structure NdmpDeviceInfoMemory where
  model : Pointer CString
  caplist : MemoryArray NdmpDeviceCapabilityMemory

/-- A pointer that is handed to `free`, `realloc` or a decoder. -/
inductive HeapPointer
  | null
  | allocated
  | other
  deriving DecidableEq, Inhabited

/-- What the handlers' variables hold where they have not been set. -/
structure UnsetFields where
  /-- `reply.data_connection_addr` in `ndmp_data_listen`. -/
  dataConnectionAddr : NdmpAddrMemory
  /-- The discriminant of `reply.server_attr` in `ndmp_config_get_auth_attr`. -/
  authType : Int
  /-- The strings of `reply` in `ndmp_config_get_host_info`. -/
  hostname : Pointer CString
  osType : Pointer CString
  osVers : Pointer CString
  /-- `reply.fs_info` in `ndmp_config_get_fs_info`, and the two paths behind the pointer
  `fs_info`. -/
  fsInfo : MemoryArray NdmpFsInfoMemory
  fsInfoPaths : Pointer (HeapPointer × HeapPointer)
  /-- `reply.scsi_info` in `ndmp_config_get_scsi_info`. -/
  scsiInfo : MemoryArray NdmpDeviceInfoMemory

instance : Inhabited UnsetFields :=
  ⟨⟨default, 0, .null, .null, .null, ⟨0, fun _ => none⟩, .null, ⟨0, fun _ => none⟩⟩⟩

end GlfsNdmp
