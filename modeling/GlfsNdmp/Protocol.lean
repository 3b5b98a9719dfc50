import Mathlib.Data.List.Basic

/-!
# NDMP messages

The part of `ndmp.x` the handlers use: the enumerations, the message header, and the request
bodies, followed by the dispatch table of `ndmp_msg.c`.

A C enumeration is stored as an `int`. The handlers compare stored words with enumerators of
more than one enumeration, so a stored word is an `Int` here and each enumeration comes with its
codes.
-/

namespace GlfsNdmp

/-- A C string: the bytes before the terminating zero, each as the character of that code. -/
abbrev CString := List Char

/-! ## Enumerations -/

/-- `enum ndmp_error`. -/
inductive NdmpError
  | noErr | notSupportedErr | deviceBusyErr | deviceOpenedErr | notAuthorizedErr | permissionErr
  | devNotOpenErr | ioErr | timeoutErr | illegalArgsErr | noTapeLoadedErr | writeProtectErr
  | eofErr | eomErr | fileNotFoundErr | badFileErr | noDeviceErr | noBusErr | xdrDecodeErr
  | illegalStateErr | undefinedErr | xdrEncodeErr | noMemErr | connectErr
  deriving DecidableEq, Repr

/-- The enumerators count from zero, in the order of `ndmp.x`. -/
def NdmpError.code (e : NdmpError) : Int := e.ctorIdx

instance : Coe NdmpError Int := ⟨NdmpError.code⟩

/-- `enum ndmp_header_message_type`. -/
inductive NdmpHeaderMessageType
  | request | reply
  deriving DecidableEq, Repr

def NdmpHeaderMessageType.code (t : NdmpHeaderMessageType) : Int := t.ctorIdx

instance : Coe NdmpHeaderMessageType Int := ⟨NdmpHeaderMessageType.code⟩

/-- `enum ndmp_addr_type`. -/
inductive NdmpAddrType
  | addrLocal | addrTcp | addrFc | addrIpc
  deriving DecidableEq, Repr

def NdmpAddrType.code (t : NdmpAddrType) : Int := t.ctorIdx

instance : Coe NdmpAddrType Int := ⟨NdmpAddrType.code⟩

/-- `enum ndmp_data_state` of `ndmp.x`. -/
inductive NdmpDataState
  | idle | active | halted | listen | connected
  deriving DecidableEq, Repr

def NdmpDataState.code (s : NdmpDataState) : Int := s.ctorIdx

instance : Coe NdmpDataState Int := ⟨NdmpDataState.code⟩

/-- `enum ndmp_state` of `ndmp_msg.h`: the same names as `NdmpDataState`, in another order. -/
inductive NdmpState
  | idle | listen | connected | active | halted
  deriving DecidableEq, Repr

def NdmpState.code (s : NdmpState) : Int := s.ctorIdx

instance : Coe NdmpState Int := ⟨NdmpState.code⟩

@[simp] theorem NdmpError.code_noErr : NdmpError.noErr.code = 0 := rfl
@[simp] theorem NdmpError.code_illegalArgsErr : NdmpError.illegalArgsErr.code = 9 := rfl
@[simp] theorem NdmpError.code_illegalStateErr : NdmpError.illegalStateErr.code = 19 := rfl
@[simp] theorem NdmpAddrType.code_local : NdmpAddrType.addrLocal.code = 0 := rfl
@[simp] theorem NdmpDataState.code_idle : NdmpDataState.idle.code = 0 := rfl
@[simp] theorem NdmpDataState.code_active : NdmpDataState.active.code = 1 := rfl
@[simp] theorem NdmpDataState.code_halted : NdmpDataState.halted.code = 2 := rfl
@[simp] theorem NdmpDataState.code_listen : NdmpDataState.listen.code = 3 := rfl
@[simp] theorem NdmpDataState.code_connected : NdmpDataState.connected.code = 4 := rfl
@[simp] theorem NdmpState.code_idle : NdmpState.idle.code = 0 := rfl
@[simp] theorem NdmpState.code_listen : NdmpState.listen.code = 1 := rfl
@[simp] theorem NdmpState.code_connected : NdmpState.connected.code = 2 := rfl
@[simp] theorem NdmpState.code_halted : NdmpState.halted.code = 4 := rfl

/-! ## The header -/

/-- `struct ndmp_header`. -/
structure NdmpHeader where
  sequence : Nat
  timeStamp : Nat
  messageType : Int
  message : Int
  replySequence : Nat
  error : Int
  deriving DecidableEq, Repr, Inhabited

/-- `set_header`: the header of a reply to `req`, numbered by `get_next_seq_number`. -/
def setHeader (req : NdmpHeader) (sequence timeStamp : Nat) (err : Int) : NdmpHeader where
  sequence := sequence
  timeStamp := timeStamp
  messageType := NdmpHeaderMessageType.reply
  message := req.message
  replySequence := req.sequence
  error := err

/-! ## Request bodies -/

/-- `struct ndmp_connect_open_request`. -/
structure NdmpConnectOpenRequest where
  protocolVersion : Nat

/-- `struct ndmp_data_listen_request`. -/
structure NdmpDataListenRequest where
  addrType : Int

/-- `struct ndmp_data_connect_request`: of the address, the handler reads the discriminant. -/
structure NdmpDataConnectRequest where
  addrType : Int

/-- `struct ndmp_pval`. -/
structure NdmpPval where
  name : CString
  value : CString
  deriving DecidableEq, Repr

/-- `struct ndmp_name`: its strings. `START_RECOVER` reads the first two. -/
structure NdmpName where
  originalPath : CString
  destinationDir : CString
  newName : CString
  otherName : CString
  deriving DecidableEq, Repr, Inhabited

/-- `struct ndmp_data_start_backup_request`. -/
structure NdmpDataStartBackupRequest where
  buType : CString
  env : List NdmpPval

/-- `struct ndmp_data_start_recover_request`. -/
structure NdmpDataStartRecoverRequest where
  env : List NdmpPval
  nlist : List NdmpName
  buType : CString

/-! ## Dispatch -/

/-- The handlers `ndmp_dispatch` chooses from. -/
inductive NdmpMessageHandler
  | ndmpAcceptNotify
  | ndmpConnectOpen
  | ndmpConnectClose
  | ndmpConfigGetHostInfo
  | ndmpConfigGetConnectionType
  | ndmpConfigGetAuthAttr
  | ndmpConfigGetButypeInfo
  | ndmpConfigGetFsInfo
  | ndmpConfigGetTapeInfo
  | ndmpConfigGetScsiInfo
  | ndmpConfigGetServerInfo
  | ndmpDataGetState
  | ndmpDataStartBackup
  | ndmpDataStartRecover
  | ndmpDataAbort
  | ndmpDataGetEnv
  | ndmpDataStop
  | ndmpDataListen
  | ndmpDataConnect
  | ndmpErrorMessage
  deriving DecidableEq, Repr

/-- The number of the pseudo request `accept_all_connections` queues for a new connection. -/
def tcpConnectMessage : Int := 0xf001

/-- `ndmp_dispatch`. -/
def ndmpDispatch (message : Int) : NdmpMessageHandler :=
  match message with
  | 0xf001 => .ndmpAcceptNotify
  | 0x900 => .ndmpConnectOpen
  | 0x902 => .ndmpConnectClose
  | 0x100 => .ndmpConfigGetHostInfo
  | 0x102 => .ndmpConfigGetConnectionType
  | 0x103 => .ndmpConfigGetAuthAttr
  | 0x104 => .ndmpConfigGetButypeInfo
  | 0x105 => .ndmpConfigGetFsInfo
  | 0x106 => .ndmpConfigGetTapeInfo
  | 0x107 => .ndmpConfigGetScsiInfo
  | 0x108 => .ndmpConfigGetServerInfo
  | 0x400 => .ndmpDataGetState
  | 0x401 => .ndmpDataStartBackup
  | 0x402 => .ndmpDataStartRecover
  | 0x403 => .ndmpDataAbort
  | 0x404 => .ndmpDataGetEnv
  | 0x407 => .ndmpDataStop
  | 0x409 => .ndmpDataListen
  | 0x40A => .ndmpDataConnect
  | _ => .ndmpErrorMessage

/-- `NDMP_NOTIFY_CONNECTED`. -/
def ndmpNotifyConnected : Int := 0x502

end GlfsNdmp
