import GlfsNdmp.Config
import GlfsNdmp.Lib.Register
import GlfsNdmp.Session
import GlfsNdmp.UnsetFields
import GlfsNdmp.VolInfo

/-!
# The message handlers

The handlers of `ndmp_connect.c`, `ndmp_data.c` and `ndmp_msg.c`, from the decoded request on.
A handler takes the request as its local variable holds it after decoding, the session record, and
what the machine supplies: `Locals`, the contents of variables the code reads without having set
them, and `Answers`, what the operator types and what `system` returns.

Every handler chooses `reply.error` first. `set_header` puts it into the header, and the body
follows only when it is `NDMP_NO_ERR`.
-/

namespace GlfsNdmp

/-! ## What the machine supplies -/

/-- Initial contents of local variables, and of `txn->reply.length`. -/
structure Locals where
  /-- `reply.error` in `ndmp_connect_open`. -/
  replyError : Int
  /-- `txn->reply.length`, which a handler may leave as it is. -/
  replyLength : Nat
  /-- What `client_path` and `user_name` point to. -/
  clientPath : CString
  userName : CString
  /-- `vol_name` in the two transfers. -/
  volName : CString
  /-- `mount_point` in `ndmp_data_start_recover`, which is handed to `realloc`. -/
  mountPoint : HeapPointer
  /-- `comm_data_val` in the request of `ndmp_data_connect`, where its decoder puts an address of
  the last arm unless it is null. -/
  commDataVal : HeapPointer
  /-- The first preallocated slot of the name list. -/
  name : NdmpName
  /-- The scan buffers of the handler. -/
  scan : ScanBuffers
  /-- The scan buffers of `init_vol_fs_list`. -/
  initScan : ScanBuffers
  /-- The fields of the handler's `reply`. -/
  reply : UnsetFields
  deriving Inhabited

/-- What the operator and the operating system answer while a request is handled. -/
structure Answers where
  /-- Status of the mounts in `init_vol_fs_list`, one for each node. -/
  remount : Nat → Int
  /-- Status of the handler's own commands. -/
  mount : Int
  mkdir : Int
  rsync : Int
  /-- What is typed at the prompts of `set_host_config`. At the end of the input the buffers keep
  what the scan of the file left in them, a word or nothing. -/
  hostIp : CString
  buPoint : CString
  /-- What is typed at the prompt of `ndmp_data_start_backup`. At the end of the input `scanf`
  leaves the variable as it is. -/
  volName : Option CString
  /-- `time(NULL)`. -/
  timeStamp : Nat
  config : ConfigAnswers
  deriving Inhabited

/-! ## Connection -/

/-- The error `ndmp_connect_open` chooses; a version below 1 leaves it unset. -/
def connectOpenError (request : NdmpConnectOpenRequest) (locals : Locals)
    (connectionState : Int) : Int :=
  if connectionState ≠ NdmpState.listen then NdmpError.illegalStateErr
  else if request.protocolVersion ≥ 1 ∧ request.protocolVersion ≤ 3 then NdmpError.noErr
  else if request.protocolVersion > 3 then NdmpError.illegalArgsErr
  else locals.replyError

def ndmpConnectOpen (request : NdmpConnectOpenRequest) (locals : Locals) (s : SessionInfo) :
    SessionInfo × Int :=
  let s := s.enterCriticalSection
  let error := connectOpenError request locals s.connectionState
  let s := if error = NdmpError.noErr then { s with connectionState := NdmpState.connected } else s
  (s.exitCriticalSection, error)

def ndmpConnectClose (s : SessionInfo) : SessionInfo :=
  let s := s.enterCriticalSection
  let s := { s with
    connectionState := NdmpState.halted
    dataState := NdmpState.halted
    moverState := NdmpState.halted }
  s.exitCriticalSection

/-! ## The data connection -/

/-- The error `ndmp_data_listen` and `ndmp_data_connect` choose from the address type. -/
def addrError (addrType dataState : Int) : Int :=
  if dataState ≠ NdmpDataState.idle then NdmpError.illegalStateErr
  else if addrType = NdmpAddrType.addrLocal then NdmpError.noErr
  else NdmpError.illegalArgsErr

/-- The two handlers differ in the state an accepted request leads to. -/
def openDataConnection (addrType : Int) (state : NdmpDataState) (s : SessionInfo) :
    SessionInfo × Int :=
  let s := s.enterCriticalSection
  let error := addrError addrType s.dataState
  let s := if error = NdmpError.noErr then { s with dataState := state } else s
  (s.exitCriticalSection, error)

def ndmpDataListen (request : NdmpDataListenRequest) (s : SessionInfo) : SessionInfo × Int :=
  openDataConnection request.addrType .listen s

def ndmpDataConnect (request : NdmpDataConnectRequest) (s : SessionInfo) : SessionInfo × Int :=
  openDataConnection request.addrType .connected s

/-! ## Abort and stop -/

def dataAbortError (dataState : Int) : Int :=
  if dataState = NdmpDataState.halted ∨ dataState = NdmpDataState.idle
  then NdmpError.illegalStateErr else NdmpError.noErr

def ndmpDataAbort (s : SessionInfo) : SessionInfo × Int :=
  let s := s.enterCriticalSection
  let error := dataAbortError s.dataState
  let s := if error = NdmpError.noErr then { s with dataState := NdmpDataState.halted } else s
  (s.exitCriticalSection, error)

def dataStopError (dataState : Int) : Int :=
  if dataState ≠ NdmpDataState.halted then NdmpError.illegalStateErr else NdmpError.noErr

def ndmpDataStop (s : SessionInfo) : SessionInfo × Int :=
  let s := s.enterCriticalSection
  let error := dataStopError s.dataState
  let s := if error = NdmpError.noErr then { s with dataState := NdmpDataState.idle } else s
  (s.exitCriticalSection, error)

/-! ## The environment -/

/-- The stored environment after `ndmp_data_stop`: an accepted stop runs `init_environment`. -/
def environmentAfterStop (s : SessionInfo) (env : List NdmpPval) : List NdmpPval :=
  if dataStopError s.dataState = NdmpError.noErr then [] else env

/-- `ndmp_data_get_env`. The test for a wrong state asks for `!= ACTIVE || != HALTED`, which every
state satisfies. -/
def ndmpDataGetEnv (s : SessionInfo) (env : List NdmpPval) : Int × List NdmpPval :=
  if s.dataState ≠ NdmpDataState.active ∨ s.dataState ≠ NdmpDataState.halted
  then (NdmpError.noErr, env) else (NdmpError.illegalStateErr, env)

/-- The loop over the environment that looks for one name; a later pair overwrites an earlier. -/
def envValue (name : CString) (env : List NdmpPval) : Option CString :=
  Register.lastWrite (fun pval => if pval.name = name then some pval.value else none) env

/-! ## Transfers -/

/-- The state check of `ndmp_data_start_backup` and `ndmp_data_start_recover`. -/
def dataStartError (dataState : Int) : Int :=
  if dataState ≠ NdmpDataState.connected then NdmpError.illegalStateErr else NdmpError.noErr

/-- A transfer that passes the check becomes active. -/
def activate (s : SessionInfo) : SessionInfo :=
  if dataStartError s.dataState = NdmpError.noErr
  then { s with dataState := NdmpDataState.active } else s

/-- `client_ip_fs`: the key of a client's path in the file. -/
def clientIpFs (client path : CString) : CString := client ++ path

def backupLocation (mountPoint client path : CString) : CString :=
  mountPoint ++ "/".toList ++ client ++ path

def mkdirInstr (dir : CString) : CString := "mkdir -p ".toList ++ dir

/-- `rsync_instr` of a backup. -/
def backupRsyncInstr (user client path location : CString) : CString :=
  "rsync -av ".toList ++ user ++ "@".toList ++ client ++ ":".toList ++ path ++ "/ ".toList ++
    location

/-- `rsync_instr` of a recovery. -/
def recoverRsyncInstr (source user client destination : CString) : CString :=
  "rsync -av ".toList ++ source ++ " ".toList ++ user ++ "@".toList ++ client ++ ":".toList ++
    destination

/-- The line a backup of a path not yet in the file appends. -/
def usageLine (volName key user : CString) : CString :=
  volName ++ " ".toList ++ key ++ " ".toList ++ user ++ "\n".toList

/-- `vol_name` after the prompt for it. -/
def typedVolume (locals : Locals) (answers : Answers) : CString :=
  answers.volName.getD locals.volName

/-- The volume of a backup: the one configured for the key, else the one typed in, and whether it
is new. A new one is written to the file here, before it is mounted. -/
def backupVolume (nodes : List VolFsNode) (key user typed : CString) (w : World) :
    World × CString × Bool :=
  match find nodes key with
  | some node => (w, node.volName, false)
  | none => (w.append (usageLine typed key user), typed, true)

/-- The commands of a backup, and whether the ones that are checked succeeded: the mount of a new
volume, the directory, whose status is not checked, and the copy. -/
def backupCommands (hostIp buPoint volName : CString) (isItNew : Bool)
    (user client path : CString) (answers : Answers) (w : World) : World × Bool :=
  let mountPoint := mountPoint buPoint volName
  let w := if isItNew then w.system (mountInstr hostIp volName mountPoint) answers.mount else w
  if isItNew ∧ answers.mount ≠ 0 then (w, false)
  else
    let location := backupLocation mountPoint client path
    let w := w.system (mkdirInstr location) answers.mkdir
    let w := w.system (backupRsyncInstr user client path location) answers.rsync
    (w, answers.rsync = 0)

/-- Where a backup goes, and how the world is when its own commands start. -/
structure BackupTarget where
  hostIp : CString
  buPoint : CString
  volName : CString
  isItNew : Bool
  user : CString
  path : CString
  world : World

/-- `ndmp_data_start_backup` up to its first command: the environment is searched, the volumes in
the file are mounted, the host line and the line of a new client path are written. -/
def backupTarget (env : List NdmpPval) (client : CString) (locals : Locals) (answers : Answers)
    (w : World) : BackupTarget :=
  let path := (envValue "FILESYSTEM".toList env).getD locals.clientPath
  let user := (envValue "USER".toList env).getD locals.userName
  let (w, nodes, _) := initVolFsList locals.initScan answers.remount w
  let w := setHostConfig answers.hostIp answers.buPoint w
  let (hostIp, buPoint, _) := scanHost locals.scan (words w.glusterVolUsage)
  let (w, volName, isItNew) :=
    backupVolume nodes (clientIpFs client path) user (typedVolume locals answers) w
  ⟨hostIp, buPoint, volName, isItNew, user, path, w⟩

/-- `ndmp_data_start_backup` between the state check and `SEND`. -/
def runBackup (env : List NdmpPval) (client : CString) (locals : Locals) (answers : Answers)
    (w : World) : World × Bool :=
  let target := backupTarget env client locals answers w
  backupCommands target.hostIp target.buPoint target.volName target.isItNew target.user client
    target.path answers target.world

/-- What a transfer leaves behind: the record, the world, and the error of the reply. -/
structure Transfer where
  session : SessionInfo
  world : World
  error : Int

/-- `ndmp_data_start_backup`, from the state check on. The commands run whether or not the check
passed; at `SEND` the state becomes `HALTED`. -/
def ndmpDataStartBackup (request : NdmpDataStartBackupRequest) (client : CString)
    (locals : Locals) (answers : Answers) (s : SessionInfo) (w : World) : Transfer :=
  let s := s.enterCriticalSection
  let error := dataStartError s.dataState
  let s := activate s
  let (w, done) := runBackup request.env client locals answers w
  let error := if done then error else NdmpError.illegalStateErr
  let s := { s with dataState := NdmpDataState.halted }
  ⟨s.exitCriticalSection, w, error⟩

/-- The volume a recovery finds: its loop goes over the whole file, so the last node counts. -/
def recoverVolume (nodes : List VolFsNode) (key : CString) (locals : Locals) : CString :=
  (Register.lastWrite (fun node => if node.filesystem = key then some node.volName else none)
    nodes).getD locals.volName

/-- `mount_point` of a recovery: the backup directory followed by the original path. -/
def recoverSource (buPoint volName client path originalPath : CString) : CString :=
  mountPoint buPoint volName ++ "/".toList ++ client ++ path ++ originalPath

/-- `rsync_instr`, worked out of the file: one copy, for the first name. -/
def recoverInstr (request : NdmpDataStartRecoverRequest) (client : CString) (locals : Locals)
    (w : World) : CString :=
  let path := (envValue "FILESYSTEM".toList request.env).getD locals.clientPath
  let user := (envValue "USER".toList request.env).getD locals.userName
  let (_, buPoint, ws) := scanHost locals.scan (words w.glusterVolUsage)
  let volName := recoverVolume (scanNodes locals.scan.node ws) (clientIpFs client path) locals
  let name := request.nlist.head?.getD locals.name
  let source := recoverSource buPoint volName client path name.originalPath
  recoverRsyncInstr source user client name.destinationDir

/-- `ndmp_data_start_recover` between the state check and `SEND`. -/
def runRecover (request : NdmpDataStartRecoverRequest) (client : CString) (locals : Locals)
    (answers : Answers) (w : World) : World × Bool :=
  (w.system (recoverInstr request client locals w) answers.rsync, answers.rsync = 0)

def ndmpDataStartRecover (request : NdmpDataStartRecoverRequest) (client : CString)
    (locals : Locals) (answers : Answers) (s : SessionInfo) (w : World) : Transfer :=
  let s := s.enterCriticalSection
  let error := dataStartError s.dataState
  let s := activate s
  let (w, done) := runRecover request client locals answers w
  let error := if done then error else NdmpError.illegalStateErr
  let s := { s with dataState := NdmpDataState.halted }
  ⟨s.exitCriticalSection, w, error⟩

/-! ## The commands of a transfer -/

@[simp] theorem backupVolume_commands (nodes : List VolFsNode) (key user typed : CString)
    (w : World) : (backupVolume nodes key user typed w).1.commands = w.commands := by
  unfold backupVolume
  split <;> rfl

/-- Up to its own commands, a backup runs the mounts of `init_vol_fs_list`. -/
theorem backupTarget_commands (env : List NdmpPval) (client : CString) (locals : Locals)
    (answers : Answers) (w : World) :
    (backupTarget env client locals answers w).world.commands =
      w.commands ++ remounts locals.initScan answers.remount w := by
  simp only [backupTarget, backupVolume_commands, setHostConfig_commands]
  exact initVolFsList_commands _ _ _

namespace BackupTarget

/-- The mount of a new volume, with its status. -/
def mounts (target : BackupTarget) (answers : Answers) : List (CString × Int) :=
  if target.isItNew then
    [(mountInstr target.hostIp target.volName (mountPoint target.buPoint target.volName),
      answers.mount)]
  else []

def location (target : BackupTarget) (client : CString) : CString :=
  backupLocation (mountPoint target.buPoint target.volName) client target.path

/-- The directory and the copy, with their status. -/
def copy (target : BackupTarget) (client : CString) (answers : Answers) : List (CString × Int) :=
  [(mkdirInstr (target.location client), answers.mkdir),
    (backupRsyncInstr target.user client target.path (target.location client), answers.rsync)]

end BackupTarget

/-- The mount of a new volume failed: the copy is not tried. -/
def mountFailed (isItNew : Bool) (answers : Answers) : Bool := isItNew && answers.mount ≠ 0

/-- What a backup runs from its target on, and when it succeeds: if the mount of a new volume and
the copy do. -/
theorem backupCommands_target (target : BackupTarget) (client : CString) (answers : Answers) :
    (backupCommands target.hostIp target.buPoint target.volName target.isItNew target.user client
        target.path answers target.world).1.commands =
      target.world.commands ++ target.mounts answers ++
        (if mountFailed target.isItNew answers then [] else target.copy client answers) ∧
    (backupCommands target.hostIp target.buPoint target.volName target.isItNew target.user client
        target.path answers target.world).2 =
      (!mountFailed target.isItNew answers && decide (answers.rsync = 0)) := by
  obtain ⟨hostIp, buPoint, volName, isItNew, user, path, w⟩ := target
  cases isItNew with
  | false =>
    simp [backupCommands, BackupTarget.mounts, mountFailed, BackupTarget.copy,
      BackupTarget.location]
  | true =>
    by_cases hmount : answers.mount = 0
    · simp [backupCommands, BackupTarget.mounts, mountFailed, BackupTarget.copy,
        BackupTarget.location, hmount]
    · simp [backupCommands, BackupTarget.mounts, mountFailed, hmount]

theorem runBackup_commands (env : List NdmpPval) (client : CString) (locals : Locals)
    (answers : Answers) (w : World) :
    let target := backupTarget env client locals answers w
    (runBackup env client locals answers w).1.commands =
      w.commands ++ remounts locals.initScan answers.remount w ++ target.mounts answers ++
        if mountFailed target.isItNew answers then [] else target.copy client answers := by
  intro target
  rw [← backupTarget_commands env client locals answers w]
  exact (backupCommands_target target client answers).1

theorem runBackup_snd (env : List NdmpPval) (client : CString) (locals : Locals)
    (answers : Answers) (w : World) :
    (runBackup env client locals answers w).2 =
      (!mountFailed (backupTarget env client locals answers w).isItNew answers &&
        decide (answers.rsync = 0)) :=
  (backupCommands_target (backupTarget env client locals answers w) client answers).2

/-! ## The length of a command -/

theorem clientIpFs_length (client path : CString) :
    (clientIpFs client path).length = client.length + path.length := List.length_append

theorem backupLocation_length (mountPoint client path : CString) :
    (backupLocation mountPoint client path).length =
      mountPoint.length + 1 + client.length + path.length := by
  unfold backupLocation
  simp only [List.length_append]
  rfl

theorem mkdirInstr_length (dir : CString) : (mkdirInstr dir).length = 9 + dir.length := by
  unfold mkdirInstr
  simp only [List.length_append]
  rfl

theorem backupRsyncInstr_length (user client path location : CString) :
    (backupRsyncInstr user client path location).length =
      10 + user.length + 1 + client.length + 1 + path.length + 2 + location.length := by
  unfold backupRsyncInstr
  simp only [List.length_append]
  rfl

theorem recoverSource_length (buPoint volName client path originalPath : CString) :
    (recoverSource buPoint volName client path originalPath).length =
      (mountPoint buPoint volName).length + 1 + client.length + path.length +
        originalPath.length := by
  unfold recoverSource
  simp only [List.length_append]
  rfl

theorem recoverRsyncInstr_length (source user client destination : CString) :
    (recoverRsyncInstr source user client destination).length =
      10 + source.length + 1 + user.length + 1 + client.length + 1 + destination.length := by
  unfold recoverRsyncInstr
  simp only [List.length_append]
  rfl

end GlfsNdmp
