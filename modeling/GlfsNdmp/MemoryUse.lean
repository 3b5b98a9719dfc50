import GlfsNdmp.Logs
import GlfsNdmp.Preallocated
import GlfsNdmp.UsageReaders

/-!
# What a request does with memory

The handlers decode into slots of fixed sizes, scan into arrays of fixed sizes, copy into buffers
whose sizes are computed, log into an array of 256 bytes, and read variables that only some inputs
set. What happens after a write outside, or after a read of what was not set, the source does not
say; the process usually ends. `Contained` says that a request meets neither. The two `malloc(1)` of
`ndmp_config_get_fs_info`, for `"/"` and its zero, are not counted: no allocator's blocks are so
small.
-/

namespace GlfsNdmp

open Xdr

/-! ## Uses of memory -/

/-- What a handler does with a buffer of a fixed size, or with a variable that may not be set. -/
inductive MemoryUse
  /-- It writes to what was allocated for a decoded request. -/
  | write (w : PreallocatedWrite)
  /-- It puts a string into a buffer. -/
  | fill (b : Buffer)
  /-- So many bytes are copied to a buffer. -/
  | copy (size length : Nat)
  /-- It reads a variable that has been set, or that has not. -/
  | read (isSet : Bool)

def MemoryUse.Sound : MemoryUse → Prop
  | .write w => w.Inside
  | .fill b => b.Fits
  | .copy size length => length ≤ size
  | .read isSet => isSet = true

/-- What both transfers begin with: the request is decoded, of which the handler sees the type and
the pairs up to their zeros, a backup copies the pairs to slots of the same sizes, the address of
the client goes into `client_ip`, and the values of two pairs are read. -/
def requestUses (clientIp : Nat) (txn : ClientTxn) (buType : CString) (env : List NdmpPval) :
    List MemoryUse :=
  (txn.decoderWrites ++ strcpyWrite 8 buType :: copyEnvironment env).map .write ++
    [.fill ⟨clientIp, txn.client⟩, .read (envValue "FILESYSTEM".toList env).isSome,
      .read (envValue "USER".toList env).isSome]

/-- The scans of a backup: by `init_vol_fs_list`, whose first turn may find one or two words only,
by `set_host_config`, with what is typed in, and by the handler itself. -/
def backupScans (answers : Answers) (file : CString) : List MemoryUse :=
  let ws := words file
  let configured := words (hostConfigured answers.hostIp answers.buPoint file)
  (UsageReader.initVolFsList.scans ws).map .fill ++
    [.read (ws.length ≠ 3 && ws.length ≠ 4)] ++
    (hostScans 17 200 ws).map .fill ++
    (if ws.length < 2 then [.fill ⟨17, answers.hostIp⟩, .fill ⟨200, answers.buPoint⟩] else []) ++
    (UsageReader.ndmpDataStartBackup.scans configured).map .fill ++
    [.read (decide (2 ≤ configured.length))]

/-- From the volume on: the one typed in is read if there is a new one. -/
def BackupTarget.uses (target : BackupTarget) (client : CString) (answers : Answers) :
    List MemoryUse :=
  (if target.isItNew then [.read answers.volName.isSome] else []) ++
    [.fill ⟨20, target.volName⟩] ++ (target.buffers client answers).map .fill

/-- The scans of a recovery. It compares the key of each entry, but reads no user. -/
def recoverScans (file : CString) : List MemoryUse :=
  let ws := words file
  (UsageReader.ndmpDataStartRecover.scans ws).map .fill ++
    [.read (decide (2 ≤ ws.length)), .read (ws.length ≠ 3)]

/-- The volume is set by an entry with the key, the first name by the request, and `mount_point`,
which is grown, by nothing. -/
def recoverUses (request : NdmpDataStartRecoverRequest) (txn : ClientTxn) (w : World) :
    List MemoryUse :=
  let target := recoverTarget request txn.client txn.locals w
  (eachSlot 5 nameWrites request.nlist).map .write ++
    [.read ((entryKeys ((words w.glusterVolUsage).drop 2)).contains
        (clientIpFs txn.client target.path)),
      .fill ⟨20, target.volName⟩, .read (!request.nlist.isEmpty),
      .read (txn.locals.mountPoint = .null)] ++
    (recoverBuffers target.buPoint target.volName txn.client target.path target.user
      target.name).map .fill

/-- What the handlers do. The strings of a reply that is not there are measured, and the paths of a
file system that was not found are freed. The reply to `DATA_GET_STATE`, which no handler has set,
has the length that was there, and unless it is dropped a mark is put in front of it. -/
def ClientTxn.memoryUses (srv : Server) (txn : ClientTxn) : List MemoryUse :=
  match txn.request with
  | .dataStartBackup request =>
    requestUses 30 txn request.buType request.env ++
      backupScans txn.answers srv.world.glusterVolUsage ++
      (backupTarget request.env txn.client txn.locals txn.answers srv.world).uses txn.client
        txn.answers
  | .dataStartRecover request =>
    requestUses 20 txn request.buType request.env ++
      recoverScans srv.world.glusterVolUsage ++ recoverUses request txn srv.world
  | .dataConnect _ => [.read (txn.commDataLen = 0 || txn.locals.commDataVal = .null)]
  | .dataGetEnv => (fillGetEnv srv.environment).map .write
  | .dataGetState =>
    if (srv.session txn.sessionId).isTerminated then []
    else [.copy 2048 (txn.locals.replyLength + 4)]
  | .config .getHostInfo =>
    [.read txn.answers.config.hostname.isSome, .read txn.answers.config.uname.isSome]
  | .config .getFsInfo => [.read txn.answers.config.statvfs.isSome]
  | .config .getScsiInfo => [.read (!txn.answers.config.scsiInfo.isEmpty)]
  | _ => []

/-- A request is handled within its memory: nothing is written outside of what it was allocated for,
whatever the time and the port in the log, and nothing is read that was not set. -/
structure Contained (srv : Server) (txn : ClientTxn) : Prop where
  uses : ∀ u ∈ txn.memoryUses srv, u.Sound
  logs : ∀ call : LogCall, call.address = txn.client →
    (∃ c ∈ loggedCommands (eventOf srv txn), c.text = call.message) → ∀ b ∈ call.buffers, b.Fits
  reply : ∀ reply, (srv.dispatch txn).2 = .message reply → reply.Fits

end GlfsNdmp
