import GlfsNdmp.Refusal
import GlfsNdmp.UsageFile

/-!
# What a transfer runs

`ndmp_data_start_backup` and `ndmp_data_start_recover` work out their commands from the environment
and `gluster_vol_usage`, and run them.

`copiesAll_iff`: a recovery runs one copy, the one for the first name of its list.
-/

namespace GlfsNdmp

/-! ## Two transfers -/

/-- A server with session 4 connected, and this in its file. -/
def connectedServer (glusterVolUsage : CString) : Server :=
  { Server.start (World.boot glusterVolUsage) with
    registry := [{ SessionInfo.fresh 4 with dataState := NdmpDataState.connected }] }

/-- `/home`, for the user `bob`. -/
def homeOfBob : List NdmpPval :=
  [⟨"FILESYSTEM".toList, "/home".toList⟩, ⟨"USER".toList, "bob".toList⟩]

/-- A transfer request in session 4, with every command exiting with this status. -/
def transfer (request : NdmpRequest) (status : Int) : ClientTxn :=
  .receive 0 4 "10.0.0.2".toList request
    { (default : Answers) with
      mount := status, mkdir := status, rsync := status, volName := some "vol".toList }

/-! ## The commands of a request -/

/-- What a request passes to `system`, with what it returns. -/
def systemCalls (srv : Server) (txn : ClientTxn) : List (CString × Int) :=
  (srv.dispatch txn).1.world.commands.drop srv.world.commands.length

theorem systemCalls_eq {srv : Server} {txn : ClientTxn} {ran : List (CString × Int)}
    (h : (worldEffect txn srv.world).commands = srv.world.commands ++ ran) :
    systemCalls srv txn = ran := by
  rw [systemCalls, srv.dispatch_world, h, List.drop_left]

theorem systemCalls_ne_nil (srv : Server) {txn : ClientTxn} (h : txn.request.isStart) :
    systemCalls srv txn ≠ [] := by
  have hlt := worldEffect_commands_lt h srv.world
  rw [systemCalls, srv.dispatch_world, ne_eq, List.drop_eq_nil_iff]
  omega

theorem systemCalls_backup (srv : Server) {txn : ClientTxn} {request : NdmpDataStartBackupRequest}
    (hreq : txn.request = .dataStartBackup request) :
    let target := backupTarget request.env txn.client txn.locals txn.answers srv.world
    systemCalls srv txn = remounts txn.locals.initScan txn.answers.remount srv.world ++
      target.mounts txn.answers ++
        if mountFailed target.isItNew txn.answers then []
        else target.copy txn.client txn.answers := by
  intro target
  apply systemCalls_eq
  simp only [worldEffect, hreq, runBackup_commands, List.append_assoc]
  rfl

theorem systemCalls_recover (srv : Server) {txn : ClientTxn} {request : NdmpDataStartRecoverRequest}
    (hreq : txn.request = .dataStartRecover request) :
    systemCalls srv txn =
      [(recoverInstr request txn.client txn.locals srv.world, txn.answers.rsync)] := by
  apply systemCalls_eq
  simp only [worldEffect, hreq]
  rfl

/-! ## The names of a recovery -/

/-- The directory of a client's backups, as a recovery finds it. -/
def recoverLocation (request : NdmpDataStartRecoverRequest) (client : CString) (locals : Locals)
    (w : World) : CString :=
  let path := clientPathOf request.env locals
  let (_, buPoint, ws) := scanHost locals.scan (words w.glusterVolUsage)
  let volName := recoverVolume (scanNodes locals.scan.node ws) (clientIpFs client path) locals
  mountPoint buPoint volName ++ "/".toList ++ client ++ path

/-- The copy that restores a name: from the backup directory followed by its original path to its
destination on the client. -/
def recoverCopy (request : NdmpDataStartRecoverRequest) (client : CString) (locals : Locals)
    (w : World) (name : NdmpName) : CString :=
  recoverRsyncInstr (recoverLocation request client locals w ++ name.originalPath)
    (userNameOf request.env locals) client name.destinationDir

theorem recoverInstr_head (request : NdmpDataStartRecoverRequest) (client : CString)
    (locals : Locals) (w : World) :
    recoverInstr request client locals w =
      recoverCopy request client locals w (request.nlist.head?.getD locals.name) := by
  unfold recoverInstr recoverCopy recoverLocation recoverSource clientPathOf userNameOf
  rfl

/-- Where a name is spelt in its copy. -/
def nameSpelling (user client : CString) (name : NdmpName) : CString :=
  name.originalPath ++ " ".toList ++ user ++ "@".toList ++ client ++ ":".toList ++
    name.destinationDir

theorem recoverCopy_eq (request : NdmpDataStartRecoverRequest) (client : CString)
    (locals : Locals) (w : World) (name : NdmpName) :
    recoverCopy request client locals w name =
      ("rsync -av ".toList ++ recoverLocation request client locals w) ++
        nameSpelling (userNameOf request.env locals) client name := by
  unfold recoverCopy recoverRsyncInstr nameSpelling
  generalize recoverLocation request client locals w = location
  simp only [List.append_assoc]

/-- Names are copied by the same command if and only if they are spelt alike. -/
theorem recoverCopy_eq_iff {request : NdmpDataStartRecoverRequest} {client : CString}
    {locals : Locals} {w : World} {name name' : NdmpName} :
    recoverCopy request client locals w name = recoverCopy request client locals w name' ↔
      nameSpelling (userNameOf request.env locals) client name =
        nameSpelling (userNameOf request.env locals) client name' := by
  rw [recoverCopy_eq, recoverCopy_eq, List.append_right_inj]

/-- A recovery reported as done has copied every name of its list, and an empty list leads to no
copy. -/
structure CopiesAll (srv : Server) (txn : ClientTxn) (request : NdmpDataStartRecoverRequest) :
    Prop where
  every : (srv.dispatch txn).2.error = some (NdmpError.noErr : Int) →
    ∀ name ∈ request.nlist,
      (recoverCopy request txn.client txn.locals srv.world name, 0) ∈ systemCalls srv txn
  nothing : request.nlist = [] → systemCalls srv txn = []

/-- The list has a name, and if the session is connected and the copy exits 0, no name is spelt
otherwise than the first. -/
def OneNameSpelt (srv : Server) (txn : ClientTxn) (request : NdmpDataStartRecoverRequest) : Prop :=
  ∃ first ∈ request.nlist.head?,
    (srv.session txn.sessionId).dataState = NdmpDataState.connected → txn.answers.rsync = 0 →
      ∀ name ∈ request.nlist,
        nameSpelling (userNameOf request.env txn.locals) txn.client name =
          nameSpelling (userNameOf request.env txn.locals) txn.client first

/-- **The names of a recovery.** For every list of names, a recovery copies every name it reports
as done, and none of an empty list, if and only if all names of its list are spelt like the
first. -/
theorem copiesAll_iff (srv : Server) (txn : ClientTxn) (request : NdmpDataStartRecoverRequest)
    (hreq : txn.request = .dataStartRecover request) :
    CopiesAll srv txn request ↔ OneNameSpelt srv txn request := by
  have hran := systemCalls_recover srv hreq
  have herror := dispatch_recover_error srv hreq
  rw [recoverInstr_head] at hran
  constructor
  · rintro ⟨hevery, hnothing⟩
    cases hnames : request.nlist with
    | nil => exact absurd (hnothing hnames) (systemCalls_ne_nil srv (by rw [hreq]; rfl))
    | cons first names =>
      refine ⟨first, by rw [hnames]; rfl, fun hstate hrsync name hname => ?_⟩
      have hmem := hevery (herror.2 ⟨hstate, hrsync⟩) name hname
      rw [hran, hnames, List.mem_singleton, Prod.mk.injEq] at hmem
      exact recoverCopy_eq_iff.1 hmem.1
  · rintro ⟨first, hfirst, hspelt⟩
    refine ⟨fun hdone name hname => ?_, fun hnil => ?_⟩
    · obtain ⟨hstate, hrsync⟩ := herror.1 hdone
      rw [hran, hfirst, hrsync, recoverCopy_eq_iff.2 (hspelt hstate hrsync name hname)]
      exact List.mem_singleton_self _
    · rw [hnil] at hfirst
      cases hfirst

/-- Two files to be restored. -/
def twoNames : NdmpDataStartRecoverRequest :=
  ⟨homeOfBob, [⟨"/a".toList, "/tmp".toList, [], []⟩, ⟨"/b".toList, "/tmp".toList, [], []⟩], []⟩

theorem copiesAll_iff_twoNames :
    CopiesAll (connectedServer "10.0.0.1 /bu\nvol 10.0.0.2/home bob\n".toList)
        (transfer (.dataStartRecover twoNames) 0) twoNames ↔
      OneNameSpelt (connectedServer "10.0.0.1 /bu\nvol 10.0.0.2/home bob\n".toList)
        (transfer (.dataStartRecover twoNames) 0) twoNames :=
  copiesAll_iff _ _ twoNames rfl

/-- The second is not, and the recovery is reported as done. -/
theorem not_copiesAll_twoNames :
    ¬ CopiesAll (connectedServer "10.0.0.1 /bu\nvol 10.0.0.2/home bob\n".toList)
      (transfer (.dataStartRecover twoNames) 0) twoNames := by
  intro h
  have hmem := h.every (by decide) ⟨"/b".toList, "/tmp".toList, [], []⟩ (by simp [twoNames])
  rw [systemCalls_recover _ rfl, recoverInstr_head, List.mem_singleton, Prod.mk.injEq,
    recoverCopy_eq_iff] at hmem
  exact absurd hmem.1 (by decide)

end GlfsNdmp
