import GlfsNdmp.Limits

/-!
# What a transfer reports

`ndmp_data_start_backup` and `ndmp_data_start_recover` check the state, run their commands, and
report one error code.

`startOutcome_iff`: the transfer comes to its end, the code is `NDMP_NO_ERR` if and only if the
state was `CONNECTED` and the commands that are checked exited 0, and the session is halted either
way, if and only if the transfer is within its limits.
-/

namespace GlfsNdmp

/-- The environment of a transfer. -/
def NdmpRequest.env : NdmpRequest → List NdmpPval
  | .dataStartBackup request => request.env
  | .dataStartRecover request => request.env
  | _ => []

theorem NdmpRequest.isStart_of_env {request : NdmpRequest} {name value : CString}
    (h : envValue name request.env = some value) : request.isStart := by
  cases request with
  | dataStartBackup | dataStartRecover => rfl
  | _ => cases h

/-- The record of a transfer that is through. -/
structure EndedHalted (s : SessionInfo) : Prop where
  dataState : s.dataState = NdmpDataState.halted
  unlocked : s.sLock = false

theorem endedHalted_dispatch (srv : Server) {txn : ClientTxn} (h : txn.request.isStart) :
    EndedHalted ((srv.dispatch txn).1.session txn.sessionId) := by
  rw [srv.dispatch_session txn]
  revert h
  cases txn.request with
  | dataStartBackup | dataStartRecover => exact fun _ => ⟨rfl, rfl⟩
  | _ => rintro ⟨⟩

/-- The file has an entry for the client's path. -/
def VolumeConfigured (path : CString) (txn : ClientTxn) (file : CString) : Prop :=
  clientIpFs txn.client path ∈ entryKeys ((words file).drop 2)

/-- The state was `CONNECTED`, and the commands that are checked exited 0: the copy and, where a
backup mounts a volume that is not configured, the mount. -/
def Succeeds (srv : Server) (txn : ClientTxn) (path : CString) : Prop :=
  (srv.session txn.sessionId).dataState = NdmpDataState.connected ∧ txn.answers.rsync = 0 ∧
    (txn.request.handler = .ndmpDataStartBackup →
      VolumeConfigured path txn srv.world.glusterVolUsage ∨ txn.answers.mount = 0)

/-- A transfer comes to its end, reports whether it has succeeded, and leaves the session halted and
unlocked. -/
structure StartOutcome (srv : Server) (txn : ClientTxn) (path : CString) : Prop where
  contained : Contained srv txn
  error : (srv.dispatch txn).2.error = some (NdmpError.noErr : Int) ↔ Succeeds srv txn path
  ended : EndedHalted ((srv.dispatch txn).1.session txn.sessionId)

/-- The error of a transfer for which the first entry of the file is complete. -/
theorem dispatch_start_error (srv : Server) {txn : ClientTxn} {path : CString}
    (hpath : envValue "FILESYSTEM".toList txn.request.env = some path)
    (hentry : (words srv.world.glusterVolUsage).length ≠ 3) :
    (srv.dispatch txn).2.error = some (NdmpError.noErr : Int) ↔ Succeeds srv txn path := by
  unfold Succeeds
  cases hreq : txn.request with
  | dataStartBackup request =>
    rw [hreq] at hpath
    obtain ⟨hnew, -⟩ := backupTarget_volume txn hpath hentry
    rw [dispatch_backup_error srv hreq, runBackup_snd, Bool.and_eq_true, decide_eq_true_eq,
      mountFailed, VolumeConfigured, ← not_not (a := _ ∈ _), ← hnew]
    cases (backupTarget request.env txn.client txn.locals txn.answers srv.world).isItNew <;>
      simp [NdmpRequest.handler, and_comm]
  | dataStartRecover request =>
    rw [dispatch_recover_error srv hreq]
    simp [NdmpRequest.handler]
  | _ =>
    rw [hreq] at hpath
    cases hpath

theorem WithinLimits.entries_of_isStart {srv : Server} {txn : ClientTxn}
    (h : WithinLimits srv txn) (hstart : txn.request.isStart) :
    (words srv.world.glusterVolUsage).length ≠ 3 := by
  unfold WithinLimits at h
  cases hreq : txn.request with
  | dataStartBackup request =>
    rw [hreq] at h
    obtain ⟨_, _, _, _, _, hlimits⟩ := h
    exact hlimits.entries.1
  | dataStartRecover request =>
    rw [hreq] at h
    obtain ⟨_, _, _, _, hlimits⟩ := h
    exact hlimits.entries
  | _ =>
    rw [hreq] at hstart
    cases hstart

/-- **The outcome of a transfer.** A transfer of a path comes to its end, is answered with
`NDMP_NO_ERR` if and only if the session was connected, the volume was in the file or its mount
exited 0, and the copy exited 0, and leaves the session halted and unlocked, if and only if it is
within its limits. -/
theorem startOutcome_iff (srv : Server) {txn : ClientTxn} {path : CString}
    (hpath : envValue "FILESYSTEM".toList txn.request.env = some path) :
    StartOutcome srv txn path ↔ WithinLimits srv txn := by
  have hstart := NdmpRequest.isStart_of_env hpath
  rw [← contained_iff]
  constructor
  · exact fun h => h.contained
  · intro h
    have hentry := ((contained_iff srv txn).1 h).entries_of_isStart hstart
    exact ⟨h, dispatch_start_error srv hpath hentry, endedHalted_dispatch srv hstart⟩

/-- What the file holds once `/home` has been backed up. -/
def homeBackedUp : CString := "10.0.0.1 /bu\nvol 10.0.0.2/home bob\n".toList

/-- A recovery of the first name, where `mount_point` holds this before it is grown. -/
def recoverWith (mountPoint : HeapPointer) : ClientTxn :=
  { transfer (.dataStartRecover twoNames) 0 with
    locals := { (default : Locals) with mountPoint := mountPoint } }

theorem recoverWith_limits (mountPoint : HeapPointer) :
    WithinLimits (connectedServer homeBackedUp) (recoverWith mountPoint) ↔ mountPoint = .null := by
  constructor
  · rintro ⟨path, user, buPoint, name, h⟩
    exact h.mountPoint
  · rintro rfl
    exact ⟨"/home".toList, "bob".toList, "/bu".toList, ⟨"/a".toList, "/tmp".toList, [], []⟩,
      { slots := ⟨by decide, by decide, by decide, by decide, by decide, by decide, by decide⟩
        scanned := ⟨by decide, by decide, by decide, by decide, by decide⟩
        entries := by decide
        path_eq := by decide
        user_eq := by decide
        buPoint_eq := by decide
        entry := by decide
        names_le := by decide
        names := by decide
        name_eq := rfl
        mountPoint := rfl
        copy := by decide }⟩

/-- A recovery that finds the pointer null is reported as it should be. -/
theorem startOutcome_recover :
    StartOutcome (connectedServer homeBackedUp) (recoverWith .null) "/home".toList :=
  (startOutcome_iff _ (by decide)).2 ((recoverWith_limits .null).2 rfl)

/-- What was not set may be anything else, and `realloc` ends the process. -/
theorem not_startOutcome_recover :
    ¬ StartOutcome (connectedServer homeBackedUp) (recoverWith .other) "/home".toList := by
  intro h
  have hlimits := (contained_iff _ _).1 h.contained
  rw [recoverWith_limits] at hlimits
  cases hlimits

end GlfsNdmp
