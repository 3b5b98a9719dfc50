import GlfsNdmp.Mount
import GlfsNdmp.Unset

/-!
# `init_vol_fs_list` over a run

`init_vol_fs_list` is meant to mount the volumes in the file once, and to close the file. Both
happen behind its two returns: `mount_done` is never set, and the file stays open.

`mountsOnce_iff`: a run mounts the listed volumes once at most if and only if at most one of its
backups finds an entry in the file. No run with a backup leaves as few files open as there were.
-/

namespace GlfsNdmp

def NdmpRequest.isBackup : NdmpRequest → Bool
  | .dataStartBackup _ => true
  | _ => false

/-! ## What a request does to the statics and the open files -/

@[simp] theorem mountNodes_openFiles (hostIp buPoint : CString) (ret : Nat → Int) (w : World)
    (k : Nat) (nodes : List VolFsNode) :
    (mountNodes hostIp buPoint ret w k nodes).openFiles = w.openFiles := by
  induction nodes generalizing w k with
  | nil => rfl
  | cons node nodes ih =>
    rw [mountNodes, ih]
    rfl

theorem initVolFsList_statics (buf : ScanBuffers) (ret : Nat → Int) (w : World) :
    (initVolFsList buf ret w).1.mountDone = w.mountDone ∧
      (initVolFsList buf ret w).1.openFiles = w.openFiles + 1 := by
  simp only [initVolFsList]
  split <;> simp

theorem setHostConfig_statics (hostIp buPoint : CString) (w : World) :
    (setHostConfig hostIp buPoint w).mountDone = w.mountDone ∧
      (setHostConfig hostIp buPoint w).openFiles = w.openFiles := by
  unfold setHostConfig
  split <;> exact ⟨rfl, rfl⟩

theorem backupVolume_statics (nodes : List VolFsNode) (key user typed : CString) (w : World) :
    (backupVolume nodes key user typed w).1.mountDone = w.mountDone ∧
      (backupVolume nodes key user typed w).1.openFiles = w.openFiles := by
  unfold backupVolume
  split <;> exact ⟨rfl, rfl⟩

theorem backupCommands_statics (hostIp buPoint volName : CString) (isItNew : Bool)
    (user client path : CString) (answers : Answers) (w : World) :
    (backupCommands hostIp buPoint volName isItNew user client path answers w).1.mountDone =
        w.mountDone ∧
      (backupCommands hostIp buPoint volName isItNew user client path answers w).1.openFiles =
        w.openFiles := by
  cases isItNew with
  | false => exact ⟨rfl, rfl⟩
  | true =>
    simp only [backupCommands, if_true, true_and]
    split <;> exact ⟨rfl, rfl⟩

/-- A backup leaves a file open; nothing sets `mount_done`. -/
theorem worldEffect_statics (txn : ClientTxn) (w : World) :
    (worldEffect txn w).mountDone = w.mountDone ∧
      (worldEffect txn w).openFiles = w.openFiles + if txn.request.isBackup then 1 else 0 := by
  unfold worldEffect
  cases txn.request with
  | dataStartBackup request =>
    have hlist := initVolFsList_statics txn.locals.initScan txn.answers.remount w
    simp only [runBackup, backupTarget, backupCommands_statics, backupVolume_statics,
      setHostConfig_statics, hlist, true_and]
    rfl
  | _ => exact ⟨rfl, rfl⟩

theorem xdrDecodeEncode_mountDone (srv : Server) (txn : ClientTxn)
    (h : srv.world.mountDone = false) : (xdrDecodeEncode srv txn).1.world.mountDone = false := by
  rw [xdrDecodeEncode_world, (worldEffect_statics _ _).1, h]

/-! ## The calls of `init_vol_fs_list` -/

/-- The mounts of listed volumes a request runs, with their status. -/
def listMounts (e : ServerEvent) : List (CString × Int) :=
  match e.input.request with
  | .dataStartBackup _ => remounts e.input.locals.initScan e.input.answers.remount e.before.world
  | _ => []

/-- A backup that finds more in the file than the host line. -/
def FindsEntries (e : ServerEvent) : Prop :=
  e.input.request.isBackup ∧ 2 < (words e.before.world.glusterVolUsage).length

instance (e : ServerEvent) : Decidable (FindsEntries e) :=
  inferInstanceAs (Decidable (_ ∧ _))

/-- The events of a run of the process, with what is in the file when it starts. -/
def runFrom (file : CString) (txns : List ClientTxn) : List ServerEvent :=
  Mealy.trace xdrDecodeEncode (.start (.boot file)) txns

/-- The listed volumes are mounted by one call at most, and no volume whose mount has succeeded is
mounted again by a later one. -/
structure MountsOnce (evs : List ServerEvent) : Prop where
  once : evs.Pairwise fun e e' => listMounts e = [] ∨ listMounts e' = []
  notAgain : evs.Pairwise fun e e' => ∀ instr, (instr, 0) ∈ listMounts e →
    ∀ ret, (instr, ret) ∉ listMounts e'

/-- No backup leaves more files open than there were before it. -/
def FilesClosed (evs : List ServerEvent) : Prop :=
  ∀ e ∈ evs, e.input.request.isBackup →
    (xdrDecodeEncode e.before e.input).1.world.openFiles ≤ e.before.world.openFiles

/-- At most one backup finds entries. -/
def AtMostOneFinds (evs : List ServerEvent) : Prop :=
  evs.Pairwise fun e e' => ¬ (FindsEntries e ∧ FindsEntries e')

theorem scanNodes_eq_nil {node : VolFsNode} {ws : List CString} :
    scanNodes node ws = [] ↔ ws = [] := by
  match ws with
  | [] => exact iff_of_true rfl rfl
  | [_] | [_, _] | _ :: _ :: _ :: _ =>
    exact iff_of_false (List.cons_ne_nil _ _) (List.cons_ne_nil _ _)

/-- As long as `mount_done` is not set, a call mounts what it finds. -/
theorem listMounts_eq_nil {e : ServerEvent} (h : e.before.world.mountDone = false) :
    listMounts e = [] ↔ ¬ FindsEntries e := by
  unfold listMounts FindsEntries
  cases e.input.request with
  | dataStartBackup request =>
    simp only [remounts, h, if_true, List.mapIdx_eq_nil_iff, scanNodes_eq_nil, NdmpRequest.isBackup,
      true_and, Nat.not_lt]
    rw [scanHost_rest, List.drop_eq_nil_iff]
  | _ => exact iff_of_true rfl fun hfinds => Bool.false_ne_true hfinds.1

section
variable {file : CString} {txns : List ClientTxn}

/-- In every event of a run, `mount_done` is not set. -/
theorem mountDone_of_mem {e : ServerEvent} (he : e ∈ runFrom file txns) :
    e.before.world.mountDone = false :=
  (Mealy.event_invariant xdrDecodeEncode xdrDecodeEncode_mountDone rfl he).1

theorem mountsOnce_iff_atMostOneFinds :
    MountsOnce (runFrom file txns) ↔ AtMostOneFinds (runFrom file txns) := by
  have honce {e e' : ServerEvent} (he : e ∈ runFrom file txns) (he' : e' ∈ runFrom file txns) :
      (listMounts e = [] ∨ listMounts e' = []) ↔ ¬ (FindsEntries e ∧ FindsEntries e') := by
    rw [listMounts_eq_nil (mountDone_of_mem he), listMounts_eq_nil (mountDone_of_mem he'),
      ← not_and_or]
  constructor
  · intro h
    exact h.once.imp_of_mem fun he he' => (honce he he').1
  · intro h
    have hpairs := List.Pairwise.imp_of_mem (fun he he' => (honce he he').2) h
    refine ⟨hpairs, hpairs.imp ?_⟩
    rintro e e' (hnil | hnil) instr hmounted ret hagain
    · rw [hnil] at hmounted
      cases hmounted
    · rw [hnil] at hagain
      cases hagain

/-- A backup leaves one file more open. -/
theorem filesClosed_iff :
    FilesClosed (runFrom file txns) ↔
      ∀ e ∈ runFrom file txns, e.input.request.isBackup = false := by
  refine forall₂_congr fun e _ => ?_
  rw [xdrDecodeEncode_world, (worldEffect_statics _ _).2]
  cases e.input.request.isBackup with
  | false => exact iff_of_true (fun h => absurd h Bool.false_ne_true) rfl
  | true =>
    refine iff_of_false (fun h => ?_) (by decide)
    have hle := h rfl
    simp only [if_true] at hle
    omega

theorem forall_event_iff {P : ClientTxn → Prop} :
    (∀ e ∈ runFrom file txns, P e.input) ↔ ∀ txn ∈ txns, P txn := by
  unfold runFrom
  generalize Server.start (World.boot file) = srv
  induction txns generalizing srv with
  | nil => simp
  | cons txn txns ih => simp [ih]

end

/-- **`init_vol_fs_list` over a run.** For any file and any run of requests: the listed volumes
are mounted once and no file is left open if and only if there is no backup in the run; the listed
volumes are mounted once if and only if at most one backup finds entries. -/
theorem initVolFsList_run_iff (file : CString) (txns : List ClientTxn) :
    (MountsOnce (runFrom file txns) ∧ FilesClosed (runFrom file txns) ↔
        ∀ txn ∈ txns, txn.request.isBackup = false) ∧
      (MountsOnce (runFrom file txns) ↔ AtMostOneFinds (runFrom file txns)) := by
  have hfiles : FilesClosed (runFrom file txns) ↔ ∀ txn ∈ txns, txn.request.isBackup = false :=
    filesClosed_iff.trans (forall_event_iff (P := fun txn => txn.request.isBackup = false))
  refine ⟨?_, mountsOnce_iff_atMostOneFinds⟩
  rw [hfiles, and_iff_right_iff_imp]
  intro hnone
  refine mountsOnce_iff_atMostOneFinds.2 ((List.pairwise_of_forall_mem_list ?_))
  intro e he e' _ hfinds
  have hbackup := (forall_event_iff (P := fun txn => txn.request.isBackup = false)).2 hnone e he
  rw [hfinds.1.1] at hbackup
  cases hbackup

/-- A file with one entry. -/
def oneEntry : CString := "10.0.0.1 /bu\nvol1 10.0.0.5/home bob\n".toList

/-- Two backups of the path in it. -/
def twoBackups : List ClientTxn :=
  let backup : NdmpRequest := .dataStartBackup
    ⟨"tar".toList, [⟨"FILESYSTEM".toList, "/home".toList⟩, ⟨"USER".toList, "bob".toList⟩]⟩
  [.receive 0 4 "10.0.0.5".toList backup default, .receive 1 4 "10.0.0.5".toList backup default]

/-- Both mount its volume, with success, and leave the file open. -/
theorem not_mountsOnce_twoBackups :
    ((runFrom oneEntry twoBackups).map listMounts =
        List.replicate 2 [("mount -t glusterfs 10.0.0.1:/vol1 /bu/vol1".toList, 0)]) ∧
      ¬ MountsOnce (runFrom oneEntry twoBackups) ∧ ¬ FilesClosed (runFrom oneEntry twoBackups) := by
  have hmounts : (runFrom oneEntry twoBackups).map listMounts =
      List.replicate 2 [("mount -t glusterfs 10.0.0.1:/vol1 /bu/vol1".toList, 0)] := by
    decide +kernel
  refine ⟨hmounts, fun honce => ?_, fun hfiles => ?_⟩
  · have hpairs : ((runFrom oneEntry twoBackups).map listMounts).Pairwise
        fun m m' => m = [] ∨ m' = [] := List.pairwise_map.2 honce.once
    rw [hmounts] at hpairs
    simp at hpairs
  · have hbackup : ∃ e ∈ runFrom oneEntry twoBackups, e.input.request.isBackup :=
      ⟨_, List.mem_cons_self, rfl⟩
    obtain ⟨e, he, hisBackup⟩ := hbackup
    have hnone := filesClosed_iff.1 hfiles e he
    rw [hisBackup] at hnone
    cases hnone

end GlfsNdmp
