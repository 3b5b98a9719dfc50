import GlfsNdmp.UsageFile

/-!
# Backups and recoveries agree on the file

`DATA_START_BACKUP` takes the first entry of a key from the list `init_vol_fs_list` builds,
`DATA_START_RECOVER` the last one it meets in the file itself.

`lookups_agree`: in a file that only backups with single words have written to, no key has two
entries, so that both find the same volume, and a recovery reads below the directory the backup
goes to.
-/

namespace GlfsNdmp

/-! ## Where a recovery reads -/

/-- What `ndmp_data_start_recover` works out of the file and the request. -/
structure RecoverTarget where
  buPoint : CString
  volName : CString
  user : CString
  path : CString
  name : NdmpName

/-- `ndmp_data_start_recover` up to its command. -/
def recoverTarget (request : NdmpDataStartRecoverRequest) (client : CString) (locals : Locals)
    (w : World) : RecoverTarget :=
  let path := clientPathOf request.env locals
  let (_, buPoint, ws) := scanHost locals.scan (words w.glusterVolUsage)
  ⟨buPoint, recoverVolume (scanNodes locals.scan.node ws) (clientIpFs client path) locals,
    userNameOf request.env locals, path, request.nlist.head?.getD locals.name⟩

namespace RecoverTarget

/-- The source operand of the copy. -/
def source (target : RecoverTarget) (client : CString) : CString :=
  recoverSource target.buPoint target.volName client target.path target.name.originalPath

end RecoverTarget

/-! ## Two look-ups -/

/-- The file holds the host line and nothing else. -/
structure HostLine (file : CString) : Prop where
  apart : EndsApart file
  two : (words file).length = 2

theorem HostLine.holds {file : CString} (h : HostLine file) : Holds file UsageTable.empty.entries := by
  obtain ⟨hostIp, buPoint, hwords⟩ := List.length_eq_two.1 h.two
  exact ⟨h.apart, Or.inr ⟨hostIp, buPoint, hwords⟩⟩

/-- The keys of the list `init_vol_fs_list` builds. -/
def listedKeys (buf : ScanBuffers) (ret : Nat → Int) (w : World) : List CString :=
  (initVolFsList buf ret w).2.1.map VolFsNode.filesystem

/-- With the table in the file, a recovery finds the entry of its key, too. -/
theorem Holds.recoverTarget_volName {table : UsageTable} {w : World}
    (h : Holds w.glusterVolUsage table.entries) (request : NdmpDataStartRecoverRequest)
    (client : CString) (locals : Locals) :
    (recoverTarget request client locals w).volName =
      ((find table.entries (clientIpFs client (clientPathOf request.env locals))).map
        VolFsNode.volName).getD locals.volName := by
  show recoverVolume (scanNodes locals.scan.node (scanHost locals.scan _).2.2) _ locals = _
  rw [recoverVolume]
  rcases h.reads with ⟨hwords, hnil⟩ | ⟨hostIp, buPoint, hwords⟩
  · rw [hwords, hnil]
    rfl
  · rw [hwords]
    show (Register.lastWrite _ (scanNodes locals.scan.node
      (table.entries.flatMap VolFsNode.fields))).getD _ = _
    rw [scanNodes_fields, lastWrite_eq_find table.nodup]

/-- The backup point a backup and a recovery read, where there is one. -/
theorem backupTarget_buPoint {w : World} {hostIp buPoint : CString} {ws : List CString}
    (hwords : words w.glusterVolUsage = hostIp :: buPoint :: ws) (env : List NdmpPval)
    (client : CString) (locals : Locals) (answers : Answers) :
    (backupTarget env client locals answers w).buPoint = buPoint := by
  show (scanHost locals.scan (words (setHostConfig answers.hostIp answers.buPoint
    (initVolFsList locals.initScan answers.remount w).1).glusterVolUsage)).2.1 = buPoint
  rw [setHostConfig_glusterVolUsage, initVolFsList_glusterVolUsage]
  simp only [hostConfigured, hwords, scanHost]

theorem recoverTarget_buPoint {w : World} {hostIp buPoint : CString} {ws : List CString}
    (hwords : words w.glusterVolUsage = hostIp :: buPoint :: ws)
    (request : NdmpDataStartRecoverRequest) (client : CString) (locals : Locals) :
    (recoverTarget request client locals w).buPoint = buPoint := by
  show (scanHost locals.scan (words w.glusterVolUsage)).2.1 = buPoint
  rw [hwords, scanHost]

/-- The table is in the file after a run of backups with single words. -/
theorem HostLine.holds_run {srv : Server} (h : HostLine srv.world.glusterVolUsage)
    {txns : List ClientTxn} (hwordy : ∀ txn ∈ txns, ∀ node ∈ txn.usage, node.Wordy) :
    Holds (Mealy.final xdrDecodeEncode srv txns).world.glusterVolUsage
      (UsageTable.empty.run txns).entries := by
  refine (GlfsNdmp.holds_run h.holds (fun _ _ hnil => ?_) (Or.inr ?_)).1
  · have htwo := h.two
    rw [hnil] at htwo
    cases htwo
  · clear h
    induction txns using List.reverseRecOn with
    | nil =>
      rintro node ⟨⟩
    | append_singleton txns txn ih =>
      rw [UsageTable.run_concat]
      intro node hnode
      rcases UsageTable.mem_handle_entries hnode with hold | hnew
      · exact ih (fun t ht => hwordy t (List.mem_append_left _ ht)) node hold
      · exact hwordy txn (by simp) node hnew

/-- **Two look-ups, one volume.** In every file obtained from one that holds only the host line by
requests whose key, user and volume are single words, no two entries have the same key. For every
client and path in it, a backup and a recovery find the same volume, and the source the recovery
reads is the directory of the backup followed by the original path. -/
theorem lookups_agree {srv : Server} (hfile : HostLine srv.world.glusterVolUsage)
    {txns : List ClientTxn} (hwordy : ∀ txn ∈ txns, ∀ node ∈ txn.usage, node.Wordy) :
    let w := (Mealy.final xdrDecodeEncode srv txns).world
    (∀ buf ret, (listedKeys buf ret w).Nodup) ∧
    ∀ client path, (∃ buf ret, clientIpFs client path ∈ listedKeys buf ret w) →
      ∀ (backup : NdmpDataStartBackupRequest) (recover : NdmpDataStartRecoverRequest)
        (locals locals' : Locals) (answers : Answers),
        clientPathOf backup.env locals = path → clientPathOf recover.env locals' = path →
        let target := backupTarget backup.env client locals answers w
        let source := recoverTarget recover client locals' w
        target.isItNew = false ∧ source.volName = target.volName ∧
          source.source client = target.location client ++ source.name.originalPath := by
  intro w
  have hholds : Holds w.glusterVolUsage _ := hfile.holds_run hwordy
  refine ⟨fun buf ret => ?_, fun client path hkey backup recover locals locals' answers hb hr => ?_⟩
  · rw [listedKeys, hholds.initVolFsList_eq]
    exact (UsageTable.empty.run txns).nodup
  intro target source
  obtain ⟨buf, ret, hkey⟩ := hkey
  rw [listedKeys, hholds.initVolFsList_eq] at hkey
  have hfind : find (UsageTable.empty.run txns).entries (clientIpFs client path) ≠ none :=
    fun hnone => find_eq_none.1 hnone hkey
  obtain ⟨node, hnode⟩ := Option.ne_none_iff_exists'.1 hfind
  have hnew : target.isItNew = false := by
    rw [hholds.isItNew, hb, hnode]
    rfl
  have htarget : target.volName = node.volName := by
    rw [hholds.volName, hb, hnode]
    rfl
  have hsource : source.volName = node.volName := by
    rw [hholds.recoverTarget_volName, hr, hnode]
    rfl
  obtain ⟨hostIp, buPoint, hwords⟩ : ∃ hostIp buPoint, words w.glusterVolUsage =
      hostIp :: buPoint :: (UsageTable.empty.run txns).entries.flatMap VolFsNode.fields := by
    rcases hholds.reads with ⟨-, hnil⟩ | hwords
    · rw [hnil] at hkey
      cases hkey
    · exact hwords
  have hpoint : source.buPoint = target.buPoint := by
    rw [recoverTarget_buPoint hwords, backupTarget_buPoint hwords]
  have hpath : source.path = target.path := hr.trans hb.symm
  refine ⟨hnew, hsource.trans htarget.symm, ?_⟩
  rw [RecoverTarget.source, recoverSource, BackupTarget.location, backupLocation, hpoint, hsource,
    htarget, hpath]

/-- A backup of `/home` and one of `/srv` by the same client. -/
def backupHomeAndSrv : List ClientTxn :=
  let answers : Answers := { (default : Answers) with volName := some "vol".toList }
  let backup (path : String) : NdmpRequest := .dataStartBackup
    ⟨[], [⟨"FILESYSTEM".toList, path.toList⟩, ⟨"USER".toList, "bob".toList⟩]⟩
  [.receive 0 4 "10.0.0.2".toList (backup "/home") answers,
    .receive 1 4 "10.0.0.2".toList (backup "/srv") answers]

/-- A recovery of `/home/notes` reads below the directory of the backup of `/home`. -/
theorem lookups_agree_backupHomeAndSrv :
    let w := (Mealy.final xdrDecodeEncode (Server.start (World.boot "10.0.0.1 /bu\n".toList))
      backupHomeAndSrv).world
    let env : List NdmpPval := [⟨"FILESYSTEM".toList, "/home".toList⟩]
    (recoverTarget ⟨env, [⟨"/notes".toList, [], [], []⟩], []⟩ "10.0.0.2".toList default w).source
        "10.0.0.2".toList =
      (backupTarget env "10.0.0.2".toList default default w).location "10.0.0.2".toList ++
        "/notes".toList := by
  have hwordy : ∀ txn ∈ backupHomeAndSrv, ∀ node ∈ txn.usage, node.Wordy := by decide
  exact ((@lookups_agree (Server.start (World.boot "10.0.0.1 /bu\n".toList))
    ⟨by decide, by decide⟩ _ hwordy).2 "10.0.0.2".toList "/home".toList
    ⟨default, fun _ => 0, by decide⟩ ⟨[], [⟨"FILESYSTEM".toList, "/home".toList⟩]⟩ _ default default
    default (by decide) (by decide)).2.2

end GlfsNdmp
