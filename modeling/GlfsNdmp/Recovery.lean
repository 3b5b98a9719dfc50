import GlfsNdmp.Directories
import GlfsNdmp.Mount
import GlfsNdmp.UsageReadBack

/-!
# What a recovery brings back

A backup fills a directory and leaves a line in `gluster_vol_usage`; a recovery, in another session
and perhaps another run of the server, finds the directory again by that line. Seen from outside
the directories are an archive: each holds the last backup that was copied to it.

**Theorem (`recovers_last_of_run`).** A recovery reads below the directory of the last backup of
its own key, and no backup of another key has been copied there, or above or below it.

The directory is the one the path leads to, name by name. A slash at the end or a `..` takes
different keys to one directory, and the key of a directory above has what is below copied with it:
the keys of the run must not be so related to that of the recovery.

The induction over the run carries the table of `GlfsNdmp.UsageFile`, and two facts about it: a
volume that is chosen stays chosen, and the host line stays as it is.
-/

namespace GlfsNdmp

open PathName

/-! ## The archive -/

/-- The backup a request makes, if it gets as far as the copy. The copy may still fail, and leave
part of its files. -/
def copiedBy (e : ServerEvent) : Option BackupTarget :=
  match e.input.request with
  | .dataStartBackup request =>
    if mountFailed (targetOf e request).isItNew e.input.answers then none
    else some (targetOf e request)
  | _ => none

/-- The directory a backup is copied to. -/
def copiedTo (e : ServerEvent) : Option (List CString) :=
  (copiedBy e).map fun target => directory (target.location e.input.client)

/-- The key a backup is made under. -/
def copiedKey (e : ServerEvent) : Option CString :=
  (copiedBy e).map fun target => clientIpFs e.input.client target.path

/-- One directory, or one below the other. -/
def Overlap (d d' : List CString) : Prop := d <+: d' ∨ d' <+: d

instance (d d' : List CString) : Decidable (Overlap d d') := inferInstanceAs (Decidable (_ ∨ _))

/-- A backup is copied to a directory, or above or below it. -/
def CopiedAt (e : ServerEvent) (dir : List CString) : Prop := ∃ d ∈ copiedTo e, Overlap d dir

instance (e : ServerEvent) (dir : List CString) : Decidable (CopiedAt e dir) :=
  inferInstanceAs (Decidable (∃ d ∈ copiedTo e, Overlap d dir))

/-- What a directory holds: the last backup that was copied there, all of it or what the copy has
left when it failed. -/
def archive (evs : List ServerEvent) (dir : List CString) : Option ServerEvent :=
  (evs.filter fun e => CopiedAt e dir).getLast?

/-- The last backup of a key that was copied, whether or not the copy succeeded. -/
def lastBackup (evs : List ServerEvent) (key : CString) : Option ServerEvent :=
  (evs.filter fun e => copiedKey e = some key).getLast?

/-- A backup that is copied is copied by a command. -/
theorem copy_mem_commandsOf {e : ServerEvent} {target : BackupTarget}
    (h : copiedBy e = some target) :
    (backupRsyncInstr target.user e.input.client target.path (target.location e.input.client),
      e.input.answers.rsync) ∈ commandsOf e := by
  unfold copiedBy at h
  split at h
  · rename_i request hrequest
    split at h
    · cases h
    · rename_i hmount
      cases h
      simp only [commandsOf, hrequest, if_neg hmount]
      exact List.mem_append_right _ (by simp [BackupTarget.copy])
  · cases h

/-! ## The directories of the keys -/

/-- The directory a recovery reads below. -/
def RecoverTarget.location (target : RecoverTarget) (client : CString) : CString :=
  backupLocation (mountPoint target.buPoint target.volName) client target.path

/-- The directories of a volume that a key leads to. -/
theorem directory_of_key {volName key : CString} (h : IsDirName volName)
    (hkey : dotDot ∉ namesOf key) (buPoint : CString) :
    directory (mountPoint buPoint volName ++ "/".toList ++ key) =
      directory buPoint ++ volName :: namesOf key := by
  rw [directory_below h, walkOf, walk_of_not_mem dotDot hkey, Walk.applyTo, Nat.sub_zero,
    List.take_length, List.append_assoc]
  rfl

theorem RecoverTarget.location_eq (target : RecoverTarget) (client : CString) :
    target.location client = mountPoint target.buPoint target.volName ++ "/".toList ++
      clientIpFs client target.path := List.append_assoc _ client target.path

theorem BackupTarget.location_eq (target : BackupTarget) (client : CString) :
    target.location client = mountPoint target.buPoint target.volName ++ "/".toList ++
      clientIpFs client target.path := List.append_assoc _ client target.path

/-- Two of them overlap on one volume, if the keys do. -/
theorem overlap_directory_iff {volName volName' key key' : CString} (h : IsDirName volName)
    (h' : IsDirName volName') (hkey : dotDot ∉ namesOf key) (hkey' : dotDot ∉ namesOf key')
    (buPoint : CString) :
    Overlap (directory (mountPoint buPoint volName ++ "/".toList ++ key))
        (directory (mountPoint buPoint volName' ++ "/".toList ++ key')) ↔
      volName = volName' ∧ Overlap (namesOf key) (namesOf key') := by
  rw [directory_of_key h hkey, directory_of_key h' hkey', Overlap, Overlap,
    List.prefix_append_right_inj, List.prefix_append_right_inj, List.cons_prefix_cons,
    List.cons_prefix_cons, eq_comm (a := volName'), and_or_left]

/-- A name that stays below is looked up below the directory of the key. -/
theorem RecoverTarget.directory_source {target : RecoverTarget} {client : CString}
    (hvol : IsDirName target.volName) (hkey : dotDot ∉ namesOf (clientIpFs client target.path))
    (hpath : StaysBelow target.name.originalPath) :
    directory (target.source client) =
      directory (target.location client) ++ namesOf target.name.originalPath := by
  have hnames := namesOf_append (clientIpFs client target.path) hpath.1
  have hsource : target.source client = mountPoint target.buPoint target.volName ++ "/".toList ++
      (clientIpFs client target.path ++ target.name.originalPath) := by
    rw [RecoverTarget.source, recoverSource, clientIpFs]
    simp only [List.append_assoc]
  have hdown : dotDot ∉ namesOf (clientIpFs client target.path ++ target.name.originalPath) := by
    rw [hnames, List.mem_append, not_or]
    exact ⟨hkey, hpath.2⟩
  rw [hsource, directory_of_key hvol hdown, target.location_eq, directory_of_key hvol hkey, hnames,
    List.append_assoc, List.cons_append]

/-! ## The volume of a key -/

namespace UsageTable

variable {table : UsageTable} {key : CString}

/-- The volume a key has been given. -/
def volume (table : UsageTable) (key : CString) : Option CString :=
  (find table.entries key).map VolFsNode.volName

theorem volume_eq_none : table.volume key = none ↔ key ∉ table.keys := by
  rw [volume, Option.map_eq_none_iff, find_eq_none]
  rfl

theorem mem_entries_run {node : VolFsNode} (h : node ∈ table.entries) (txns : List ClientTxn) :
    node ∈ (table.run txns).entries := by
  induction txns generalizing table with
  | nil => exact h
  | cons txn txns ih => exact ih (mem_entries_handle h)

theorem run_append (table : UsageTable) (as bs : List ClientTxn) :
    table.run (as ++ bs) = (table.run as).run bs := List.foldl_append

theorem mem_volume {volName : CString} (h : volName ∈ table.volume key) :
    ∃ node ∈ table.entries, node.volName = volName ∧ node.filesystem = key := by
  obtain ⟨node, hnode, heq⟩ := Option.map_eq_some_iff.1 h
  exact ⟨node, List.mem_of_find?_eq_some hnode, heq, by simpa using List.find?_some hnode⟩

/-- A volume that is chosen stays chosen. -/
theorem volume_handle (h : key ∈ table.keys) (txn : ClientTxn) :
    (table.handle txn).volume key = table.volume key := by
  unfold handle
  cases txn.usage with
  | none => rfl
  | some node =>
    rw [Option.elim_some]
    by_cases hnode : node.filesystem ∈ table.keys
    · rw [add_of_mem hnode]
    · obtain ⟨found, hfound⟩ : ∃ found, find table.entries key = some found :=
        Option.ne_none_iff_exists'.1 fun hnone => find_eq_none.1 hnone h
      rw [volume, volume, entries_add_of_not_mem hnode, hfound]
      rw [find] at hfound ⊢
      rw [List.find?_append, hfound]
      rfl

theorem mem_keys_handle (h : key ∈ table.keys) (txn : ClientTxn) :
    key ∈ (table.handle txn).keys := by
  unfold handle
  cases txn.usage with
  | none => exact h
  | some node => exact mem_keys_add.2 (Or.inl h)

theorem volume_run (h : key ∈ table.keys) (txns : List ClientTxn) :
    (table.run txns).volume key = table.volume key := by
  induction txns generalizing table with
  | nil => rfl
  | cons txn txns ih => exact (ih (mem_keys_handle h txn)).trans (volume_handle h txn)

/-- A backup gives its key the volume that is typed in, unless the key has one. -/
theorem volume_handle_self {txn : ClientTxn} {node : VolFsNode} (h : txn.usage = some node) :
    (table.handle txn).volume node.filesystem =
      some ((table.volume node.filesystem).getD node.volName) := by
  rw [handle, h, Option.elim_some]
  by_cases hnode : node.filesystem ∈ table.keys
  · rw [add_of_mem hnode]
    obtain ⟨volName, hvol⟩ : ∃ volName, table.volume node.filesystem = some volName :=
      Option.ne_none_iff_exists'.1 fun hnone => volume_eq_none.1 hnone hnode
    rw [hvol]
    rfl
  · have hnone : find table.entries node.filesystem = none := find_eq_none.2 hnode
    rw [volume_eq_none.2 hnode, volume, entries_add_of_not_mem hnode]
    rw [find] at hnone ⊢
    rw [List.find?_append, hnone]
    simp

end UsageTable

/-- A key that is read in the file is in the table. -/
theorem Holds.mem_of_mem_entryKeys {file key : CString} {entries : List VolFsNode}
    (h : Holds file entries) (hkey : key ∈ entryKeys ((words file).drop 2)) :
    key ∈ entries.map VolFsNode.filesystem := by
  rcases h.reads with ⟨hwords, -⟩ | ⟨hostIp, buPoint, hwords⟩
  · rw [hwords] at hkey
    cases hkey
  · rw [hwords] at hkey
    obtain ⟨node, hnode, heq⟩ := exists_scanNodes_of_mem_entryKeys default hkey
    refine List.mem_map.2 ⟨node, ?_, heq⟩
    rwa [List.drop_succ_cons, List.drop_succ_cons, List.drop_zero, scanNodes_fields] at hnode

/-! ## The run -/

/-- The volume is the name of a directory, and the key never goes up. -/
def VolFsNode.NamesDirectory (node : VolFsNode) : Prop :=
  IsDirName node.volName ∧ dotDot ∉ namesOf node.filesystem

instance (node : VolFsNode) : Decidable node.NamesDirectory :=
  inferInstanceAs (Decidable (_ ∧ _))

/-- The server with a table in its file, behind a host line with an absolute path. -/
structure Catalogued (srv : Server) (table : UsageTable) (buPoint : CString) : Prop where
  holds : Holds srv.world.glusterVolUsage table.entries
  host : ∃ hostIp ws, words srv.world.glusterVolUsage = hostIp :: buPoint :: ws
  absolute : buPoint.head? = some '/'
  named : ∀ node ∈ table.entries, node.NamesDirectory

/-- Of all keys of the run, only this one leads to its directory, or above or below it. -/
def KeyApart (txns : List ClientTxn) (key : CString) : Prop :=
  ∀ txn ∈ txns, ∀ node ∈ txn.usage,
    Overlap (namesOf node.filesystem) (namesOf key) → node.filesystem = key

instance (txns : List ClientTxn) (key : CString) : Decidable (KeyApart txns key) := by
  unfold KeyApart
  infer_instance

/-- An entry can be read back, and names a directory. -/
def VolFsNode.Proper (node : VolFsNode) : Prop := node.Wordy ∧ node.NamesDirectory

instance (node : VolFsNode) : Decidable node.Proper := inferInstanceAs (Decidable (_ ∧ _))

section

variable {srv : Server} {table : UsageTable} {buPoint : CString} {txns : List ClientTxn}
  (h : Catalogued srv table buPoint) (hentries : ∀ node ∈ (table.run txns).entries, node.Proper)
include h hentries

/-- The host line stays as it is, the table is extended. -/
theorem Catalogued.run :
    Catalogued (Mealy.final xdrDecodeEncode srv txns) (table.run txns) buPoint := by
  obtain ⟨hostIp, ws, hwords⟩ := h.host
  refine ⟨(holds_run h.holds (fun _ _ hnil => ?_) (Or.inr fun node hnode =>
    (hentries node hnode).1)).1, ?_, h.absolute, fun node hnode => (hentries node hnode).2⟩
  · rw [hwords] at hnil
    cases hnil
  · obtain ⟨rest, hrest⟩ := isPrefix_final srv txns
    refine ⟨hostIp, ws ++ words rest, ?_⟩
    rw [← hrest, words_append h.holds.apart, hwords]
    rfl

/-- At a place of the run, and the table from there to the end. -/
theorem Catalogued.at_event {pre post : List ServerEvent} {e : ServerEvent}
    (htrace : Mealy.trace xdrDecodeEncode srv txns = pre ++ e :: post) :
    ∃ as bs, Catalogued e.before (table.run as) buPoint ∧
      table.run txns = ((table.run as).handle e.input).run bs := by
  obtain ⟨as, bs, rfl, -, hbefore, -⟩ := Mealy.trace_eq_append_cons xdrDecodeEncode htrace
  refine ⟨as, bs, ?_, ?_⟩
  · rw [hbefore]
    refine h.run fun node hnode => hentries node ?_
    rw [UsageTable.run_append]
    exact UsageTable.mem_entries_run hnode _
  · simp only [UsageTable.run, List.foldl_append, List.foldl_cons]

/-- A backup of the run goes to the volume that its key has in the end. -/
theorem Catalogued.backup {e : ServerEvent} (he : e ∈ Mealy.trace xdrDecodeEncode srv txns)
    {request : NdmpDataStartBackupRequest} (hrequest : e.input.request = .dataStartBackup request) :
    (targetOf e request).buPoint = buPoint ∧
      (table.run txns).volume (clientIpFs e.input.client (targetOf e request).path) =
        some (targetOf e request).volName := by
  obtain ⟨pre, post, htrace⟩ := List.append_of_mem he
  obtain ⟨as, bs, hcat, hrun⟩ := h.at_event hentries htrace
  obtain ⟨hostIp, ws, hwords⟩ := hcat.host
  have husage : e.input.usage = some ⟨typedVolume e.input.locals e.input.answers,
      clientIpFs e.input.client (clientPathOf request.env e.input.locals),
      userNameOf request.env e.input.locals⟩ := by
    simp only [ClientTxn.usage, hrequest]
  have hvolume := @UsageTable.volume_handle_self (table.run as) _ _ husage
  refine ⟨backupTarget_buPoint hwords _ _ _ _, ?_⟩
  show (table.run txns).volume (clientIpFs e.input.client
    (clientPathOf request.env e.input.locals)) = _
  rw [hrun, UsageTable.volume_run, hvolume]
  · exact congrArg some
      (hcat.holds.volName request.env e.input.client e.input.locals e.input.answers).symm
  · by_contra hkey
    rw [← UsageTable.volume_eq_none, hvolume] at hkey
    cases hkey

/-- So does a recovery within its limits: its key has an entry. -/
theorem Catalogued.recover {pre post : List ServerEvent} {e : ServerEvent}
    (htrace : Mealy.trace xdrDecodeEncode srv txns = pre ++ e :: post)
    {request : NdmpDataStartRecoverRequest} (hrequest : e.input.request = .dataStartRecover request)
    (hlimits : WithinLimits e.before e.input) :
    let target := recoverTarget request e.input.client e.input.locals e.before.world
    target.buPoint = buPoint ∧
      (table.run txns).volume (clientIpFs e.input.client target.path) = some target.volName := by
  intro target
  obtain ⟨as, bs, hcat, hrun⟩ := h.at_event hentries htrace
  obtain ⟨hostIp, ws, hwords⟩ := hcat.host
  refine ⟨recoverTarget_buPoint hwords _ _ _, ?_⟩
  rw [WithinLimits, hrequest] at hlimits
  obtain ⟨path, user, point, name, hrecover⟩ := hlimits
  have hpath : target.path = path := recoverTarget_path e.input hrecover.path_eq
  have hkey : clientIpFs e.input.client target.path ∈ (table.run as).keys := by
    rw [hpath]
    exact hcat.holds.mem_of_mem_entryKeys hrecover.entry
  obtain ⟨volName, hvolume⟩ :
      ∃ volName, (table.run as).volume (clientIpFs e.input.client target.path) = some volName :=
    Option.ne_none_iff_exists'.1 fun hnone => UsageTable.volume_eq_none.1 hnone hkey
  have htarget : target.volName = volName := by
    rw [hcat.holds.recoverTarget_volName]
    show ((table.run as).volume (clientIpFs e.input.client target.path)).getD _ = _
    rw [hvolume]
    rfl
  rw [hrun, UsageTable.volume_run (UsageTable.mem_keys_handle hkey _),
    UsageTable.volume_handle hkey, hvolume, htarget]

/-- Of all backups of the run, those of the recovery's key are copied where it reads. -/
theorem Catalogued.copiedAt_iff {target : RecoverTarget} {client : CString}
    (hpoint : target.buPoint = buPoint)
    (hvolume : (table.run txns).volume (clientIpFs client target.path) = some target.volName)
    (hapart : KeyApart txns (clientIpFs client target.path))
    {b : ServerEvent} (hb : b ∈ Mealy.trace xdrDecodeEncode srv txns) :
    CopiedAt b (directory (target.location client)) ↔
      copiedKey b = some (clientIpFs client target.path) := by
  have hnamed {key volName : CString} (hvol : (table.run txns).volume key = some volName) :
      IsDirName volName ∧ dotDot ∉ namesOf key := by
    obtain ⟨node, hnode, rfl, rfl⟩ := UsageTable.mem_volume hvol
    exact (hentries node hnode).2
  cases hcopied : copiedBy b with
  | none => simp [CopiedAt, copiedTo, copiedKey, hcopied]
  | some backup =>
    obtain ⟨request, hrequest, rfl⟩ : ∃ request, b.input.request = .dataStartBackup request ∧
        backup = targetOf b request := by
      unfold copiedBy at hcopied
      split at hcopied
      · split at hcopied <;> cases hcopied
        exact ⟨_, ‹_›, rfl⟩
      · cases hcopied
    obtain ⟨hpoint', hvolume'⟩ := h.backup hentries hb hrequest
    have hkey : Overlap (namesOf (clientIpFs b.input.client (targetOf b request).path))
        (namesOf (clientIpFs client target.path)) →
          clientIpFs b.input.client (targetOf b request).path = clientIpFs client target.path := by
      refine hapart b.input (input_mem hb) ⟨typedVolume b.input.locals b.input.answers, _,
        userNameOf request.env b.input.locals⟩ ?_
      rw [ClientTxn.usage, hrequest]
      rfl
    simp only [CopiedAt, copiedTo, copiedKey, hcopied, Option.map_some, Option.mem_some_iff,
      exists_eq_left', Option.some_inj]
    rw [target.location_eq, (targetOf b request).location_eq, hpoint, hpoint',
      overlap_directory_iff (hnamed hvolume').1 (hnamed hvolume).1 (hnamed hvolume').2
        (hnamed hvolume).2]
    constructor
    · exact fun hoverlap => hkey hoverlap.2
    · intro heq
      refine ⟨Option.some_inj.1 ?_, heq ▸ Or.inl (List.prefix_refl _)⟩
      rw [← hvolume', ← hvolume, heq]

end

/-- **A recovery brings back the last backup.** In every run of the server within its limits, from
every file with a host line and entries that name directories: a recovery copies the first name it
is given from below the directory that holds the last backup of its key. No backup of another key
has been or will be copied there, or above or below it, if the keys are apart. -/
theorem recovers_last_of_run {srv : Server} {table : UsageTable} {buPoint : CString}
    {txns : List ClientTxn} (h : Catalogued srv table buPoint)
    (hfirst : FirstUses table txns VolFsNode.Proper)
    (hlimits : ∀ b ∈ Mealy.trace xdrDecodeEncode srv txns, WithinLimits b.before b.input)
    {pre post : List ServerEvent} {e : ServerEvent}
    (htrace : Mealy.trace xdrDecodeEncode srv txns = pre ++ e :: post)
    {request : NdmpDataStartRecoverRequest}
    (hrequest : e.input.request = .dataStartRecover request) :
    let client := e.input.client
    let target := recoverTarget request client e.input.locals e.before.world
    let key := clientIpFs client target.path
    let dir := directory (target.location client)
    KeyApart txns key → StaysBelow target.name.originalPath →
      commandsOf e = [(recoverRsyncInstr (target.source client) target.user client
        target.name.destinationDir, e.input.answers.rsync)] ∧
      directory (target.source client) = dir ++ namesOf target.name.originalPath ∧
      (∀ b ∈ pre ++ e :: post, CopiedAt b dir ↔ copiedKey b = some key) ∧
      archive pre dir = lastBackup pre key := by
  intro client target key dir hapart hbelow
  have hentries : ∀ node ∈ (table.run txns).entries, node.Proper :=
    (firstUses_iff (fun node hnode => ⟨h.holds.wordy node hnode, h.named node hnode⟩) txns).1 hfirst
  have he : e ∈ Mealy.trace xdrDecodeEncode srv txns := by
    rw [htrace]
    exact List.mem_append_cons_self
  obtain ⟨hpoint, hvolume⟩ := h.recover hentries htrace hrequest (hlimits e he)
  have hiff : ∀ b ∈ pre ++ e :: post, CopiedAt b dir ↔ copiedKey b = some key := by
    rw [← htrace]
    exact fun b hb => h.copiedAt_iff hentries hpoint hvolume hapart hb
  refine ⟨?_, ?_, hiff, ?_⟩
  · simp only [commandsOf, hrequest]
    rfl
  · obtain ⟨node, hnode, hvol, hkey⟩ := UsageTable.mem_volume hvolume
    have hnamed := (hentries node hnode).2
    rw [VolFsNode.NamesDirectory, hvol, hkey] at hnamed
    exact target.directory_source hnamed.1 hnamed.2 hbelow
  · rw [archive, lastBackup]
    congr 1
    refine List.filter_congr fun b hb => ?_
    simp only [hiff b (List.mem_append_left _ hb)]

/-- A recovery of `/home/notes`. -/
def recoverNotes : ClientTxn :=
  .receive 2 5 "10.0.0.2".toList
    (.dataStartRecover ⟨[⟨"FILESYSTEM".toList, "/home".toList⟩, ⟨"USER".toList, "bob".toList⟩],
      [⟨"/notes".toList, "/home/notes".toList, [], []⟩], []⟩) default

/-- The backups and the recovery are within their limits. -/
theorem recoverNotes_limits :
    ∀ e ∈ Mealy.trace xdrDecodeEncode (Server.start (World.boot "10.0.0.1 /bu\n".toList))
      (backupHomeAndSrv ++ [recoverNotes]), WithinLimits e.before e.input := by
  intro e he
  simp only [backupHomeAndSrv, List.cons_append, List.nil_append, Mealy.trace, List.mem_cons,
    List.not_mem_nil, or_false] at he
  rcases he with rfl | rfl | rfl
  · exact ⟨"/home".toList, "bob".toList, "10.0.0.1".toList, "/bu".toList, "vol".toList,
      { slots := ⟨by decide, by decide, by decide, by decide, by decide, by decide, by decide⟩
        scanned := ⟨by decide, by decide, by decide, by decide, by decide⟩
        entries := by decide
        typed := by decide
        path_eq := by decide
        user_eq := by decide
        host_eq := by decide
        volName_eq := by decide
        hostIp_lt := by decide
        buPoint_lt := by decide
        volName_lt := by decide
        mount := by decide
        copy := by decide }⟩
  · exact ⟨"/srv".toList, "bob".toList, "10.0.0.1".toList, "/bu".toList, "vol".toList,
      { slots := ⟨by decide, by decide, by decide, by decide, by decide, by decide, by decide⟩
        scanned := ⟨by decide, by decide, by decide, by decide, by decide⟩
        entries := by decide
        typed := by decide
        path_eq := by decide
        user_eq := by decide
        host_eq := by decide
        volName_eq := by decide
        hostIp_lt := by decide
        buPoint_lt := by decide
        volName_lt := by decide
        mount := by decide
        copy := by decide }⟩
  · exact ⟨"/home".toList, "bob".toList, "/bu".toList,
      ⟨"/notes".toList, "/home/notes".toList, [], []⟩,
      { slots := ⟨by decide, by decide, by decide, by decide, by decide, by decide, by decide⟩
        scanned := ⟨by decide, by decide, by decide, by decide, by decide⟩
        entries := by decide
        path_eq := by decide
        user_eq := by decide
        buPoint_eq := by decide
        entry := by decide
        names_le := by decide
        names := by decide
        name_eq := by decide
        mountPoint := by decide
        copy := by decide }⟩

/-- After backups of `/home` and of `/srv`, it reads below the directory of the first. -/
theorem recovers_last_recoverNotes :
    let srv := Server.start (World.boot "10.0.0.1 /bu\n".toList)
    (commandsOf (eventOf (Mealy.final xdrDecodeEncode srv backupHomeAndSrv) recoverNotes)).map
        Prod.fst = ["rsync -av /bu/vol/10.0.0.2/home/notes bob@10.0.0.2:/home/notes".toList] ∧
      (archive (Mealy.trace xdrDecodeEncode srv backupHomeAndSrv)
        (directory "/bu/vol/10.0.0.2/home".toList)).map (·.input.address) = some 0 := by
  intro srv
  have hcat : Catalogued srv UsageTable.empty "/bu".toList :=
    ⟨HostLine.holds ⟨by decide, by decide⟩, ⟨"10.0.0.1".toList, [], by decide⟩, by decide, by
      rintro node ⟨⟩⟩
  have hfirst : FirstUses UsageTable.empty (backupHomeAndSrv ++ [recoverNotes])
      VolFsNode.Proper := by
    refine (firstUses_iff ?_ _).2 (by decide)
    rintro node ⟨⟩
  obtain ⟨hcommands, -, -, harchive⟩ := recovers_last_of_run hcat hfirst recoverNotes_limits
    (Mealy.trace_append_cons xdrDecodeEncode srv backupHomeAndSrv [] recoverNotes) rfl
    (by decide) ⟨by decide, by decide⟩
  constructor
  · rw [show eventOf _ _ = Mealy.Event.mk _ _ _ from rfl, hcommands]
    decide
  · rw [show directory "/bu/vol/10.0.0.2/home".toList = directory (RecoverTarget.location _ _)
      from ?_, harchive]
    · decide
    · decide

end GlfsNdmp
