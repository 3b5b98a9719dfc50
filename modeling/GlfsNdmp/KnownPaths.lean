import GlfsNdmp.Limits
import GlfsNdmp.MountOnce

/-!
# Backups and the mounts before them

A backup goes to a directory under the mount point of its volume. `ndmp_data_start_backup` checks
the status of a mount only when the client path is new to `gluster_vol_usage`, and it writes the
line that makes the path known before it mounts. The mounts of the volumes already in the file are
left to `init_vol_fs_list`, which ignores their status.

`backup_mounted_iff`: in a run whose requests are within their limits, every backup that is reported
as done has its volume mounted, if and only if the volume of every path already in the file has been
mounted with status 0: for one of the entries, or when a path was new.
-/

namespace GlfsNdmp

/-- The mount the handler runs for a target, exited with status 0. -/
def BackupTarget.mounted (target : BackupTarget) : CString × Int :=
  (mountInstr target.hostIp target.volName (mountPoint target.buPoint target.volName), 0)

/-! ## Mounts and other commands -/

theorem take_mountInstr (hostIp volName point : CString) :
    (mountInstr hostIp volName point).take 2 = ['m', 'o'] := by
  unfold mountInstr
  simp only [List.append_assoc]
  rw [List.take_append_of_le_length (by decide)]
  decide

theorem take_mkdirInstr (dir : CString) : (mkdirInstr dir).take 2 = ['m', 'k'] := by
  unfold mkdirInstr
  rw [List.take_append_of_le_length (by decide)]
  decide

theorem take_backupRsyncInstr (user client path location : CString) :
    (backupRsyncInstr user client path location).take 2 = ['r', 's'] := by
  unfold backupRsyncInstr
  simp only [List.append_assoc]
  rw [List.take_append_of_le_length (by decide)]
  decide

theorem take_recoverInstr (request : NdmpDataStartRecoverRequest) (client : CString)
    (locals : Locals) (w : World) :
    (recoverInstr request client locals w).take 2 = ['r', 's'] := by
  unfold recoverInstr recoverRsyncInstr
  simp only [List.append_assoc]
  rw [List.take_append_of_le_length (by decide)]
  decide

/-- A command with another beginning is no mount. -/
theorem mountInstr_ne {hostIp volName point instr : CString}
    (h : instr.take 2 ≠ ['m', 'o']) : mountInstr hostIp volName point ≠ instr := by
  rintro rfl
  exact h (take_mountInstr _ _ _)

/-- What a request runs besides its mounts is no mount. -/
theorem mem_mountsOf_of_mem_commandsOf {e : ServerEvent} {hostIp volName point : CString}
    {ret : Int} (h : (mountInstr hostIp volName point, ret) ∈ commandsOf e) :
    (mountInstr hostIp volName point, ret) ∈ mountsOf e := by
  unfold commandsOf at h
  cases hreq : e.input.request with
  | dataStartBackup request =>
    rw [hreq] at h
    rcases List.mem_append.1 h with h | h
    · exact h
    · exfalso
      split at h
      · cases h
      · unfold BackupTarget.copy at h
        rcases List.mem_cons.1 h with h | h
        · refine mountInstr_ne ?_ (congrArg Prod.fst h)
          rw [take_mkdirInstr]
          decide
        · refine mountInstr_ne ?_ (congrArg Prod.fst (List.mem_singleton.1 h))
          rw [take_backupRsyncInstr]
          decide
  | dataStartRecover request =>
    rw [hreq] at h
    refine absurd (congrArg Prod.fst (List.mem_singleton.1 h)) (mountInstr_ne ?_)
    rw [take_recoverInstr]
    decide
  | _ =>
    rw [hreq] at h
    cases h

theorem mountsOf_subset_commandsOf (e : ServerEvent) : mountsOf e ⊆ commandsOf e := by
  intro c hc
  unfold commandsOf
  cases hreq : e.input.request with
  | dataStartBackup request => exact List.mem_append_left _ hc
  | _ =>
    rw [mountsOf, hreq] at hc
    cases hc

/-! ## Backups reported as done -/

/-- A backup is reported as done if its session was connected and its commands succeeded. -/
theorem answeredNoErr_backup {srv : Server} (h : srv.NoneTerminated) {txn : ClientTxn}
    {request : NdmpDataStartBackupRequest} (hreq : txn.request = .dataStartBackup request) :
    answeredNoErr (eventOf srv txn) ↔
      (srv.session txn.sessionId).dataState = NdmpDataState.connected ∧
        mountFailed (targetOf (eventOf srv txn) request).isItNew txn.answers = false ∧
          txn.answers.rsync = 0 := by
  rw [answeredNoErr_iff_dispatch (h _), dispatch_backup_error _ hreq, srv.addJobToSession_session,
    runBackup_snd, Bool.and_eq_true, Bool.not_eq_true', decide_eq_true_eq]
  rfl

/-- Every backup that is reported as done was written below a mount point at which a mount of its
volume had exited 0: earlier in the run, or earlier in the handling of the request itself. -/
def BackupsMounted (evs : List ServerEvent) : Prop :=
  ∀ pre e post request, evs = pre ++ e :: post → e.input.request = .dataStartBackup request →
    answeredNoErr e →
    ∃ log, (xdrDecodeEncode e.before e.input).1.world.commands =
        log ++ (targetOf e request).copy e.input.client e.input.answers ∧
      (targetOf e request).mounted ∈ log

/-- What has been run when a request of the run has been handled. -/
theorem commands_of_trace {file : CString} {txns : List ClientTxn} {pre post : List ServerEvent}
    {e : ServerEvent}
    (hev : Mealy.trace xdrDecodeEncode (Server.start (World.boot file)) txns = pre ++ e :: post) :
    e.before.NoneTerminated ∧ e = eventOf e.before e.input ∧
      (xdrDecodeEncode e.before e.input).1.world.commands =
        pre.flatMap commandsOf ++ commandsOf e := by
  obtain ⟨hreach, he⟩ := eventOf_of_mem_trace (Server.noneTerminated_start _)
    (show e ∈ Mealy.trace xdrDecodeEncode (Server.start (World.boot file)) txns by rw [hev]; simp)
  obtain ⟨as, bs, rfl, rfl, hbefore, -, -⟩ := Mealy.trace_eq_append_cons _ hev
  refine ⟨hreach, he, ?_⟩
  rw [xdrDecodeEncode_commands, ← he, hbefore, commands_final]

/-- A backup whose mount did not fail runs its mounts and then its copy. -/
theorem commandsOf_backup {e : ServerEvent} {request : NdmpDataStartBackupRequest}
    (hreq : e.input.request = .dataStartBackup request)
    (hfailed : mountFailed (targetOf e request).isItNew e.input.answers = false) :
    commandsOf e = mountsOf e ++ (targetOf e request).copy e.input.client e.input.answers := by
  simp only [commandsOf, hreq, hfailed, Bool.false_eq_true, if_false]

/-- A new volume whose mount did not fail was mounted by the handler itself. -/
theorem mounted_mem_mountsOf {e : ServerEvent} {request : NdmpDataStartBackupRequest}
    (hreq : e.input.request = .dataStartBackup request)
    (hfailed : mountFailed (targetOf e request).isItNew e.input.answers = false)
    (hnew : (targetOf e request).isItNew) : (targetOf e request).mounted ∈ mountsOf e := by
  have hmount : e.input.answers.mount = 0 := by simpa [mountFailed, hnew] using hfailed
  simp only [mountsOf, hreq]
  refine List.mem_append_right _ ?_
  rw [BackupTarget.mounts, if_pos hnew, BackupTarget.mounted, hmount]
  exact List.mem_singleton_self _

/-- The mounts of a request and of those before it have been run when it comes to its copy. -/
theorem mem_log_of_mem_mountsOf {pre : List ServerEvent} {e x : ServerEvent}
    (hx : x ∈ pre ++ [e]) {c : CString × Int} (hc : c ∈ mountsOf x) :
    c ∈ pre.flatMap commandsOf ++ mountsOf e := by
  rcases List.mem_append.1 hx with hx | hx
  · exact List.mem_append_left _ (List.mem_flatMap.2 ⟨x, hx, mountsOf_subset_commandsOf x hc⟩)
  · rw [List.mem_singleton.1 hx] at hc
    exact List.mem_append_right _ hc

/-! ## Mounts, by the file and their status -/

/-- Each entry brings the volume in its place. -/
theorem scanNodes_volName (node : VolFsNode) (ws : List CString) :
    (scanNodes node ws).map VolFsNode.volName = volumePlaces ws := by
  induction node, ws using scanNodes.induct with
  | case1 node volName filesystem user ws ih => exact congrArg _ ih
  | case2 | case3 | case4 => rfl

/-- A request mounts a volume with status 0: that of an entry of the file it finds, or the one that
is typed in for a path without an entry. -/
inductive Mounts (e : ServerEvent) : CString → Prop
  | remount {request : NdmpDataStartBackupRequest} {hostIp buPoint volName : CString} {i : Nat} :
    e.input.request = .dataStartBackup request →
    (words e.before.world.glusterVolUsage).take 2 = [hostIp, buPoint] →
    (volumePlaces ((words e.before.world.glusterVolUsage).drop 2))[i]? = some volName →
    e.input.answers.remount i = 0 →
    Mounts e (mountInstr hostIp volName (mountPoint buPoint volName))
  | new {request : NdmpDataStartBackupRequest} {path hostIp buPoint volName : CString} :
    e.input.request = .dataStartBackup request →
    envValue "FILESYSTEM".toList request.env = some path →
    clientIpFs e.input.client path ∉ entryKeys ((words e.before.world.glusterVolUsage).drop 2) →
    (words (hostConfigured e.input.answers.hostIp e.input.answers.buPoint
      e.before.world.glusterVolUsage)).take 2 = [hostIp, buPoint] →
    e.input.answers.volName = some volName → e.input.answers.mount = 0 →
    Mounts e (mountInstr hostIp volName (mountPoint buPoint volName))

/-- The remounts, by the words of the file. -/
theorem mem_remounts_iff {w : World} (hdone : w.mountDone = false) (buf : ScanBuffers)
    (ret : Nat → Int) (instr : CString) (status : Int) :
    (instr, status) ∈ remounts buf ret w ↔ ∃ hostIp buPoint volName i,
      (words w.glusterVolUsage).take 2 = [hostIp, buPoint] ∧
        (volumePlaces ((words w.glusterVolUsage).drop 2))[i]? = some volName ∧ ret i = status ∧
          instr = mountInstr hostIp volName (mountPoint buPoint volName) := by
  simp only [remounts, hdone, if_true]
  rcases words w.glusterVolUsage with _ | ⟨hostIp, _ | ⟨buPoint, ws⟩⟩
  · simp [scanHost, scanNodes]
  · simp [scanHost, scanNodes]
  · simp only [scanHost, List.mem_mapIdx, Prod.mk.injEq, ← scanNodes_volName buf.node,
      List.drop_succ_cons, List.drop_zero, List.getElem?_map, Option.map_eq_some_iff,
      List.getElem?_eq_some_iff]
    constructor
    · rintro ⟨i, hi, rfl, rfl⟩
      exact ⟨hostIp, buPoint, _, i, rfl, ⟨_, ⟨hi, rfl⟩, rfl⟩, rfl, rfl⟩
    · rintro ⟨_, _, _, i, ⟨⟩, ⟨_, ⟨hi, rfl⟩, rfl⟩, rfl, rfl⟩
      exact ⟨i, hi, rfl, rfl⟩

/-- Within its limits, a request runs the mounts its file and its statuses say. -/
theorem mem_mountsOf_iff {e : ServerEvent} (hlimits : WithinLimits e.before e.input)
    (hdone : e.before.world.mountDone = false) {instr : CString} :
    (instr, 0) ∈ mountsOf e ↔ Mounts e instr := by
  unfold WithinLimits at hlimits
  cases hreq : e.input.request with
  | dataStartBackup request =>
    rw [hreq] at hlimits
    obtain ⟨path, user, hostIp, buPoint, volName, h⟩ := hlimits
    obtain ⟨-, -, hhost, hpoint, hvol, hnew⟩ := h.target
    have hmounts : mountsOf e =
        remounts e.input.locals.initScan e.input.answers.remount e.before.world ++
          if (targetOf e request).isItNew then
            [(mountInstr hostIp volName (mountPoint buPoint volName), e.input.answers.mount)]
          else [] := by
      rw [← hhost, ← hpoint, ← hvol, mountsOf, hreq]
      rfl
    rw [hmounts, List.mem_append, mem_remounts_iff hdone]
    constructor
    · rintro (⟨_, _, _, i, hline, hplace, hstatus, rfl⟩ | hmem)
      · exact .remount hreq hline hplace hstatus
      · split at hmem
        · rename_i hisNew
          obtain ⟨rfl, hstatus⟩ := Prod.mk.inj (List.mem_singleton.1 hmem)
          have hkey := hnew.1 hisNew
          exact .new hreq h.path_eq hkey h.host_eq (h.volName_typed hkey) hstatus.symm
        · cases hmem
    · intro hmount
      cases hmount with
      | @remount request' _ _ _ i _ hline hplace hstatus =>
        exact .inl ⟨_, _, _, i, hline, hplace, hstatus, rfl⟩
      | new hreq' hpath' hkey hline htyped hstatus =>
        cases hreq.symm.trans hreq'
        cases h.path_eq.symm.trans hpath'
        cases h.host_eq.symm.trans hline
        cases (h.volName_typed hkey).symm.trans htyped
        have hisNew : (targetOf e request).isItNew = true := hnew.2 hkey
        rw [if_pos hisNew, hstatus]
        exact .inr (List.mem_singleton_self _)
  | _ =>
    rw [mountsOf, hreq]
    refine iff_of_false List.not_mem_nil ?_
    rintro (⟨hreq'⟩ | ⟨hreq'⟩) <;> cases hreq.symm.trans hreq'

/-- The volume of every path that is found in the file, at a backup that is due and copies, has been
mounted with status 0, on the host line the file has then. -/
def KnownPathsMounted (evs : List ServerEvent) : Prop :=
  ∀ pre e post request path hostIp buPoint volName, evs = pre ++ e :: post →
    e.input.request = .dataStartBackup request →
    (recordOf e).dataState = NdmpDataState.connected → e.input.answers.rsync = 0 →
    envValue "FILESYSTEM".toList request.env = some path →
    (words e.before.world.glusterVolUsage).take 2 = [hostIp, buPoint] →
    configuredVolume e.before.world.glusterVolUsage (clientIpFs e.input.client path) =
      some volName →
    ∃ x ∈ pre ++ [e], Mounts x (mountInstr hostIp volName (mountPoint buPoint volName))

/-- The pieces of a backup of a path that is found in the file. -/
theorem BackupLimits.known {request : NdmpDataStartBackupRequest} {txn : ClientTxn}
    {file path user hostIp buPoint volName : CString}
    (h : BackupLimits request txn file path user hostIp buPoint volName)
    (hkey : clientIpFs txn.client path ∈ entryKeys ((words file).drop 2)) :
    (words file).take 2 = [hostIp, buPoint] ∧
      configuredVolume file (clientIpFs txn.client path) = some volName := by
  constructor
  · have hline := h.host_eq
    have hdrop : (words file).drop 2 ≠ [] := by
      rintro hnil
      rw [hnil] at hkey
      cases hkey
    unfold hostConfigured at hline
    match hwords : words file, hdrop with
    | _ :: _ :: _, _ =>
      simp only [hwords] at hline
      exact hline
  · have hconfigured := mt (configuredVolume_eq_none_iff h.entries.1).1 (not_not.2 hkey)
    obtain ⟨configured, hsome⟩ := Option.ne_none_iff_exists'.1 hconfigured
    have hvolName := h.volName_eq
    rw [hsome] at hvolName ⊢
    exact hvolName

section

variable {file : CString} {txns : List ClientTxn}
  (hlimits : ∀ e ∈ runFrom file txns, WithinLimits e.before e.input)
include hlimits

/-- Where every backup that is done has its volume mounted, those of known paths have. -/
theorem knownPathsMounted_of_backupsMounted (h : BackupsMounted (runFrom file txns)) :
    KnownPathsMounted (runFrom file txns) := by
  intro pre e post request path hostIp buPoint volName hev hreq hstate hrsync hpath hline hvol
  have hmem {x : ServerEvent} (hx : x ∈ pre ++ [e]) : x ∈ runFrom file txns := by
    rw [hev, List.append_cons]
    exact List.mem_append_left _ hx
  obtain ⟨hterm, he, hcommands⟩ := commands_of_trace hev
  have hwithin := hlimits e (hmem (by simp))
  unfold WithinLimits at hwithin
  rw [hreq] at hwithin
  obtain ⟨path', user, hostIp', buPoint', volName', hbackup⟩ := hwithin
  cases hbackup.path_eq.symm.trans hpath
  have hkey : clientIpFs e.input.client path ∈
      entryKeys ((words e.before.world.glusterVolUsage).drop 2) := by
    by_contra hnot
    rw [(configuredVolume_eq_none_iff hbackup.entries.1).2 hnot] at hvol
    cases hvol
  obtain ⟨hline', hvol'⟩ := hbackup.known hkey
  cases hline'.symm.trans hline
  cases hvol'.symm.trans hvol
  obtain ⟨-, -, hhostT, hpointT, hvolT, hnewT⟩ := hbackup.target
  have hold : (targetOf e request).isItNew = false := by
    rw [← Bool.not_eq_true]
    exact fun hisNew => hnewT.1 hisNew hkey
  have hdone : answeredNoErr e := by
    rw [he]
    refine (answeredNoErr_backup hterm hreq).2 ⟨hstate, ?_, hrsync⟩
    rw [← he, hold]
    rfl
  obtain ⟨log, hsplit, hmounted⟩ := h pre e post request hev hreq hdone
  have hrun : (targetOf e request).mounted ∈ (pre ++ [e]).flatMap commandsOf := by
    rw [List.flatMap_append, List.flatMap_singleton, ← hcommands, hsplit]
    exact List.mem_append_left _ hmounted
  obtain ⟨x, hx, hxmem⟩ := List.mem_flatMap.1 hrun
  have hmounts := (mem_mountsOf_iff (hlimits x (hmem hx)) (mountDone_of_mem (hmem hx))).1
    (mem_mountsOf_of_mem_commandsOf hxmem)
  rw [← hhostT, ← hpointT, ← hvolT]
  exact ⟨x, hx, hmounts⟩

/-- A new path is mounted by the handler, and a known one was mounted before. -/
theorem backupsMounted_of_knownPathsMounted (h : KnownPathsMounted (runFrom file txns)) :
    BackupsMounted (runFrom file txns) := by
  intro pre e post request hev hreq hdone
  have hmem {x : ServerEvent} (hx : x ∈ pre ++ [e]) : x ∈ runFrom file txns := by
    rw [hev, List.append_cons]
    exact List.mem_append_left _ hx
  obtain ⟨hterm, he, hcommands⟩ := commands_of_trace hev
  rw [he] at hdone
  obtain ⟨hstate, hfailed, hrsync⟩ := (answeredNoErr_backup hterm hreq).1 hdone
  rw [← he] at hfailed
  refine ⟨pre.flatMap commandsOf ++ mountsOf e, ?_, ?_⟩
  · rw [hcommands, commandsOf_backup hreq hfailed, List.append_assoc]
  · by_cases hnew : (targetOf e request).isItNew
    · exact mem_log_of_mem_mountsOf (by simp) (mounted_mem_mountsOf hreq hfailed hnew)
    · have hwithin := hlimits e (hmem (by simp))
      unfold WithinLimits at hwithin
      rw [hreq] at hwithin
      obtain ⟨path, user, hostIp, buPoint, volName, hbackup⟩ := hwithin
      obtain ⟨-, -, hhostT, hpointT, hvolT, hnewT⟩ := hbackup.target
      have hkey := not_not.1 (mt hnewT.2 hnew)
      obtain ⟨hline, hvol⟩ := hbackup.known hkey
      obtain ⟨x, hx, hmounts⟩ := h pre e post request path hostIp buPoint volName hev hreq hstate
        hrsync hbackup.path_eq hline hvol
      have hmounted : (targetOf e request).mounted =
          (mountInstr hostIp volName (mountPoint buPoint volName), 0) := by
        rw [← hhostT, ← hpointT, ← hvolT]
        rfl
      rw [hmounted]
      exact mem_log_of_mem_mountsOf hx
        ((mem_mountsOf_iff (hlimits x (hmem hx)) (mountDone_of_mem (hmem hx))).2 hmounts)

end

/-- **Backups and mounts.** In a run from the start of the server, for every content of the file
and all exit statuses: every request is handled within memory, and every backup that is reported as
done has its volume mounted, if and only if every request is within its limits, and the volumes of
known paths have been mounted. -/
theorem backup_mounted_iff (file : CString) (txns : List ClientTxn) :
    (∀ e ∈ runFrom file txns, Contained e.before e.input) ∧ BackupsMounted (runFrom file txns) ↔
      (∀ e ∈ runFrom file txns, WithinLimits e.before e.input) ∧
        KnownPathsMounted (runFrom file txns) := by
  constructor
  · rintro ⟨hcontained, h⟩
    have hlimits : ∀ e ∈ runFrom file txns, WithinLimits e.before e.input :=
      fun e he => (contained_iff _ _).1 (hcontained e he)
    exact ⟨hlimits, knownPathsMounted_of_backupsMounted hlimits h⟩
  · rintro ⟨hlimits, h⟩
    exact ⟨fun e he => (contained_iff _ _).2 (hlimits e he),
      backupsMounted_of_knownPathsMounted hlimits h⟩

/-- A backup to a new path whose mount fails, and the same backup once more, every mount failing and
every copy succeeding. -/
def backupTwice : List ClientTxn :=
  let answers : Answers :=
    { (default : Answers) with remount := fun _ => 1, mount := 1, volName := some "vol".toList }
  let backup : NdmpRequest := .dataStartBackup
    ⟨[], [⟨"FILESYSTEM".toList, "/home".toList⟩, ⟨"USER".toList, "bob".toList⟩]⟩
  [.receive 0 4 "10.0.0.2".toList (.dataConnect ⟨NdmpAddrType.addrLocal⟩) answers,
    .receive 1 4 "10.0.0.2".toList backup answers,
    .receive 2 4 "10.0.0.2".toList .dataStop answers,
    .receive 3 4 "10.0.0.2".toList (.dataConnect ⟨NdmpAddrType.addrLocal⟩) answers,
    .receive 4 4 "10.0.0.2".toList backup answers]

/-- The second backup is reported as done, with no mount that exited 0. -/
theorem not_backupsMounted_backupTwice :
    ¬ BackupsMounted (Mealy.trace xdrDecodeEncode
      (Server.start (World.boot "10.0.0.1 /bu\n".toList)) backupTwice) := by
  intro h
  have hlog : (Mealy.final xdrDecodeEncode (Server.start (World.boot "10.0.0.1 /bu\n".toList))
      backupTwice).world.commands.all fun c => c.2 ≠ 0 ∨ c.1.take 2 ≠ ['m', 'o'] := by
    decide
  obtain ⟨log, hsplit, hmounted⟩ := h [_, _, _, _] _ [] _ rfl rfl (by decide)
  have hmem := List.all_eq_true.1 hlog _ (hsplit ▸ List.mem_append_left _ hmounted)
  simp only [decide_eq_true_eq] at hmem
  rcases hmem with hne | hne
  · exact hne rfl
  · exact hne (take_mountInstr _ _ _)

end GlfsNdmp
