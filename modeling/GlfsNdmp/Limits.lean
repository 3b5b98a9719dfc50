import GlfsNdmp.MemoryUse

/-!
# The limits of a request

`contained_iff`: a request is handled within its memory if and only if it, the file
`gluster_vol_usage`, what is typed in, and the environment that is stored are within the limits
`WithinLimits` writes out.
-/

namespace GlfsNdmp

open Xdr

/-! ## Limits -/

/-- The type, the pairs and the address of a transfer are short enough, and two pairs are there. -/
structure RequestLimits (clientIp : Nat) (txn : ClientTxn) (buType : CString)
    (env : List NdmpPval) : Prop where
  decoded : ∀ w ∈ txn.decoderWrites, w.Inside
  buType_lt : buType.length < 8
  env_le : env.length ≤ 8
  pairs : ∀ p ∈ env, p.name.length < 64 ∧ p.value.length < 64
  client_lt : txn.client.length < clientIp
  filesystem : envValue "FILESYSTEM".toList env ≠ none
  user : envValue "USER".toList env ≠ none

/-- The volume of the first entry that has the key. -/
def configuredVolume (file key : CString) : Option CString :=
  (find (scanNodes default ((words file).drop 2)) key).map VolFsNode.volName

/-- The volume of the last one. -/
def lastVolume (file key : CString) : CString :=
  recoverVolume (scanNodes default ((words file).drop 2)) key default

/-- The limits of a backup with these pieces: of the request, the words of the file and what is
typed in, of `mount_instr`, and of the two lines in the log. -/
structure BackupLimits (request : NdmpDataStartBackupRequest) (txn : ClientTxn) (file : CString)
    (path user hostIp buPoint volName : CString) : Prop where
  slots : RequestLimits 30 txn request.buType request.env
  scanned : FileLimits 17 (words file)
  entries : (words file).length ≠ 3 ∧ (words file).length ≠ 4
  typed : (words file).length < 2 →
    txn.answers.hostIp.length < 17 ∧ txn.answers.buPoint.length < 200
  path_eq : envValue "FILESYSTEM".toList request.env = some path
  user_eq : envValue "USER".toList request.env = some user
  host_eq : (words (hostConfigured txn.answers.hostIp txn.answers.buPoint file)).take 2 =
    [hostIp, buPoint]
  volName_eq : (configuredVolume file (clientIpFs txn.client path)).or txn.answers.volName =
    some volName
  hostIp_lt : hostIp.length < 20
  buPoint_lt : buPoint.length < 200
  volName_lt : volName.length < 20
  mount : clientIpFs txn.client path ∉ entryKeys ((words file).drop 2) → hostIp.length ≤ 13 ∧
    hostIp.length + 2 * volName.length + buPoint.length + txn.client.length ≤ 183
  copy : clientIpFs txn.client path ∈ entryKeys ((words file).drop 2) ∨ txn.answers.mount = 0 →
    user.length + buPoint.length + volName.length + 2 * path.length + 3 * txn.client.length ≤ 190

/-- The limits of a recovery. -/
structure RecoverLimits (request : NdmpDataStartRecoverRequest) (txn : ClientTxn) (file : CString)
    (path user buPoint : CString) (name : NdmpName) : Prop where
  slots : RequestLimits 20 txn request.buType request.env
  scanned : FileLimits 20 (words file)
  entries : (words file).length ≠ 3
  path_eq : envValue "FILESYSTEM".toList request.env = some path
  user_eq : envValue "USER".toList request.env = some user
  buPoint_eq : (words file)[1]? = some buPoint
  entry : clientIpFs txn.client path ∈ entryKeys ((words file).drop 2)
  names_le : request.nlist.length ≤ 5
  names : ∀ n ∈ request.nlist, n.originalPath.length < 64 ∧ n.destinationDir.length < 64 ∧
    n.newName.length < 64 ∧ n.otherName.length < 64
  name_eq : request.nlist.head? = some name
  mountPoint : txn.locals.mountPoint = .null
  copy : buPoint.length + (lastVolume file (clientIpFs txn.client path)).length + path.length +
    name.originalPath.length + user.length + name.destinationDir.length +
      3 * txn.client.length ≤ 191

/-- The limits of a request. -/
def WithinLimits (srv : Server) (txn : ClientTxn) : Prop :=
  match txn.request with
  | .dataStartBackup request => ∃ path user hostIp buPoint volName,
    BackupLimits request txn srv.world.glusterVolUsage path user hostIp buPoint volName
  | .dataStartRecover request => ∃ path user buPoint name,
    RecoverLimits request txn srv.world.glusterVolUsage path user buPoint name
  | .dataConnect _ => txn.commDataLen = 0 ∨ txn.locals.commDataVal = .null
  | .dataGetEnv => srv.environment.length ≤ 8 ∧ pairsSize srv.environment ≤ 2012
  | .dataGetState =>
    (srv.session txn.sessionId).isTerminated = false → txn.locals.replyLength ≤ 2044
  | .config .getHostInfo => ∃ hostname sysname version,
    txn.answers.config.hostname = some hostname ∧
      txn.answers.config.uname = some (sysname, version) ∧
        Codec.padded hostname.length + Codec.padded sysname.length +
          Codec.padded version.length ≤ 1996
  | .config .getFsInfo => txn.answers.config.statvfs ≠ none
  | .config .getScsiInfo => txn.answers.config.scsiInfo ≠ [] ∧
    ((Codec.array Reply.ndmpDeviceInfo).encode txn.answers.config.scsiInfo).length ≤ 2016
  | _ => True

/-- The limits of a request do not depend on the jobs of its session. -/
theorem withinLimits_addJobToSession (srv : Server) (txn : ClientTxn) :
    WithinLimits (srv.addJobToSession txn) txn ↔ WithinLimits srv txn := by
  unfold WithinLimits
  rw [Server.addJobToSession_session]
  rfl

/-! ## What both transfers begin with -/

theorem forall_sound_write (ws : List PreallocatedWrite) :
    (∀ u ∈ ws.map MemoryUse.write, u.Sound) ↔ ∀ w ∈ ws, w.Inside := List.forall_mem_map

theorem forall_sound_fill (bs : List Buffer) :
    (∀ u ∈ bs.map MemoryUse.fill, u.Sound) ↔ ∀ b ∈ bs, b.Fits := List.forall_mem_map

theorem sound_read (isSet : Bool) : (MemoryUse.read isSet).Sound ↔ isSet = true := Iff.rfl

theorem sound_fill (size : Nat) (text : CString) :
    (MemoryUse.fill ⟨size, text⟩).Sound ↔ text.length < size := Nat.succ_le_iff

theorem strcpyWrite_inside (size : Nat) (s : CString) :
    (strcpyWrite size s).Inside ↔ s.length < size := Nat.succ_le_iff

theorem copyEnvironment_inside_iff (env : List NdmpPval) :
    (∀ w ∈ copyEnvironment env, w.Inside) ↔
      env.length ≤ 8 ∧ ∀ p ∈ env, p.name.length < 64 ∧ p.value.length < 64 := by
  simp only [copyEnvironment, eachSlot_inside, List.forall_mem_cons, strcpyWrite_inside,
    List.not_mem_nil, false_implies, implies_true, and_true]

theorem requestUses_sound_iff (clientIp : Nat) (txn : ClientTxn) (buType : CString)
    (env : List NdmpPval) : (∀ u ∈ requestUses clientIp txn buType env, u.Sound) ↔
      RequestLimits clientIp txn buType env := by
  simp only [requestUses, List.forall_mem_append, forall_sound_write, List.forall_mem_cons,
    strcpyWrite_inside, copyEnvironment_inside_iff, sound_fill, sound_read, List.not_mem_nil,
    false_implies, implies_true, and_true, Option.isSome_iff_ne_none]
  constructor
  · rintro ⟨⟨hdecoded, htype, hslots, hpairs⟩, hclient, hpath, huser⟩
    exact ⟨hdecoded, htype, hslots, hpairs, hclient, hpath, huser⟩
  · rintro ⟨hdecoded, htype, hslots, hpairs, hclient, hpath, huser⟩
    exact ⟨⟨hdecoded, htype, hslots, hpairs⟩, hclient, hpath, huser⟩

/-! ## A backup -/

/-- The host line a backup reads. -/
structure HostRead (answers : Answers) (file hostIp buPoint : CString) : Prop where
  host_eq : (words (hostConfigured answers.hostIp answers.buPoint file)).take 2 = [hostIp, buPoint]
  hostIp_lt : hostIp.length < 20
  buPoint_lt : buPoint.length < 200

/-- What `host_ip[17]` has room for, the other two have. -/
theorem backupScans_sound_iff (answers : Answers) (file : CString) :
    (∀ u ∈ backupScans answers file, u.Sound) ↔ FileLimits 17 (words file) ∧
      ((words file).length ≠ 3 ∧ (words file).length ≠ 4) ∧
      ((words file).length < 2 → answers.hostIp.length < 17 ∧ answers.buPoint.length < 200) ∧
      ∃ hostIp buPoint, HostRead answers file hostIp buPoint := by
  have htyped : (∀ u ∈ (if (words file).length < 2 then
        [MemoryUse.fill ⟨17, answers.hostIp⟩, .fill ⟨200, answers.buPoint⟩] else []), u.Sound) ↔
      ((words file).length < 2 → answers.hostIp.length < 17 ∧ answers.buPoint.length < 200) := by
    split
    · rename_i hlt
      simp [hlt, sound_fill]
    · rename_i hge
      simp [hge]
  have hread : ((∀ u ∈ (UsageReader.ndmpDataStartBackup.scans
        (words (hostConfigured answers.hostIp answers.buPoint file))).map MemoryUse.fill, u.Sound) ∧
      2 ≤ (words (hostConfigured answers.hostIp answers.buPoint file)).length) ↔
        ∃ hostIp buPoint, HostRead answers file hostIp buPoint := by
    simp only [UsageReader.scans, forall_sound_fill, hostScans_fit_iff]
    constructor
    · rintro ⟨⟨hhost, hpoint⟩, hlength⟩
      generalize hwords : words (hostConfigured answers.hostIp answers.buPoint file) = ws at *
      obtain _ | ⟨hostIp, _ | ⟨buPoint, ws⟩⟩ := ws
      · cases hlength
      · exact absurd hlength (by simp)
      · exact ⟨hostIp, buPoint, by rw [hwords]; rfl, hhost _ rfl, hpoint _ rfl⟩
    · rintro ⟨hostIp, buPoint, heq, hhost, hpoint⟩
      generalize words (hostConfigured answers.hostIp answers.buPoint file) = ws at *
      obtain _ | ⟨_, _ | ⟨_, ws⟩⟩ := ws <;> cases heq
      refine ⟨⟨?_, ?_⟩, by simp⟩
      · rintro w ⟨⟩
        exact hhost
      · rintro w ⟨⟩
        exact hpoint
  have hhost : (FileLimits 20 (words file) ∧ (∀ w ∈ (words file)[0]?, w.length < 17) ∧
      ∀ w ∈ (words file)[1]?, w.length < 200) ↔ FileLimits 17 (words file) := by
    constructor
    · rintro ⟨⟨-, hpoint, hvolumes, hkeys, husers⟩, hhost, -⟩
      exact ⟨hhost, hpoint, hvolumes, hkeys, husers⟩
    · rintro ⟨hhost, hpoint, hvolumes, hkeys, husers⟩
      exact ⟨⟨fun w hw => (hhost w hw).trans (by decide), hpoint, hvolumes, hkeys, husers⟩, hhost,
        fun w hw => (hpoint w hw).trans (by decide)⟩
  simp only [backupScans, List.forall_mem_append, forall_sound_fill,
    initVolFsList_scans_fit_iff, hostScans_fit_iff, List.forall_mem_singleton, sound_read,
    Bool.and_eq_true, decide_eq_true_eq]
  rw [htyped, ← hread, ← hhost, forall_sound_fill]
  tauto

section

variable (txn : ClientTxn) {request : NdmpDataStartBackupRequest} {w : World}
  {path user hostIp buPoint : CString}

/-- The target of a backup whose pieces are there. -/
theorem backupTarget_pieces (hpath : envValue "FILESYSTEM".toList request.env = some path)
    (huser : envValue "USER".toList request.env = some user)
    (hhost : (words (hostConfigured txn.answers.hostIp txn.answers.buPoint
      w.glusterVolUsage)).take 2 = [hostIp, buPoint]) :
    let target := backupTarget request.env txn.client txn.locals txn.answers w
    target.path = path ∧ target.user = user ∧ target.hostIp = hostIp ∧
      target.buPoint = buPoint := by
  have hline := backupTarget_host request.env txn.client txn.locals txn.answers w
  generalize words (hostConfigured txn.answers.hostIp txn.answers.buPoint w.glusterVolUsage) = ws
    at hhost hline
  obtain _ | ⟨_, _ | ⟨_, ws⟩⟩ := ws <;> cases hhost
  obtain ⟨hip, hpoint⟩ := Prod.mk.injEq _ _ _ _ ▸ hline
  refine ⟨?_, ?_, hip, hpoint⟩
  · show (envValue _ _).getD _ = path
    rw [hpath]
    rfl
  · show (envValue _ _).getD _ = user
    rw [huser]
    rfl

/-- The entries are those of the file if the first of them is complete. -/
theorem backupTarget_volume (hpath : envValue "FILESYSTEM".toList request.env = some path)
    (hentry : (words w.glusterVolUsage).length ≠ 3) :
    let target := backupTarget request.env txn.client txn.locals txn.answers w
    let key := clientIpFs txn.client path
    (target.isItNew = true ↔ key ∉ entryKeys ((words w.glusterVolUsage).drop 2)) ∧
      target.volName = (configuredVolume w.glusterVolUsage key).getD
        (typedVolume txn.locals txn.answers) := by
  have hentries : ((words w.glusterVolUsage).drop 2).length ≠ 1 := by
    rw [List.length_drop]
    omega
  have hpathOf : clientPathOf request.env txn.locals = path := by
    rw [clientPathOf, hpath, Option.getD_some]
  refine ⟨?_, ?_⟩
  · rw [backupTarget_isItNew, searched_eq, hpathOf, Option.isNone_iff_eq_none]
    exact find_scanNodes_eq_none_iff hentries _ _
  · rw [backupTarget_volName, searched_eq, hpathOf,
      find_volName_congr (scanNodes_entries hentries _ default)]
    rfl

theorem configuredVolume_eq_none_iff {file key : CString} (hentry : (words file).length ≠ 3) :
    configuredVolume file key = none ↔ key ∉ entryKeys ((words file).drop 2) := by
  have hentries : ((words file).drop 2).length ≠ 1 := by
    rw [List.length_drop]
    omega
  rw [configuredVolume, Option.map_eq_none_iff, find_scanNodes_eq_none_iff hentries]

end

section

variable {txn : ClientTxn} {request : NdmpDataStartBackupRequest} {w : World}
  {path user hostIp buPoint volName : CString}
  (h : BackupLimits request txn w.glusterVolUsage path user hostIp buPoint volName)
include h

/-- The volume of a path without an entry is typed in. -/
theorem BackupLimits.volName_typed
    (hkey : clientIpFs txn.client path ∉ entryKeys ((words w.glusterVolUsage).drop 2)) :
    txn.answers.volName = some volName := by
  have hvolName := h.volName_eq
  rwa [(configuredVolume_eq_none_iff h.entries.1).2 hkey, Option.none_or] at hvolName

/-- The target of a backup within its limits. -/
theorem BackupLimits.target :
    let target := backupTarget request.env txn.client txn.locals txn.answers w
    target.path = path ∧ target.user = user ∧ target.hostIp = hostIp ∧
      target.buPoint = buPoint ∧ target.volName = volName ∧
      (target.isItNew = true ↔
        clientIpFs txn.client path ∉ entryKeys ((words w.glusterVolUsage).drop 2)) := by
  intro target
  obtain ⟨hpath, huser, hhost, hpoint⟩ := backupTarget_pieces txn h.path_eq h.user_eq h.host_eq
  obtain ⟨hnew, hvolT⟩ := backupTarget_volume txn h.path_eq h.entries.1
  refine ⟨hpath, huser, hhost, hpoint, ?_, hnew⟩
  show (backupTarget request.env txn.client txn.locals txn.answers w).volName = volName
  rw [hvolT]
  have hvolName := h.volName_eq
  cases hconfigured : configuredVolume w.glusterVolUsage (clientIpFs txn.client path) with
  | some configured =>
    rw [hconfigured] at hvolName
    exact Option.some.inj hvolName
  | none =>
    rw [hconfigured, Option.none_or] at hvolName
    rw [typedVolume, hvolName]
    rfl

end

/-- The lines in the log have room for commands of so many characters. -/
theorem logs_fit_iff (srv : Server) {txn : ClientTxn} (hclient : txn.client.length ≤ 42) :
    (∀ call : LogCall, call.address = txn.client →
      (∃ c ∈ loggedCommands (eventOf srv txn), c.text = call.message) →
        ∀ b ∈ call.buffers, b.Fits) ↔
      ∀ c ∈ loggedCommands (eventOf srv txn), c.text.length + txn.client.length ≤ 206 := by
  constructor
  · intro h c hc
    -- a port of five digits
    let call : LogCall := ⟨epoch, txn.client, 65535, c.text⟩
    have hfits := (fits_buffers_iff hclient).1 (h call rfl ⟨c, hc, rfl⟩)
    have hport : (portText 65535).length = 5 := by decide
    change c.text.length + txn.client.length + (portText 65535).length ≤ 211 at hfits
    omega
  · rintro h call haddress ⟨c, hc, hmessage⟩
    have hshort := h c hc
    have hport := length_portText_le call.port
    refine (fits_buffers_iff (haddress ▸ hclient)).2 ?_
    rw [← hmessage, haddress]
    omega

/-- What a target asks for, once the pieces are there. -/
theorem BackupTarget.uses_sound_iff (target : BackupTarget) (client : CString)
    (answers : Answers) :
    (∀ u ∈ target.uses client answers, u.Sound) ↔
      (target.isItNew = true → answers.volName.isSome) ∧ target.volName.length < 20 ∧
        (target.isItNew = true → target.hostIp.length ≤ 13) := by
  have hprompt : (∀ u ∈ (if target.isItNew then [MemoryUse.read answers.volName.isSome] else []),
      u.Sound) ↔ (target.isItNew = true → answers.volName.isSome) := by
    split
    · rename_i hnew
      simp [hnew, sound_read]
    · rename_i hold
      simp [hold]
  simp only [BackupTarget.uses, List.forall_mem_append, hprompt, List.forall_mem_singleton,
    sound_fill, forall_sound_fill, fits_backupBuffers_iff, and_assoc]

/-- The two lines a backup logs. -/
theorem backup_logged_iff {srv : Server} {txn : ClientTxn} {request : NdmpDataStartBackupRequest}
    (hreq : txn.request = .dataStartBackup request) {target : BackupTarget}
    (htarget : backupTarget request.env txn.client txn.locals txn.answers srv.world = target) :
    (∀ c ∈ loggedCommands (eventOf srv txn), c.text.length + txn.client.length ≤ 206) ↔
      (target.isItNew = true → target.hostIp.length + 2 * target.volName.length +
        target.buPoint.length + txn.client.length ≤ 183) ∧
      (target.isItNew = false ∨ txn.answers.mount = 0 → target.user.length +
        target.buPoint.length + target.volName.length + 2 * target.path.length +
          3 * txn.client.length ≤ 190) := by
  have hlogged : loggedCommands (eventOf srv txn) =
      (if target.isItNew then [.mount target.hostIp target.buPoint target.volName] else []) ++
        if mountFailed target.isItNew txn.answers then []
        else [.backup target.user txn.client target.path target.buPoint target.volName] := by
    rw [← htarget]
    rw [loggedCommands, eventOf_input, hreq]
    rfl
  have hmount : (Command.mount target.hostIp target.buPoint target.volName).text.length =
      23 + target.hostIp.length + 2 * target.volName.length + target.buPoint.length := by
    rw [Command.text, mountInstr_length, mountPoint_length]
    omega
  have hcopy : (Command.backup target.user txn.client target.path target.buPoint
      target.volName).text.length = 16 + target.user.length + 2 * txn.client.length +
        2 * target.path.length + target.buPoint.length + target.volName.length := by
    rw [Command.text, backupRsyncInstr_length, backupLocation_length, mountPoint_length]
    omega
  rw [hlogged, List.forall_mem_append]
  cases hnew : target.isItNew with
  | false =>
    simp only [mountFailed, Bool.false_and, Bool.false_eq_true, if_false, List.forall_mem_singleton,
      List.not_mem_nil, false_implies, implies_true, true_and, hcopy, true_or, true_implies]
    omega
  | true =>
    by_cases hstatus : txn.answers.mount = 0
    · simp only [mountFailed, hstatus, Bool.true_and, ne_eq, not_true_eq_false, decide_false,
        Bool.false_eq_true, if_true, if_false, List.forall_mem_singleton, hmount, hcopy,
        true_implies, or_true]
      omega
    · simp only [mountFailed, hstatus, Bool.true_and, ne_eq, not_false_eq_true, decide_true,
        if_true, List.forall_mem_singleton, hmount, true_implies, Bool.true_eq_false, or_self,
        List.not_mem_nil, false_implies, implies_true, and_true]
      omega

/-- The limits of a backup. -/
theorem backup_contained_iff {srv : Server} {txn : ClientTxn}
    {request : NdmpDataStartBackupRequest} (hreq : txn.request = .dataStartBackup request) :
    (∀ u ∈ txn.memoryUses srv, u.Sound) ∧ (∀ call : LogCall, call.address = txn.client →
      (∃ c ∈ loggedCommands (eventOf srv txn), c.text = call.message) →
        ∀ b ∈ call.buffers, b.Fits) ↔
    ∃ path user hostIp buPoint volName,
      BackupLimits request txn srv.world.glusterVolUsage path user hostIp buPoint volName := by
  have huses : txn.memoryUses srv = requestUses 30 txn request.buType request.env ++
      backupScans txn.answers srv.world.glusterVolUsage ++
      (backupTarget request.env txn.client txn.locals txn.answers srv.world).uses txn.client
        txn.answers := by
    rw [ClientTxn.memoryUses, hreq]
  rw [huses, List.forall_mem_append, List.forall_mem_append, requestUses_sound_iff,
    backupScans_sound_iff, BackupTarget.uses_sound_iff]
  constructor
  · rintro ⟨⟨⟨hslots, hscanned, hentries, htyped, hostIp, buPoint, hread⟩, hprompt, hvol, hmount⟩,
      hlogs⟩
    obtain ⟨path, hpath⟩ := Option.ne_none_iff_exists'.1 hslots.filesystem
    obtain ⟨user, huser⟩ := Option.ne_none_iff_exists'.1 hslots.user
    have hclient := hslots.client_lt
    obtain ⟨hpathT, huserT, hhostT, hpointT⟩ :=
      backupTarget_pieces txn hpath huser hread.host_eq
    obtain ⟨hnew, hvolT⟩ := backupTarget_volume txn hpath hentries.1
    rw [logs_fit_iff srv (by omega), backup_logged_iff hreq rfl, hpathT, huserT, hhostT,
      hpointT] at hlogs
    rw [hhostT] at hmount
    refine ⟨path, user, hostIp, buPoint, _, {
      slots := hslots
      scanned := hscanned
      entries := hentries
      typed := htyped
      path_eq := hpath
      user_eq := huser
      host_eq := hread.host_eq
      volName_eq := ?_
      hostIp_lt := hread.hostIp_lt
      buPoint_lt := hread.buPoint_lt
      volName_lt := hvol
      mount := fun hkey => ⟨hmount (hnew.2 hkey), hlogs.1 (hnew.2 hkey)⟩
      copy := fun hcopy => hlogs.2 (hcopy.imp_left fun hkey => ?_) }⟩
    · rw [hvolT]
      cases hconfigured : configuredVolume srv.world.glusterVolUsage
        (clientIpFs txn.client path) with
      | some volName => rfl
      | none =>
        obtain ⟨typed, htypedEq⟩ := Option.isSome_iff_exists.1
          (hprompt (hnew.2 ((configuredVolume_eq_none_iff hentries.1).1 hconfigured)))
        rw [typedVolume, htypedEq]
        rfl
    · rw [← Bool.not_eq_true, hnew]
      exact not_not.2 hkey
  · rintro ⟨path, user, hostIp, buPoint, volName, h⟩
    have hclient := h.slots.client_lt
    obtain ⟨hpathT, huserT, hhostT, hpointT, hvol, hnew⟩ := h.target
    have hprompt : (backupTarget request.env txn.client txn.locals txn.answers
        srv.world).isItNew = true → txn.answers.volName.isSome :=
      fun hisNew => Option.isSome_iff_exists.2 ⟨volName, h.volName_typed (hnew.1 hisNew)⟩
    refine ⟨⟨⟨h.slots, h.scanned, h.entries, h.typed, hostIp, buPoint, h.host_eq, h.hostIp_lt,
      h.buPoint_lt⟩, hprompt, hvol ▸ h.volName_lt, ?_⟩, ?_⟩
    · rw [hhostT]
      exact fun hisNew => (h.mount (hnew.1 hisNew)).1
    · rw [logs_fit_iff srv (by omega), backup_logged_iff hreq rfl, hpathT, huserT, hhostT,
        hpointT, hvol]
      refine ⟨fun hisNew => (h.mount (hnew.1 hisNew)).2, fun hcopy => h.copy ?_⟩
      refine hcopy.imp_left fun hold => ?_
      rw [← Bool.not_eq_true, hnew] at hold
      exact not_not.1 hold

/-! ## A recovery -/

theorem nameWrites_inside_iff (names : List NdmpName) :
    (∀ w ∈ eachSlot 5 nameWrites names, w.Inside) ↔ names.length ≤ 5 ∧
      ∀ n ∈ names, n.originalPath.length < 64 ∧ n.destinationDir.length < 64 ∧
        n.newName.length < 64 ∧ n.otherName.length < 64 := by
  simp only [nameWrites, eachSlot_inside, List.forall_mem_cons, strcpyWrite_inside,
    List.not_mem_nil, false_implies, implies_true, and_true]

theorem recoverScans_sound_iff (file : CString) :
    (∀ u ∈ recoverScans file, u.Sound) ↔
      FileLimits 20 (words file) ∧ 2 ≤ (words file).length ∧ (words file).length ≠ 3 := by
  have hscans := initVolFsList_scans_fit_iff (words file)
  simp only [recoverScans, List.forall_mem_append, forall_sound_fill, List.forall_mem_cons,
    sound_read, decide_eq_true_eq, List.not_mem_nil, false_implies, implies_true, and_true]
  exact and_congr_left' hscans

section

variable (txn : ClientTxn) {request : NdmpDataStartRecoverRequest} {w : World}
  {path user buPoint : CString} {name : NdmpName}

theorem recoverTarget_path (hpath : envValue "FILESYSTEM".toList request.env = some path) :
    (recoverTarget request txn.client txn.locals w).path = path := by
  show clientPathOf request.env txn.locals = path
  rw [clientPathOf, hpath, Option.getD_some]

/-- The target of a recovery whose pieces are there. -/
theorem recoverTarget_pieces (hpath : envValue "FILESYSTEM".toList request.env = some path)
    (huser : envValue "USER".toList request.env = some user)
    (hpoint : (words w.glusterVolUsage)[1]? = some buPoint)
    (hkey : clientIpFs txn.client path ∈ entryKeys ((words w.glusterVolUsage).drop 2))
    (hname : request.nlist.head? = some name) :
    let target := recoverTarget request txn.client txn.locals w
    target.user = user ∧ target.buPoint = buPoint ∧ target.name = name ∧
      target.volName = lastVolume w.glusterVolUsage (clientIpFs txn.client path) := by
  refine ⟨?_, ?_, ?_, ?_⟩
  · show userNameOf request.env txn.locals = user
    rw [userNameOf, huser, Option.getD_some]
  · show (scanHost txn.locals.scan (words w.glusterVolUsage)).2.1 = buPoint
    generalize words w.glusterVolUsage = ws at hpoint
    obtain _ | ⟨_, _ | ⟨_, ws⟩⟩ := ws <;> cases hpoint
    rfl
  · show request.nlist.head?.getD txn.locals.name = name
    rw [hname, Option.getD_some]
  · show recoverVolume (scanNodes txn.locals.scan.node
      (scanHost txn.locals.scan (words w.glusterVolUsage)).2.2)
        (clientIpFs txn.client (clientPathOf request.env txn.locals)) txn.locals = _
    rw [scanHost_rest, clientPathOf, hpath, Option.getD_some]
    exact recoverVolume_congr hkey _ _ _ _

end

theorem volName_mem_of_mem_scanNodes {ws : List CString} (node : VolFsNode) :
    ∀ n ∈ scanNodes node ws, n.volName ∈ volumePlaces ws := by
  induction node, ws using scanNodes.induct with
  | case1 node volName filesystem user ws ih =>
    intro n hn
    rcases List.mem_cons.1 hn with rfl | hn
    · exact List.mem_cons_self
    · exact List.mem_cons_of_mem _ (ih n hn)
  | case2 | case3 =>
    intro n hn
    rw [List.mem_singleton.1 hn]
    exact List.mem_singleton_self _
  | case4 => exact fun _ hn => absurd hn List.not_mem_nil

/-- The volume of a key is one of the words that are read as volumes. -/
theorem lastVolume_mem {file key : CString} (hkey : key ∈ entryKeys ((words file).drop 2)) :
    lastVolume file key ∈ volumePlaces ((words file).drop 2) := by
  rw [lastVolume, recoverVolume]
  cases hlast : Register.lastWrite (fun node => if node.filesystem = key then some node.volName
      else none) (scanNodes default ((words file).drop 2)) with
  | none =>
    obtain ⟨n, hn, rfl⟩ := exists_scanNodes_of_mem_entryKeys default hkey
    have hnone := (Register.lastWrite_eq_none _).1 hlast n hn
    rw [if_pos rfl] at hnone
    cases hnone
  | some volName =>
    obtain ⟨as, n, bs, hsplit, hwrite, -⟩ := (Register.lastWrite_eq_some _).1 hlast
    split at hwrite
    · cases hwrite
      exact volName_mem_of_mem_scanNodes default n (hsplit ▸ List.mem_append_cons_self)
    · cases hwrite

/-- The line a recovery logs. -/
theorem recover_logged_iff {srv : Server} {txn : ClientTxn} {request : NdmpDataStartRecoverRequest}
    (hreq : txn.request = .dataStartRecover request) {target : RecoverTarget}
    (htarget : recoverTarget request txn.client txn.locals srv.world = target) :
    (∀ c ∈ loggedCommands (eventOf srv txn), c.text.length + txn.client.length ≤ 206) ↔
      target.buPoint.length + target.volName.length + target.path.length +
        target.name.originalPath.length + target.user.length + target.name.destinationDir.length +
          3 * txn.client.length ≤ 191 := by
  have hlogged : loggedCommands (eventOf srv txn) =
      [.recover target.buPoint target.volName txn.client target.path target.name.originalPath
        target.user target.name.destinationDir] := by
    rw [← htarget]
    rw [loggedCommands, eventOf_input, hreq]
    rfl
  rw [hlogged, List.forall_mem_singleton, Command.text, recoverRsyncInstr_length,
    recoverSource_length, mountPoint_length]
  omega

/-- The limits of a recovery. -/
theorem recover_contained_iff {srv : Server} {txn : ClientTxn}
    {request : NdmpDataStartRecoverRequest} (hreq : txn.request = .dataStartRecover request) :
    (∀ u ∈ txn.memoryUses srv, u.Sound) ∧ (∀ call : LogCall, call.address = txn.client →
      (∃ c ∈ loggedCommands (eventOf srv txn), c.text = call.message) →
        ∀ b ∈ call.buffers, b.Fits) ↔
    ∃ path user buPoint name,
      RecoverLimits request txn srv.world.glusterVolUsage path user buPoint name := by
  have huses : txn.memoryUses srv = requestUses 20 txn request.buType request.env ++
      recoverScans srv.world.glusterVolUsage ++ recoverUses request txn srv.world := by
    rw [ClientTxn.memoryUses, hreq]
  rw [huses, List.forall_mem_append, List.forall_mem_append, requestUses_sound_iff,
    recoverScans_sound_iff]
  simp only [recoverUses, List.forall_mem_append, forall_sound_write, nameWrites_inside_iff,
    List.forall_mem_cons, sound_read, sound_fill, decide_eq_true_eq, List.contains_iff_mem,
    List.not_mem_nil, false_implies, implies_true, and_true, forall_sound_fill, Bool.not_eq_true',
    List.isEmpty_eq_false_iff]
  constructor
  · rintro ⟨⟨⟨hslots, hscanned, hhost, hentries⟩,
      ⟨⟨hnamesLe, hnames⟩, hkey, -, hname, hmount⟩, -⟩, hlogs⟩
    obtain ⟨path, hpath⟩ := Option.ne_none_iff_exists'.1 hslots.filesystem
    obtain ⟨user, huser⟩ := Option.ne_none_iff_exists'.1 hslots.user
    obtain ⟨name, names, hnlist⟩ := List.exists_cons_of_ne_nil hname
    have hhead : request.nlist.head? = some name := by
      rw [hnlist]
      rfl
    have hsecond : 1 < (words srv.world.glusterVolUsage).length := by omega
    have hpoint : (words srv.world.glusterVolUsage)[1]? = some
        (words srv.world.glusterVolUsage)[1] := List.getElem?_eq_getElem hsecond
    have hclient := hslots.client_lt
    rw [recoverTarget_path txn hpath] at hkey
    obtain ⟨huserT, hpointT, hnameT, hvolT⟩ :=
      recoverTarget_pieces txn hpath huser hpoint hkey hhead
    rw [logs_fit_iff srv (by omega), recover_logged_iff hreq rfl, recoverTarget_path txn hpath,
      huserT, hpointT, hnameT, hvolT] at hlogs
    exact ⟨path, user, _, name, {
      slots := hslots
      scanned := hscanned
      entries := hentries
      path_eq := hpath
      user_eq := huser
      buPoint_eq := hpoint
      entry := hkey
      names_le := hnamesLe
      names := hnames
      name_eq := hhead
      mountPoint := hmount
      copy := hlogs }⟩
  · rintro ⟨path, user, buPoint, name, h⟩
    have hclient := h.slots.client_lt
    obtain ⟨huserT, hpointT, hnameT, hvolT⟩ :=
      recoverTarget_pieces txn h.path_eq h.user_eq h.buPoint_eq h.entry h.name_eq
    have hpathT := @recoverTarget_path txn request srv.world path h.path_eq
    have htwo : 2 ≤ (words srv.world.glusterVolUsage).length := by
      have hlt := (List.getElem?_eq_some_iff.1 h.buPoint_eq).1
      omega
    refine ⟨⟨⟨h.slots, h.scanned, htwo, h.entries⟩, ⟨⟨h.names_le, h.names⟩, ?_, ?_, ?_,
      h.mountPoint⟩, fun b hb => fits_recoverBuffers hb⟩, ?_⟩
    · rw [hpathT]
      exact h.entry
    · rw [hvolT]
      exact h.scanned.volumes _ (lastVolume_mem h.entry)
    · rintro hnil
      have hname := h.name_eq
      rw [hnil] at hname
      cases hname
    · rw [logs_fit_iff srv (by omega), recover_logged_iff hreq rfl, hpathT, huserT, hpointT,
        hnameT, hvolT]
      exact h.copy

/-! ## Replies -/

/-- The mark and the header take 28 bytes. -/
theorem fits_body_iff (header : NdmpHeader) (body : NdmpReplyBody) :
    NdmpReply.Fits ⟨header, some body⟩ ↔ body.encode.length ≤ 2020 := by
  rw [NdmpReply.Fits, length_frame, NdmpReply.encode, List.length_append, length_header]
  show 4 + (24 + body.encode.length) ≤ 2048 ↔ _
  omega

/-- A body that is short enough fits, and so does a header alone. -/
theorem Server.reply_fits (srv : Server) (txn : ClientTxn) (error : Int) {body : NdmpReplyBody}
    (h : body.encode.length ≤ 2020) :
    ∀ reply, (srv.reply txn error body).2 = .message reply → reply.Fits := by
  rintro reply ⟨⟩
  by_cases herror : error = NdmpError.noErr
  · rw [if_pos herror]
    exact (fits_body_iff _ _).2 h
  · rw [if_neg herror]
    exact fits_of_body_eq_none rfl

/-- A body with `NDMP_NO_ERR` fits only if it is short enough. -/
theorem Server.reply_noErr_fits_iff (srv : Server) (txn : ClientTxn) (body : NdmpReplyBody) :
    (∀ reply, (srv.reply txn NdmpError.noErr body).2 = .message reply → reply.Fits) ↔
      body.encode.length ≤ 2020 := by
  constructor
  · exact fun h => (fits_body_iff _ _).1 (h _ rfl)
  · exact srv.reply_fits txn _

/-- The replies whose bodies do not depend on the environment or the machine. -/
theorem ndmpConfig_fixed_fits {os : ConfigAnswers} {request : NdmpConfigRequest}
    {reply : NdmpConfigReply} (hreply : ndmpConfig os request = .ok reply)
    (hrequest : request ≠ .getHostInfo ∧ request ≠ .getScsiInfo) :
    (NdmpReplyBody.config reply).encode.length ≤ 2020 := by
  obtain ⟨hhost, hscsi⟩ := hrequest
  cases request with
  | getHostInfo => exact absurd rfl hhost
  | getScsiInfo => exact absurd rfl hscsi
  | getConnectionType | getButypeInfo | getTapeInfo | getServerInfo =>
    cases hreply
    decide +kernel
  | getAuthAttr authType =>
    simp only [ndmpConfig, ndmpConfigGetAuthAttr] at hreply
    split at hreply
    · cases hreply
      decide
    · cases hreply
  | getFsInfo =>
    simp only [ndmpConfig] at hreply
    cases hstatvfs : os.statvfs with
    | none =>
      rw [ndmpConfigGetFsInfo, hstatvfs] at hreply
      cases hreply
    | some st =>
      rw [ndmpConfigGetFsInfo_eq hstatvfs] at hreply
      cases hreply
      show (noErrWord ++ (Codec.array Reply.ndmpFsInfo).encode [fsInfoOf st]).length ≤ 2020
      have hquad (q : NdmpUQuad) : (Wire.ndmpUQuad.encode q).length = 8 := by
        show (putLong q.high ++ putLong q.low).length = 8
        rw [List.length_append, length_putLong, length_putLong]
      have hinfo : (Reply.ndmpFsInfo.encode (fsInfoOf st)).length = 88 := by
        show (putLong 0 ++ (Reply.cstring.encode "glusterfs".toList ++
          (Reply.cstring.encode fsMount ++ (Reply.cstring.encode fsMount ++
            ((Wire.ndmpUQuad.encode _ ++ (Wire.ndmpUQuad.encode _ ++ (Wire.ndmpUQuad.encode _ ++
              (Wire.ndmpUQuad.encode _ ++ Wire.ndmpUQuad.encode _)))) ++
                ((Codec.array Reply.ndmpPval).encode [] ++
                  Reply.cstring.encode "up".toList)))))).length = 88
        simp only [List.length_append, hquad, length_putLong, Reply.length_cstring, length_pairs]
        decide
      rw [List.length_append, Codec.length_array, List.map_singleton, List.sum_singleton, hinfo]
      decide

/-! ## Within its memory -/

theorem dispatch_transfer_fits (srv : Server) {txn : ClientTxn} (hstart : txn.request.isStart) :
    ∀ reply, (srv.dispatch txn).2 = .message reply → reply.Fits := by
  unfold Server.dispatch
  cases hreq : txn.request with
  | dataStartBackup | dataStartRecover => exact Server.reply_fits _ _ _ (by decide)
  | _ =>
    rw [hreq] at hstart
    cases hstart

/-- A request that runs no command logs none. -/
theorem logs_of_not_isStart (srv : Server) {txn : ClientTxn} (hstart : txn.request.isStart = false)
    (call : LogCall) (h : ∃ c ∈ loggedCommands (eventOf srv txn), c.text = call.message) :
    ∀ b ∈ call.buffers, b.Fits := by
  obtain ⟨c, hc, -⟩ := h
  have hnone : loggedCommands (eventOf srv txn) = [] := by
    rw [loggedCommands, eventOf_input]
    cases hreq : txn.request with
    | dataStartBackup | dataStartRecover =>
      rw [hreq] at hstart
      cases hstart
    | _ => rfl
  rw [hnone] at hc
  cases hc

/-- Without a transfer, there are the variables and the reply. -/
theorem contained_iff_of_not_isStart (srv : Server) {txn : ClientTxn}
    (hstart : txn.request.isStart = false) :
    Contained srv txn ↔ (∀ u ∈ txn.memoryUses srv, u.Sound) ∧
      ∀ reply, (srv.dispatch txn).2 = .message reply → reply.Fits :=
  ⟨fun h => ⟨h.uses, h.reply⟩,
    fun h => ⟨h.1, fun call _ => logs_of_not_isStart srv hstart call, h.2⟩⟩

theorem contained_of_fits {srv : Server} {txn : ClientTxn} (hstart : txn.request.isStart = false)
    (huses : txn.memoryUses srv = [])
    (hreply : ∀ reply, (srv.dispatch txn).2 = .message reply → reply.Fits) : Contained srv txn :=
  (contained_iff_of_not_isStart srv hstart).2 ⟨huses ▸ List.forall_mem_nil _, hreply⟩

theorem fits_hostInfo_iff (hostname sysname version : CString) :
    (NdmpReplyBody.config (.hostInfo hostname sysname version "1".toList)).encode.length ≤ 2020 ↔
      Codec.padded hostname.length + Codec.padded sysname.length + Codec.padded version.length ≤
        1996 := by
  have hid : (Reply.cstring.encode "1".toList).length = 8 := by decide
  show (noErrWord ++ (Reply.cstring.encode _ ++ Reply.cstring.encode _ ++ Reply.cstring.encode _ ++
    Reply.cstring.encode "1".toList)).length ≤ 2020 ↔ _
  simp only [List.length_append, length_noErrWord, hid, Reply.length_cstring]
  omega

/-- The limits of a CONFIG request. -/
theorem config_contained_iff (srv : Server) {txn : ClientTxn} {request : NdmpConfigRequest}
    (hreq : txn.request = .config request) : Contained srv txn ↔ WithinLimits srv txn := by
  rw [contained_iff_of_not_isStart srv (by rw [hreq]; rfl)]
  unfold ClientTxn.memoryUses WithinLimits Server.dispatch
  simp only [hreq]
  cases request with
  | getHostInfo =>
    simp only [List.forall_mem_cons, sound_read, List.not_mem_nil, false_implies, implies_true,
      and_true, ndmpConfig, ndmpConfigGetHostInfo]
    cases hhost : txn.answers.config.hostname with
    | none => simp
    | some hostname =>
      cases huname : txn.answers.config.uname with
      | none => simp
      | some u =>
        obtain ⟨sysname, version⟩ := u
        simp only [Option.isSome_some, true_and, Server.reply_noErr_fits_iff, fits_hostInfo_iff,
          Option.some.injEq, Prod.mk.injEq, and_self]
        constructor
        · exact fun h => ⟨_, _, _, rfl, ⟨rfl, rfl⟩, h⟩
        · rintro ⟨_, _, _, rfl, ⟨rfl, rfl⟩, h⟩
          exact h
  | getScsiInfo =>
    simp only [List.forall_mem_singleton, sound_read, Bool.not_eq_true', List.isEmpty_eq_false_iff,
      ndmpConfig, ndmpConfigGetScsiInfo]
    refine and_congr_right fun hdevices => ?_
    simp only [if_pos (List.length_pos_iff.2 hdevices), Server.reply_noErr_fits_iff]
    show (noErrWord ++ (Codec.array Reply.ndmpDeviceInfo).encode _).length ≤ 2020 ↔ _
    rw [List.length_append, length_noErrWord]
    omega
  | getFsInfo =>
    simp only [List.forall_mem_singleton, sound_read, Option.isSome_iff_ne_none]
    refine and_iff_left fun reply => ?_
    split
    · rename_i body hbody
      exact Server.reply_fits _ _ _ (ndmpConfig_fixed_fits hbody ⟨by simp, by simp⟩) reply
    · rintro ⟨⟩
      exact fits_of_body_eq_none rfl
  | getConnectionType | getAuthAttr | getButypeInfo | getTapeInfo | getServerInfo =>
    refine iff_of_true ⟨List.forall_mem_nil _, fun reply => ?_⟩ trivial
    split
    · rename_i body hbody
      exact Server.reply_fits _ _ _ (ndmpConfig_fixed_fits hbody ⟨by simp, by simp⟩) reply
    · rintro ⟨⟩
      exact fits_of_body_eq_none rfl

theorem getEnv_contained_iff (srv : Server) {txn : ClientTxn} (hreq : txn.request = .dataGetEnv) :
    Contained srv txn ↔ WithinLimits srv txn := by
  rw [contained_iff_of_not_isStart srv (by rw [hreq]; rfl)]
  unfold ClientTxn.memoryUses WithinLimits Server.dispatch
  simp only [hreq, forall_sound_write, fillGetEnv_inside, ndmpDataGetEnv_eq,
    Server.reply_noErr_fits_iff]
  refine and_congr_right fun _ => ?_
  show (noErrWord ++ (Codec.array Reply.ndmpPval).encode srv.environment).length ≤ 2020 ↔ _
  rw [List.length_append, length_noErrWord, length_pairs]
  omega

/-- **Memory.** A request is handled within its memory if and only if it is within limits. -/
theorem contained_iff (srv : Server) (txn : ClientTxn) :
    Contained srv txn ↔ WithinLimits srv txn := by
  cases hreq : txn.request with
  | dataStartBackup request =>
    have hstart : txn.request.isStart := by
      rw [hreq]
      rfl
    have hreply := dispatch_transfer_fits srv hstart
    rw [WithinLimits, hreq]
    show _ ↔ ∃ path user hostIp buPoint volName, BackupLimits _ _ _ _ _ _ _ _
    rw [← backup_contained_iff hreq]
    exact ⟨fun h => ⟨h.uses, h.logs⟩, fun h => ⟨h.1, h.2, hreply⟩⟩
  | dataStartRecover request =>
    have hstart : txn.request.isStart := by
      rw [hreq]
      rfl
    have hreply := dispatch_transfer_fits srv hstart
    rw [WithinLimits, hreq]
    show _ ↔ ∃ path user buPoint name, RecoverLimits _ _ _ _ _ _ _
    rw [← recover_contained_iff hreq]
    exact ⟨fun h => ⟨h.uses, h.logs⟩, fun h => ⟨h.1, h.2, hreply⟩⟩
  | config request => exact config_contained_iff srv hreq
  | dataGetEnv => exact getEnv_contained_iff srv hreq
  | dataGetState =>
    have hreply : ∀ reply, (srv.dispatch txn).2 = .message reply → reply.Fits := by
      simp [Server.dispatch, hreq]
    rw [contained_iff_of_not_isStart srv (by rw [hreq]; rfl), and_iff_left hreply,
      ClientTxn.memoryUses, WithinLimits, hreq]
    cases (srv.session txn.sessionId).isTerminated with
    | true => simp
    | false =>
      rw [if_neg (by decide), List.forall_mem_singleton, forall_prop_of_true rfl]
      exact Nat.add_le_add_iff_right (n := 4) (k := 2044)
  | connectClose =>
    rw [WithinLimits, hreq]
    refine iff_of_true (contained_of_fits (by rw [hreq]; rfl) ?_ ?_) trivial
    · rw [ClientTxn.memoryUses, hreq]
    · simp [Server.dispatch, hreq]
  | acceptNotify =>
    rw [WithinLimits, hreq]
    refine iff_of_true (contained_of_fits (by rw [hreq]; rfl) ?_ ?_) trivial
    · rw [ClientTxn.memoryUses, hreq]
    · unfold Server.dispatch
      simp only [hreq]
      rintro reply ⟨⟩
      exact (fits_body_iff _ _).2 (by decide)
  | errorMessage =>
    rw [WithinLimits, hreq]
    refine iff_of_true (contained_of_fits (by rw [hreq]; rfl) ?_ ?_) trivial
    · rw [ClientTxn.memoryUses, hreq]
    · unfold Server.dispatch
      simp only [hreq]
      rintro reply ⟨⟩
      exact fits_of_body_eq_none rfl
  | dataConnect request =>
    have hreply : ∀ reply, (srv.dispatch txn).2 = .message reply → reply.Fits := by
      unfold Server.dispatch
      simp only [hreq]
      exact Server.reply_fits _ _ _ (by decide)
    rw [contained_iff_of_not_isStart srv (by rw [hreq]; rfl), and_iff_left hreply,
      ClientTxn.memoryUses, WithinLimits, hreq]
    show (∀ u ∈ [MemoryUse.read _], u.Sound) ↔ _
    rw [List.forall_mem_singleton, sound_read, Bool.or_eq_true, decide_eq_true_eq,
      decide_eq_true_eq]
  | connectOpen | dataAbort | dataStop | dataListen =>
    rw [WithinLimits, hreq]
    refine iff_of_true (contained_of_fits (by rw [hreq]; rfl) ?_ ?_) trivial
    · rw [ClientTxn.memoryUses, hreq]
    · unfold Server.dispatch
      simp only [hreq]
      exact Server.reply_fits _ _ _ (by decide)

end GlfsNdmp
