import GlfsNdmp.Transfers

/-!
# Variables that were not set

A handler declares its locals without values, and some are read before anything was written to
them. Two runs of a request that differ in nothing but `Locals` show where.

`givenOnly_iff`: neither transfer checks that the pieces of its commands are there. It refuses what
is incomplete on no input, and its commands depend on the locals of any input that is.
-/

namespace GlfsNdmp

/-- The same request, handled with other contents in the handlers' local variables. -/
def ClientTxn.withLocals (txn : ClientTxn) (locals : Locals) : ClientTxn :=
  { txn with locals := locals }

@[simp] theorem ClientTxn.withLocals_request (txn : ClientTxn) (locals : Locals) :
    (txn.withLocals locals).request = txn.request := rfl

@[simp] theorem ClientTxn.withLocals_locals (txn : ClientTxn) (locals : Locals) :
    (txn.withLocals locals).locals = locals := rfl

@[simp] theorem ClientTxn.withLocals_answers (txn : ClientTxn) (locals : Locals) :
    (txn.withLocals locals).answers = txn.answers := rfl

@[simp] theorem ClientTxn.withLocals_client (txn : ClientTxn) (locals : Locals) :
    (txn.withLocals locals).client = txn.client := rfl

@[simp] theorem ClientTxn.withLocals_sessionId (txn : ClientTxn) (locals : Locals) :
    (txn.withLocals locals).sessionId = txn.sessionId := rfl

/-! ## Scans that find what they scan for -/

theorem scanHost_congr {ws : List CString} (h : 2 ≤ ws.length) (buf buf' : ScanBuffers) :
    scanHost buf ws = scanHost buf' ws := by
  match ws, h with
  | _ :: _ :: _, _ => rfl

/-- What follows the host line is read from the file alone. -/
theorem scanHost_rest (ws : List CString) (buf : ScanBuffers) :
    (scanHost buf ws).2.2 = ws.drop 2 := by
  match ws with
  | [] | [_] | _ :: _ :: _ => rfl

/-- The buffers show in a last turn of the loop only, as a key, if it finds one word. -/
theorem scanNodes_entries {ws : List CString} (h : ws.length ≠ 1) (node node' : VolFsNode) :
    (scanNodes node ws).map (fun n => (n.filesystem, n.volName)) =
      (scanNodes node' ws).map fun n => (n.filesystem, n.volName) := by
  match ws, h with
  | [], _ | [_, _], _ | _ :: _ :: _ :: _, _ => rfl

theorem find_volName_congr {nodes nodes' : List VolFsNode}
    (h : nodes.map (fun n => (n.filesystem, n.volName)) =
      nodes'.map fun n => (n.filesystem, n.volName)) (key : CString) :
    (find nodes key).map VolFsNode.volName = (find nodes' key).map VolFsNode.volName := by
  have hfind (l : List VolFsNode) : (find l key).map VolFsNode.volName =
      ((l.map fun n => (n.filesystem, n.volName)).find? fun p => p.1 == key).map Prod.snd := by
    rw [List.find?_map, Option.map_map]
    rfl
  rw [hfind, hfind, h]

theorem lastWrite_volName_congr {nodes nodes' : List VolFsNode}
    (h : nodes.map (fun n => (n.filesystem, n.volName)) =
      nodes'.map fun n => (n.filesystem, n.volName)) (key : CString) :
    Register.lastWrite (fun node => if node.filesystem = key then some node.volName else none)
        nodes =
      Register.lastWrite (fun node => if node.filesystem = key then some node.volName else none)
        nodes' := by
  have hwrite (l : List VolFsNode) :
      Register.lastWrite (fun node => if node.filesystem = key then some node.volName else none)
          l =
        Register.lastWrite (fun p => if p.1 = key then some p.2 else none)
          (l.map fun n => (n.filesystem, n.volName)) := by
    rw [Register.lastWrite, Register.lastWrite, List.filterMap_map]
    rfl
  rw [hwrite, hwrite, h]

/-- The mounts of `init_vol_fs_list` come from the file alone. -/
theorem remounts_congr (buf buf' : ScanBuffers) (ret : Nat → Int) (w : World) :
    remounts buf ret w = remounts buf' ret w := by
  unfold remounts
  match words w.glusterVolUsage with
  | [] | [_] => rfl
  | [_, _] | [_, _, _] | [_, _, _, _] | _ :: _ :: _ :: _ :: _ :: _ => rfl

/-- The keys of the entries after the host line. -/
def entryKeys : List CString → List CString
  | _ :: filesystem :: _ :: ws => filesystem :: entryKeys ws
  | [_, filesystem] => [filesystem]
  | _ => []

/-- Every entry is read, whatever the buffers hold. -/
theorem exists_scanNodes_of_mem_entryKeys {ws : List CString} {key : CString} (node : VolFsNode)
    (h : key ∈ entryKeys ws) : ∃ n ∈ scanNodes node ws, n.filesystem = key := by
  induction node, ws using scanNodes.induct with
  | case1 node volName filesystem user ws ih =>
    rcases List.mem_cons.1 h with rfl | h
    · exact ⟨_, List.mem_cons_self, rfl⟩
    · obtain ⟨n, hn, hkey⟩ := ih h
      exact ⟨n, List.mem_cons_of_mem _ hn, hkey⟩
  | case2 node volName filesystem =>
    exact ⟨_, List.mem_singleton_self _, (List.mem_singleton.1 h).symm⟩
  | case3 | case4 => cases h

/-- A last turn that finds one word shows the key of the turn before. -/
theorem filesystem_mem_of_mem_scanNodes {ws : List CString} (node : VolFsNode) :
    ∀ n ∈ scanNodes node ws, n.filesystem ∈ node.filesystem :: entryKeys ws := by
  induction node, ws using scanNodes.induct with
  | case1 node volName filesystem user ws ih =>
    intro n hn
    rcases List.mem_cons.1 hn with rfl | hn
    · exact List.mem_cons_of_mem _ List.mem_cons_self
    · exact List.mem_cons_of_mem _ (ih n hn)
  | case2 node volName filesystem =>
    rintro n hn
    rw [List.mem_singleton.1 hn]
    exact List.mem_cons_of_mem _ (List.mem_singleton_self _)
  | case3 node volName =>
    rintro n hn
    rw [List.mem_singleton.1 hn]
    exact List.mem_cons_self
  | case4 => exact fun _ hn => absurd hn List.not_mem_nil

/-- Unless it stops after one word, a reader finds a key if and only if an entry has it. -/
theorem find_scanNodes_eq_none_iff {ws : List CString} (h : ws.length ≠ 1) (node : VolFsNode)
    (key : CString) : find (scanNodes node ws) key = none ↔ key ∉ entryKeys ws := by
  simp only [find, List.find?_eq_none, beq_iff_eq]
  constructor
  · rintro hnone hkey
    obtain ⟨n, hn, rfl⟩ := exists_scanNodes_of_mem_entryKeys node hkey
    exact hnone n hn rfl
  · rintro hkey n hn rfl
    rcases ws with _ | ⟨volName, _ | ⟨filesystem, _ | ⟨user, ws⟩⟩⟩
    · cases hn
    · exact h rfl
    · rw [List.mem_singleton.1 hn] at hkey
      exact hkey (List.mem_singleton_self _)
    · rcases List.mem_cons.1 hn with rfl | hn
      · exact hkey List.mem_cons_self
      · exact hkey (filesystem_mem_of_mem_scanNodes _ n hn)

theorem length_ne_one_of_mem_entryKeys {ws : List CString} {key : CString}
    (h : key ∈ entryKeys ws) : ws.length ≠ 1 := by
  rintro hlength
  obtain ⟨w, rfl⟩ := List.length_eq_one_iff.1 hlength
  cases h

/-- The volume a recovery finds for a key of the file. -/
theorem recoverVolume_congr {ws : List CString} {key : CString} (h : key ∈ entryKeys ws)
    (node node' : VolFsNode) (locals locals' : Locals) :
    recoverVolume (scanNodes node ws) key locals =
      recoverVolume (scanNodes node' ws) key locals' := by
  have hentries := scanNodes_entries (length_ne_one_of_mem_entryKeys h) node node'
  unfold recoverVolume
  rw [lastWrite_volName_congr hentries key]
  obtain ⟨n, hn, hkey⟩ := exists_scanNodes_of_mem_entryKeys node' h
  cases hlast : Register.lastWrite
      (fun node => if node.filesystem = key then some node.volName else none)
      (scanNodes node' ws) with
  | some volName => rfl
  | none =>
    have hnone := (Register.lastWrite_eq_none _).1 hlast n hn
    rw [if_pos hkey] at hnone
    cases hnone

/-! ## The pieces of a transfer -/

/-- The environment names no path or no user, or, for a recovery, no name is asked for, the file
has no host line, or it has no entry for the client's path. -/
def PieceMissing (txn : ClientTxn) (w : World) : Prop :=
  match txn.request with
  | .dataStartBackup request =>
    envValue "FILESYSTEM".toList request.env = none ∨ envValue "USER".toList request.env = none
  | .dataStartRecover request =>
    envValue "FILESYSTEM".toList request.env = none ∨ envValue "USER".toList request.env = none ∨
      request.nlist = [] ∨ (words w.glusterVolUsage).length < 2 ∨
      ∀ path ∈ envValue "FILESYSTEM".toList request.env,
        clientIpFs txn.client path ∉ entryKeys ((words w.glusterVolUsage).drop 2)
  | _ => False

/-- A transfer that misses a piece is refused and runs nothing, and no command of one has a part
that was not set. -/
structure GivenOnly (srv : Server) (txn : ClientTxn) : Prop where
  refuses : PieceMissing txn srv.world →
    (srv.dispatch txn).2.error ≠ some (NdmpError.noErr : Int) ∧ systemCalls srv txn = []
  given : ∀ locals, systemCalls srv (txn.withLocals locals) = systemCalls srv txn

/-- No piece is missing. For a backup, the file has a host line once one could be typed in, it does
not stop one word after it, and a volume is typed in for a path without an entry. -/
structure PiecesGiven (txn : ClientTxn) (w : World) : Prop where
  there : ¬ PieceMissing txn w
  host : ∀ request, txn.request = .dataStartBackup request →
    2 ≤ (words (hostConfigured txn.answers.hostIp txn.answers.buPoint w.glusterVolUsage)).length
  entry : ∀ request, txn.request = .dataStartBackup request →
    (words w.glusterVolUsage).length ≠ 3
  volume : ∀ request, txn.request = .dataStartBackup request →
    ∀ path ∈ envValue "FILESYSTEM".toList request.env,
      clientIpFs txn.client path ∉ entryKeys ((words w.glusterVolUsage).drop 2) →
        txn.answers.volName ≠ none

/-! ## A backup -/

theorem backupTarget_host (env : List NdmpPval) (client : CString) (locals : Locals)
    (answers : Answers) (w : World) :
    ((backupTarget env client locals answers w).hostIp,
        (backupTarget env client locals answers w).buPoint) =
      ((scanHost locals.scan
          (words (hostConfigured answers.hostIp answers.buPoint w.glusterVolUsage))).1,
        (scanHost locals.scan
          (words (hostConfigured answers.hostIp answers.buPoint w.glusterVolUsage))).2.1) := by
  simp only [backupTarget, setHostConfig_glusterVolUsage, initVolFsList_glusterVolUsage]

theorem searched_eq (locals : Locals) (answers : Answers) (w : World) :
    searched locals answers w =
      scanNodes locals.initScan.node ((words w.glusterVolUsage).drop 2) := by
  rw [← scanHost_rest _ locals.initScan]
  rfl

/-- What a backup runs from its target on. -/
def BackupTarget.commands (target : BackupTarget) (client : CString) (answers : Answers) :
    List (CString × Int) :=
  target.mounts answers ++
    if mountFailed target.isItNew answers then [] else target.copy client answers

theorem systemCalls_backup_target (srv : Server) {txn : ClientTxn}
    {request : NdmpDataStartBackupRequest} (hreq : txn.request = .dataStartBackup request) :
    systemCalls srv txn = remounts txn.locals.initScan txn.answers.remount srv.world ++
      (backupTarget request.env txn.client txn.locals txn.answers srv.world).commands txn.client
        txn.answers := by
  rw [systemCalls_backup srv hreq, List.append_assoc]
  rfl

/-- Two runs of a backup run the same if their targets lead to the same commands. -/
theorem systemCalls_backup_eq_iff (srv : Server) {txn : ClientTxn}
    {request : NdmpDataStartBackupRequest} (hreq : txn.request = .dataStartBackup request)
    (locals locals' : Locals) :
    systemCalls srv (txn.withLocals locals) = systemCalls srv (txn.withLocals locals') ↔
      (backupTarget request.env txn.client locals txn.answers srv.world).commands txn.client
          txn.answers =
        (backupTarget request.env txn.client locals' txn.answers srv.world).commands txn.client
          txn.answers := by
  rw [@systemCalls_backup_target srv (txn.withLocals locals) request hreq,
    @systemCalls_backup_target srv (txn.withLocals locals') request hreq]
  simp only [ClientTxn.withLocals_locals, ClientTxn.withLocals_answers,
    ClientTxn.withLocals_client]
  rw [remounts_congr locals.initScan locals'.initScan, List.append_right_inj]

/-- The backup point shows in the commands, whichever of them run. -/
theorem buPoint_length_of_commands {target target' : BackupTarget} {client : CString}
    {answers : Answers} (h : target.commands client answers = target'.commands client answers)
    (hnew : target.isItNew = target'.isItNew) (hhost : target.hostIp = target'.hostIp)
    (hvol : target.volName = target'.volName) (hpath : target.path = target'.path) :
    target.buPoint.length = target'.buPoint.length := by
  unfold BackupTarget.commands BackupTarget.mounts at h
  rw [hnew] at h
  cases hnew' : target'.isItNew with
  | true =>
    simp only [hnew', if_true, List.singleton_append, List.cons.injEq, Prod.mk.injEq] at h
    have hlength := congrArg List.length h.1.1
    rw [mountInstr_length, mountInstr_length, mountPoint_length, mountPoint_length, hhost, hvol]
      at hlength
    omega
  | false =>
    simp only [hnew', mountFailed, Bool.false_and, Bool.false_eq_true, if_false, List.nil_append,
      BackupTarget.copy, List.cons.injEq, Prod.mk.injEq] at h
    have hlength := congrArg List.length h.1.1
    rw [mkdirInstr_length, mkdirInstr_length, BackupTarget.location, BackupTarget.location,
      backupLocation_length, backupLocation_length, mountPoint_length, mountPoint_length, hvol,
      hpath] at hlength
    omega

/-- A new volume shows in its mount. -/
theorem volName_length_of_commands {target target' : BackupTarget} {client : CString}
    {answers : Answers} (h : target.commands client answers = target'.commands client answers)
    (hnew : target.isItNew = true) (hnew' : target'.isItNew = true)
    (hhost : (target.hostIp, target.buPoint) = (target'.hostIp, target'.buPoint)) :
    target.volName.length = target'.volName.length := by
  obtain ⟨hip, hpoint⟩ := Prod.mk.injEq _ _ _ _ ▸ hhost
  unfold BackupTarget.commands BackupTarget.mounts at h
  simp only [hnew, hnew', if_true, List.singleton_append, List.cons.injEq, Prod.mk.injEq] at h
  have hlength := congrArg List.length h.1.1
  rw [mountInstr_length, mountInstr_length, mountPoint_length, mountPoint_length, hip, hpoint]
    at hlength
  omega

/-- Whether the volume is mounted shows in the number of commands. -/
theorem isItNew_of_commands {target target' : BackupTarget} {client : CString}
    {answers : Answers} (h : target.commands client answers = target'.commands client answers) :
    target.isItNew = target'.isItNew := by
  have hlength := congrArg List.length h
  unfold BackupTarget.commands BackupTarget.mounts mountFailed BackupTarget.copy at hlength
  cases hnew : target.isItNew <;> cases hnew' : target'.isItNew <;>
    by_cases hmount : answers.mount = 0 <;> simp [hnew, hnew', hmount] at hlength ⊢

theorem commands_congr {target target' : BackupTarget} (client : CString) (answers : Answers)
    (hhost : (target.hostIp, target.buPoint) = (target'.hostIp, target'.buPoint))
    (hvol : target.volName = target'.volName) (hnew : target.isItNew = target'.isItNew)
    (huser : target.user = target'.user) (hpath : target.path = target'.path) :
    target.commands client answers = target'.commands client answers := by
  obtain ⟨hip, hpoint⟩ := Prod.mk.injEq _ _ _ _ ▸ hhost
  unfold BackupTarget.commands BackupTarget.mounts BackupTarget.copy BackupTarget.location
  rw [hip, hpoint, hvol, hnew, huser, hpath]

/-- Buffers that differ in the key of the entry they hold, read by `init_vol_fs_list`. -/
def Locals.withKey (locals : Locals) (key : CString) : Locals :=
  { locals with
    initScan := { locals.initScan with node := { locals.initScan.node with filesystem := key } } }

/-- Variables that differ in the volume they hold. -/
def Locals.withVolName (locals : Locals) (volName : CString) : Locals :=
  { locals with volName := volName }

/-- Buffers that differ in the backup point they hold, read by the handler. -/
def Locals.withBuPoint (locals : Locals) (buPoint : CString) : Locals :=
  { locals with scan := { locals.scan with buPoint := buPoint } }

section

variable {srv : Server} {txn : ClientTxn} {request : NdmpDataStartBackupRequest}

/-- With nothing missing, a backup runs the same whatever its locals hold. -/
theorem systemCalls_backup_given (hreq : txn.request = .dataStartBackup request)
    (h : PiecesGiven txn srv.world) (locals locals' : Locals) :
    systemCalls srv (txn.withLocals locals) = systemCalls srv (txn.withLocals locals') := by
  have hthere := h.there
  simp only [PieceMissing, hreq, not_or] at hthere
  obtain ⟨path, hpath⟩ := Option.ne_none_iff_exists'.1 hthere.1
  obtain ⟨user, huser⟩ := Option.ne_none_iff_exists'.1 hthere.2
  have hpathOf (l : Locals) : clientPathOf request.env l = path := by
    rw [clientPathOf, hpath, Option.getD_some]
  have huserOf (l : Locals) : userNameOf request.env l = user := by
    rw [userNameOf, huser, Option.getD_some]
  have hentries : ((words srv.world.glusterVolUsage).drop 2).length ≠ 1 := by
    have := h.entry request hreq
    rw [List.length_drop]
    omega
  have hfind : ∀ key,
      (find (searched locals txn.answers srv.world) key).map VolFsNode.volName =
        (find (searched locals' txn.answers srv.world) key).map VolFsNode.volName := by
    intro key
    rw [searched_eq, searched_eq]
    exact find_volName_congr (scanNodes_entries hentries _ _) key
  have hvol : (backupTarget request.env txn.client locals txn.answers srv.world).volName =
      (backupTarget request.env txn.client locals' txn.answers srv.world).volName := by
    rw [backupTarget_volName, backupTarget_volName, hpathOf, hpathOf, hfind]
    by_cases hkey :
        clientIpFs txn.client path ∈ entryKeys ((words srv.world.glusterVolUsage).drop 2)
    · obtain ⟨node, hnode⟩ := Option.ne_none_iff_exists'.1 (mt
        (find_scanNodes_eq_none_iff hentries locals'.initScan.node _).1 (not_not.2 hkey))
      rw [searched_eq, hnode]
      rfl
    · obtain ⟨volName, hvolName⟩ := Option.ne_none_iff_exists'.1
        (h.volume request hreq path hpath hkey)
      rw [typedVolume, typedVolume, hvolName, Option.getD_some, Option.getD_some]
  have hnew : (backupTarget request.env txn.client locals txn.answers srv.world).isItNew =
      (backupTarget request.env txn.client locals' txn.answers srv.world).isItNew := by
    have hnone := congrArg Option.isNone (hfind (clientIpFs txn.client path))
    rw [Option.isNone_map, Option.isNone_map] at hnone
    rw [backupTarget_isItNew, backupTarget_isItNew, hpathOf, hpathOf, hnone]
  refine (systemCalls_backup_eq_iff srv hreq _ _).2 (commands_congr _ _ ?_ hvol hnew ?_ ?_)
  · rw [backupTarget_host, backupTarget_host,
      scanHost_congr (h.host request hreq) locals.scan locals'.scan]
  · exact (huserOf locals).trans (huserOf locals').symm
  · exact (hpathOf locals).trans (hpathOf locals').symm

/-- A backup that runs the same whatever its locals hold has a host line. -/
theorem host_of_given (hreq : txn.request = .dataStartBackup request)
    (h : ∀ locals, systemCalls srv (txn.withLocals locals) = systemCalls srv txn) :
    2 ≤ (words (hostConfigured txn.answers.hostIp txn.answers.buPoint
      srv.world.glusterVolUsage)).length := by
  by_contra hlt
  -- Without one the backup point is what the buffer held.
  have hpoint (b : CString) : (backupTarget request.env txn.client (txn.locals.withBuPoint b)
      txn.answers srv.world).buPoint = b := by
    have hhost := congrArg Prod.snd (backupTarget_host request.env txn.client
      (txn.locals.withBuPoint b) txn.answers srv.world)
    revert hhost hlt
    match words (hostConfigured txn.answers.hostIp txn.answers.buPoint
      srv.world.glusterVolUsage) with
    | [] | [_] => exact fun _ hhost => hhost
    | _ :: _ :: _ => exact fun hlt => absurd (by simp) hlt
  have hip (b : CString) : (backupTarget request.env txn.client (txn.locals.withBuPoint b)
      txn.answers srv.world).hostIp = (backupTarget request.env txn.client txn.locals txn.answers
        srv.world).hostIp := by
    have hhost (l : Locals) := congrArg Prod.fst (backupTarget_host request.env txn.client l
      txn.answers srv.world)
    refine (hhost _).trans (Eq.trans ?_ (hhost _).symm)
    match words (hostConfigured txn.answers.hostIp txn.answers.buPoint
      srv.world.glusterVolUsage) with
    | [] | [_] | _ :: _ :: _ => rfl
  have hran := (systemCalls_backup_eq_iff srv hreq _ _).1
    ((h (txn.locals.withBuPoint [])).trans (h (txn.locals.withBuPoint [' '])).symm)
  have hlength := buPoint_length_of_commands hran rfl ((hip _).trans (hip _).symm) rfl rfl
  rw [hpoint, hpoint] at hlength
  cases hlength

/-- A backup that runs the same whatever its locals hold does not find one word after the host
line: it would look its path up among the keys of the buffer. -/
theorem entry_of_given (hreq : txn.request = .dataStartBackup request)
    (hpath : envValue "FILESYSTEM".toList request.env ≠ none)
    (h : ∀ locals, systemCalls srv (txn.withLocals locals) = systemCalls srv txn) :
    (words srv.world.glusterVolUsage).length ≠ 3 := by
  intro hthree
  obtain ⟨path, hpath⟩ := Option.ne_none_iff_exists'.1 hpath
  have hdrop : ((words srv.world.glusterVolUsage).drop 2).length = 1 := by
    rw [List.length_drop, hthree]
  obtain ⟨volName, hdrop⟩ := List.length_eq_one_iff.1 hdrop
  have hnew (key : CString) : (backupTarget request.env txn.client (txn.locals.withKey key)
      txn.answers srv.world).isItNew = !(key == clientIpFs txn.client path) := by
    rw [backupTarget_isItNew, searched_eq, hdrop, clientPathOf, hpath, Option.getD_some]
    show (find [⟨volName, key, _⟩] _).isNone = _
    cases hkey : key == clientIpFs txn.client path <;> simp [find, hkey]
  have hran := isItNew_of_commands ((systemCalls_backup_eq_iff srv hreq _ _).1
    ((h (txn.locals.withKey (clientIpFs txn.client path))).trans
      (h (txn.locals.withKey (' ' :: clientIpFs txn.client path))).symm))
  rw [hnew, hnew] at hran
  simp at hran

/-- A backup that runs the same whatever its locals hold has a volume typed in for a path without an
entry: `scanf` would leave the variable as it was. -/
theorem volume_of_given (hreq : txn.request = .dataStartBackup request) {path : CString}
    (hpath : envValue "FILESYSTEM".toList request.env = some path)
    (hentry : (words srv.world.glusterVolUsage).length ≠ 3)
    (hkey : clientIpFs txn.client path ∉ entryKeys ((words srv.world.glusterVolUsage).drop 2))
    (h : ∀ locals, systemCalls srv (txn.withLocals locals) = systemCalls srv txn) :
    txn.answers.volName ≠ none := by
  intro hprompt
  have hentries : ((words srv.world.glusterVolUsage).drop 2).length ≠ 1 := by
    rw [List.length_drop]
    omega
  have hfind (l : Locals) :
      find (searched l txn.answers srv.world) (clientIpFs txn.client (clientPathOf request.env l)) =
        none := by
    rw [searched_eq, clientPathOf, hpath, Option.getD_some]
    exact (find_scanNodes_eq_none_iff hentries _ _).2 hkey
  have hvol (v : CString) : (backupTarget request.env txn.client (txn.locals.withVolName v)
      txn.answers srv.world).volName = v := by
    rw [backupTarget_volName, hfind, Option.map_none, Option.getD_none, typedVolume, hprompt]
    rfl
  have hnew (v : CString) : (backupTarget request.env txn.client (txn.locals.withVolName v)
      txn.answers srv.world).isItNew = true := by
    rw [backupTarget_isItNew, hfind]
    rfl
  have hhost (v : CString) := (backupTarget_host request.env txn.client (txn.locals.withVolName v)
    txn.answers srv.world).trans (backupTarget_host request.env txn.client txn.locals txn.answers
      srv.world).symm
  have hran := (systemCalls_backup_eq_iff srv hreq _ _).1
    ((h (txn.locals.withVolName [])).trans (h (txn.locals.withVolName [' '])).symm)
  have hlength := volName_length_of_commands hran (hnew _) (hnew _)
    ((hhost _).trans (hhost _).symm)
  rw [hvol, hvol] at hlength
  cases hlength

end

/-! ## A recovery -/

/-- With nothing missing, a recovery runs the same whatever its locals hold. -/
theorem systemCalls_recover_given {srv : Server} {txn : ClientTxn}
    {request : NdmpDataStartRecoverRequest} (hreq : txn.request = .dataStartRecover request)
    (h : ¬ PieceMissing txn srv.world) (locals locals' : Locals) :
    systemCalls srv (txn.withLocals locals) = systemCalls srv (txn.withLocals locals') := by
  simp only [PieceMissing, hreq, not_or, Nat.not_lt, not_forall, not_not] at h
  obtain ⟨-, huser, hnames, hhost, path, hpath, hkey⟩ := h
  obtain ⟨user, huser⟩ := Option.ne_none_iff_exists'.1 huser
  obtain ⟨name, names, hnames⟩ := List.exists_cons_of_ne_nil hnames
  rw [Option.mem_def] at hpath
  have hlocation : recoverLocation request txn.client locals srv.world =
      recoverLocation request txn.client locals' srv.world := by
    unfold recoverLocation clientPathOf
    simp only [hpath, Option.getD_some]
    rw [scanHost_congr hhost locals.scan locals'.scan]
    have hvol := recoverVolume_congr hkey locals.scan.node locals'.scan.node locals locals'
    rw [← scanHost_rest _ locals'.scan] at hvol
    rw [hvol]
  have hinstr : recoverInstr request txn.client locals srv.world =
      recoverInstr request txn.client locals' srv.world := by
    rw [recoverInstr_head, recoverInstr_head, hnames, recoverCopy, recoverCopy, hlocation, userNameOf,
      userNameOf, huser]
    rfl
  rw [@systemCalls_recover srv (txn.withLocals locals) request hreq,
    @systemCalls_recover srv (txn.withLocals locals') request hreq]
  exact congrArg (fun instr => [(instr, txn.answers.rsync)]) hinstr

/-- **Pieces that are missing.** In every state of the server, whatever the file holds, a transfer
refuses what is incomplete and takes no part of a command from a variable that was not set, if and
only if nothing is missing. -/
theorem givenOnly_iff (srv : Server) (txn : ClientTxn) (hstart : txn.request.isStart) :
    GivenOnly srv txn ↔ PiecesGiven txn srv.world := by
  constructor
  · rintro ⟨hrefuses, hgiven⟩
    have hthere : ¬ PieceMissing txn srv.world := fun hmissing =>
      systemCalls_ne_nil srv hstart (hrefuses hmissing).2
    have hpath : ∀ request, txn.request = .dataStartBackup request →
        envValue "FILESYSTEM".toList request.env ≠ none := by
      intro request hreq
      simp only [PieceMissing, hreq, not_or] at hthere
      exact hthere.1
    exact {
      there := hthere
      host := fun request hreq => host_of_given hreq hgiven
      entry := fun request hreq => entry_of_given hreq (hpath request hreq) hgiven
      volume := fun request hreq path hsome hkey => volume_of_given hreq hsome
        (entry_of_given hreq (hpath request hreq) hgiven) hkey hgiven }
  · intro h
    refine ⟨fun hmissing => absurd hmissing h.there, fun locals => ?_⟩
    cases hreq : txn.request with
    | dataStartBackup request => exact systemCalls_backup_given hreq h locals txn.locals
    | dataStartRecover request => exact systemCalls_recover_given hreq h.there locals txn.locals
    | _ =>
      rw [hreq] at hstart
      cases hstart

/-- A recovery of a path that the file does not have. -/
def notInFile : ClientTxn :=
  transfer (.dataStartRecover ⟨homeOfBob, [⟨"/a".toList, "/tmp".toList, [], []⟩], []⟩) 0

theorem givenOnly_iff_notInFile :
    GivenOnly (connectedServer "10.0.0.1 /bu\n".toList) notInFile ↔
      PiecesGiven notInFile (connectedServer "10.0.0.1 /bu\n".toList).world :=
  givenOnly_iff _ _ rfl

/-- It runs a copy all the same, and is reported as done. -/
theorem not_givenOnly_notInFile :
    ¬ GivenOnly (connectedServer "10.0.0.1 /bu\n".toList) notInFile := by
  intro h
  refine (h.refuses ?_).1 (by decide)
  right; right; right; right
  intro path _
  have hdrop : (words "10.0.0.1 /bu\n".toList).drop 2 = [] := by decide
  show _ ∉ entryKeys ((words "10.0.0.1 /bu\n".toList).drop 2)
  rw [hdrop]
  exact List.not_mem_nil

end GlfsNdmp
