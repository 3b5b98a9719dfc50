import GlfsNdmp.Handlers

/-!
# Buffers and their sizes

The keys, the paths and the commands are put together in buffers whose sizes the code works out
beforehand, with `strlen` and constants counted by hand. A buffer that is grown is an allocation
of its own: what was in it before must have fitted, too.

`buffersFit_iff`: every string fits its buffer, but for the mount of a new volume when the
address of the host has 14 characters or more.
-/

namespace GlfsNdmp

/-- What `malloc` or `realloc` was asked for, and the string that is in it when the buffer is
freed, grown or used. -/
structure Buffer where
  size : Nat
  text : CString
  deriving DecidableEq, Repr

namespace Buffer

/-- The string and its terminating zero are inside the buffer. -/
def Fits (b : Buffer) : Prop := b.text.length + 1 ≤ b.size

instance (b : Buffer) : Decidable b.Fits := inferInstanceAs (Decidable (_ ≤ _))

theorem fits_mk (size : Nat) (text : CString) : Fits ⟨size, text⟩ ↔ text.length + 1 ≤ size :=
  Iff.rfl

/-- `malloc(strlen(s) + 1)`, and `strcpy`. -/
def copyOf (s : CString) : Buffer := ⟨s.length + 1, s⟩

theorem fits_copyOf (s : CString) : (copyOf s).Fits := Nat.le_refl _

end Buffer

/-! ## The buffers of a backup -/

namespace BackupTarget

variable (target : BackupTarget) (client : CString) (answers : Answers)

/-- The path, the user, and the key under which the path is searched; for a new path the key is
put together once more. -/
def keyBuffers : List Buffer :=
  [.copyOf target.path, .copyOf target.user,
    ⟨client.length + 1 + target.path.length + 1, clientIpFs client target.path⟩] ++
  if target.isItNew then
    [⟨client.length + target.path.length + 3, clientIpFs client target.path⟩]
  else []

/-- `mount_instr`, grown: the code counts 17 for the address, the punctuation and the zero. -/
def mountInstrBuffer : Buffer :=
  let point := mountPoint target.buPoint target.volName
  ⟨"mount -t glusterfs ".toList.length + 17 + target.volName.length + point.length,
    mountInstr target.hostIp target.volName point⟩

/-- `mount_point` and, for a new volume, `mount_instr`. -/
def mountBuffers : List Buffer :=
  [.copyOf target.buPoint,
    ⟨target.buPoint.length + target.volName.length + 3,
      mountPoint target.buPoint target.volName⟩] ++
  if target.isItNew then [⟨21, "mount -t glusterfs ".toList⟩, target.mountInstrBuffer] else []

/-- `dir_instr`, grown. -/
def dirInstrBuffer : Buffer :=
  ⟨"mkdir -p ".toList.length + (target.location client).length + 1,
    mkdirInstr (target.location client)⟩

/-- `rsync_instr`, grown. -/
def rsyncInstrBuffer : Buffer :=
  ⟨"rsync -av ".toList.length + 6 + target.user.length + client.length + target.path.length +
      (target.location client).length,
    backupRsyncInstr target.user client target.path (target.location client)⟩

/-- `backup_location`, `dir_instr` and `rsync_instr`. -/
def copyBuffers : List Buffer :=
  [⟨(mountPoint target.buPoint target.volName).length + client.length + target.path.length + 3,
      target.location client⟩,
    ⟨11, "mkdir -p ".toList⟩, target.dirInstrBuffer client,
    ⟨12, "rsync -av ".toList⟩, target.rsyncInstrBuffer client]

/-- The buffers of `ndmp_data_start_backup`, up to the mount that fails if one does. -/
def buffers : List Buffer :=
  target.keyBuffers client ++ target.mountBuffers ++
    if mountFailed target.isItNew answers then [] else target.copyBuffers client

end BackupTarget

/-! ## The buffers of a recovery -/

section

variable (buPoint volName client path user : CString) (name : NdmpName)

/-- `rsync_instr` of a recovery, grown. -/
def recoverRsyncInstrBuffer : Buffer :=
  let source := recoverSource buPoint volName client path name.originalPath
  ⟨"rsync -av ".toList.length + 7 + source.length + user.length + client.length +
      name.destinationDir.length,
    recoverRsyncInstr source user client name.destinationDir⟩

/-- The buffers of `ndmp_data_start_recover`, for the name it copies. -/
def recoverBuffers : List Buffer :=
  [.copyOf path, .copyOf user,
    ⟨client.length + path.length + 3, clientIpFs client path⟩,
    ⟨buPoint.length + volName.length + client.length + path.length + name.originalPath.length + 3,
      recoverSource buPoint volName client path name.originalPath⟩,
    ⟨13, "rsync -av ".toList⟩, recoverRsyncInstrBuffer buPoint volName client path user name]

theorem recoverRsyncInstrBuffer_mem :
    recoverRsyncInstrBuffer buPoint volName client path user name ∈
      recoverBuffers buPoint volName client path user name := by
  simp [recoverBuffers]

end

/-! ## The buffers of the list of volumes -/

section

variable (hostIp buPoint : CString)

/-- `mount_instr` of `init_vol_fs_list`, grown. -/
def remountInstrBuffer (volName : CString) : Buffer :=
  let point := mountPoint buPoint volName
  ⟨"mount -t glusterfs ".toList.length + hostIp.length + volName.length + point.length + 7,
    mountInstr hostIp volName point⟩

/-- A turn of the loop in `init_vol_fs_list`: the mount, unless mounting is done, and the node. -/
def nodeBuffers (mountDone : Bool) (node : VolFsNode) : List Buffer :=
  (if mountDone = false then
    [⟨buPoint.length + node.volName.length + 3, mountPoint buPoint node.volName⟩,
      ⟨21, "mount -t glusterfs ".toList⟩, remountInstrBuffer hostIp buPoint node.volName]
  else []) ++ [.copyOf node.volName, .copyOf node.filesystem, .copyOf node.user]

/-- The buffers of `init_vol_fs_list`. -/
def initVolFsListBuffers (mountDone : Bool) (nodes : List VolFsNode) : List Buffer :=
  nodes.flatMap (nodeBuffers hostIp buPoint mountDone)

end

/-! ## Every command is in a buffer -/

theorem exists_buffer_of_mem_mounts {target : BackupTarget} (client : CString)
    {answers : Answers} {c : CString × Int} (h : c ∈ target.mounts answers) :
    ∃ b ∈ target.buffers client answers, b.text = c.1 := by
  unfold BackupTarget.mounts at h
  split at h
  case isTrue hnew =>
    rw [List.mem_singleton.1 h]
    exact ⟨target.mountInstrBuffer, by simp [BackupTarget.buffers, BackupTarget.mountBuffers, hnew],
      rfl⟩
  case isFalse => cases h

theorem exists_buffer_of_mem_copy {target : BackupTarget} {client : CString} {answers : Answers}
    {c : CString × Int} (hmount : mountFailed target.isItNew answers = false)
    (h : c ∈ target.copy client answers) :
    ∃ b ∈ target.buffers client answers, b.text = c.1 := by
  unfold BackupTarget.copy at h
  rcases List.mem_cons.1 h with rfl | h
  · exact ⟨target.dirInstrBuffer client,
      by simp [BackupTarget.buffers, BackupTarget.copyBuffers, hmount], rfl⟩
  · rw [List.mem_singleton.1 h]
    exact ⟨target.rsyncInstrBuffer client,
      by simp [BackupTarget.buffers, BackupTarget.copyBuffers, hmount], rfl⟩

/-- The copy of a recovery is the text of one of its buffers. -/
theorem exists_buffer_of_recoverInstr (request : NdmpDataStartRecoverRequest) (client : CString)
    (locals : Locals) (w : World) :
    ∃ buPoint volName path user,
      ∃ b ∈ recoverBuffers buPoint volName client path user (request.nlist.head?.getD locals.name),
        b.text = recoverInstr request client locals w := by
  unfold recoverInstr
  generalize scanHost locals.scan (words w.glusterVolUsage) = scanned
  obtain ⟨hostIp, buPoint, ws⟩ := scanned
  exact ⟨buPoint, _, _, _, _, recoverRsyncInstrBuffer_mem _ _ _ _ _ _, rfl⟩

/-- Every mount of `init_vol_fs_list` is the text of one of its buffers. -/
theorem exists_buffer_of_mem_remounts {buf : ScanBuffers} {ret : Nat → Int} {w : World}
    {c : CString × Int} (h : c ∈ remounts buf ret w) :
    ∃ hostIp buPoint nodes, ∃ b ∈ initVolFsListBuffers hostIp buPoint w.mountDone nodes,
      b.text = c.1 := by
  unfold remounts at h
  generalize scanHost buf (words w.glusterVolUsage) = scanned at h
  obtain ⟨hostIp, buPoint, ws⟩ := scanned
  dsimp only at h
  split at h
  case isTrue hdone =>
    obtain ⟨i, hi, rfl⟩ := List.mem_mapIdx.1 h
    refine ⟨hostIp, buPoint, scanNodes buf.node ws, remountInstrBuffer hostIp buPoint _, ?_, rfl⟩
    refine List.mem_flatMap.2 ⟨_, List.getElem_mem hi, ?_⟩
    simp [nodeBuffers, hdone]
  case isFalse => cases h

/-! ## What fits -/

theorem fits_keyBuffers {target : BackupTarget} {client : CString} {b : Buffer}
    (h : b ∈ target.keyBuffers client) : b.Fits := by
  have hkey := clientIpFs_length client target.path
  unfold BackupTarget.keyBuffers at h
  rcases List.mem_append.1 h with h | h
  · simp only [List.mem_cons, List.not_mem_nil, or_false] at h
    rcases h with rfl | rfl | rfl
    · exact Buffer.fits_copyOf _
    · exact Buffer.fits_copyOf _
    · rw [Buffer.fits_mk, hkey]
      omega
  · split at h
    · rw [List.mem_singleton.1 h, Buffer.fits_mk, hkey]
      omega
    · cases h

theorem fits_copyBuffers {target : BackupTarget} {client : CString} {b : Buffer}
    (h : b ∈ target.copyBuffers client) : b.Fits := by
  simp only [BackupTarget.copyBuffers, List.mem_cons, List.not_mem_nil, or_false] at h
  rcases h with rfl | rfl | rfl | rfl | rfl
  · rw [Buffer.fits_mk, BackupTarget.location, backupLocation_length]
    omega
  · decide
  · rw [BackupTarget.dirInstrBuffer, Buffer.fits_mk, mkdirInstr_length]
    exact Nat.le_refl _
  · decide
  · have hliteral : "rsync -av ".toList.length = 10 := rfl
    rw [BackupTarget.rsyncInstrBuffer, Buffer.fits_mk, backupRsyncInstr_length]
    omega

/-- The one that may not: the address and the punctuation make the string longer than 17 more. -/
theorem fits_mountInstrBuffer {target : BackupTarget} :
    target.mountInstrBuffer.Fits ↔ target.hostIp.length ≤ 13 := by
  have hliteral : "mount -t glusterfs ".toList.length = 19 := rfl
  rw [BackupTarget.mountInstrBuffer, Buffer.fits_mk, mountInstr_length]
  omega

theorem fits_mountBuffers {target : BackupTarget} :
    (∀ b ∈ target.mountBuffers, b.Fits) ↔ (target.isItNew → target.hostIp.length ≤ 13) := by
  rw [← fits_mountInstrBuffer]
  constructor
  · intro h hnew
    exact h _ (by simp [BackupTarget.mountBuffers, hnew])
  · intro h b hb
    unfold BackupTarget.mountBuffers at hb
    rcases List.mem_append.1 hb with hb | hb
    · simp only [List.mem_cons, List.not_mem_nil, or_false] at hb
      rcases hb with rfl | rfl
      · exact Buffer.fits_copyOf _
      · rw [Buffer.fits_mk, mountPoint_length]
        omega
    · split at hb
      case isTrue hnew =>
        simp only [List.mem_cons, List.not_mem_nil, or_false] at hb
        rcases hb with rfl | rfl
        · decide
        · exact h hnew
      case isFalse => cases hb

theorem fits_recoverBuffers {buPoint volName client path user : CString} {name : NdmpName}
    {b : Buffer} (h : b ∈ recoverBuffers buPoint volName client path user name) : b.Fits := by
  simp only [recoverBuffers, List.mem_cons, List.not_mem_nil, or_false] at h
  rcases h with rfl | rfl | rfl | rfl | rfl | rfl
  · exact Buffer.fits_copyOf _
  · exact Buffer.fits_copyOf _
  · rw [Buffer.fits_mk, clientIpFs_length]
    omega
  · rw [Buffer.fits_mk, recoverSource_length, mountPoint_length]
    omega
  · decide
  · have hliteral : "rsync -av ".toList.length = 10 := rfl
    rw [recoverRsyncInstrBuffer, Buffer.fits_mk, recoverRsyncInstr_length]
    omega

theorem fits_nodeBuffers {hostIp buPoint : CString} {mountDone : Bool} {node : VolFsNode}
    {b : Buffer} (h : b ∈ nodeBuffers hostIp buPoint mountDone node) : b.Fits := by
  unfold nodeBuffers at h
  rcases List.mem_append.1 h with h | h
  · split at h
    · simp only [List.mem_cons, List.not_mem_nil, or_false] at h
      rcases h with rfl | rfl | rfl
      · rw [Buffer.fits_mk, mountPoint_length]
        omega
      · decide
      · have hliteral : "mount -t glusterfs ".toList.length = 19 := rfl
        rw [remountInstrBuffer, Buffer.fits_mk, mountInstr_length]
        omega
    · cases h
  · simp only [List.mem_cons, List.not_mem_nil, or_false] at h
    rcases h with rfl | rfl | rfl <;> exact Buffer.fits_copyOf _

/-- Of the buffers of a backup, only the mount of a new volume matters. -/
theorem fits_backupBuffers_iff (target : BackupTarget) (client : CString) (answers : Answers) :
    (∀ b ∈ target.buffers client answers, b.Fits) ↔
      (target.isItNew → target.hostIp.length ≤ 13) := by
  rw [← fits_mountBuffers]
  constructor
  · intro h b hb
    exact h b (List.mem_append_left _ (List.mem_append_right _ hb))
  · intro h b hb
    rcases List.mem_append.1 hb with hb | hb
    · rcases List.mem_append.1 hb with hb | hb
      · exact fits_keyBuffers hb
      · exact h b hb
    · split at hb
      · cases hb
      · exact fits_copyBuffers hb

/-- Every buffer of the three functions holds the string that is put into it. -/
structure BuffersFit (target : BackupTarget) (client : CString) (answers : Answers)
    (name : NdmpName) (mountDone : Bool) (nodes : List VolFsNode) : Prop where
  backup : ∀ b ∈ target.buffers client answers, b.Fits
  recover : ∀ b ∈ recoverBuffers target.buPoint target.volName client target.path target.user name,
    b.Fits
  list : ∀ b ∈ initVolFsListBuffers target.hostIp target.buPoint mountDone nodes, b.Fits

/-- **Buffers and strings.** Whatever the address of the host, the volume, the backup point, the
client, the path, the user and the name, every string fits its buffer, if and only if there is no
new volume to be mounted or the address of the host has at most 13 characters. -/
theorem buffersFit_iff (target : BackupTarget) (client : CString) (answers : Answers)
    (name : NdmpName) (mountDone : Bool) (nodes : List VolFsNode) :
    BuffersFit target client answers name mountDone nodes ↔
      (target.isItNew → target.hostIp.length ≤ 13) := by
  rw [← fits_backupBuffers_iff target client answers]
  constructor
  · exact fun h => h.backup
  · intro h
    refine ⟨h, fun b hb => fits_recoverBuffers hb, fun b hb => ?_⟩
    obtain ⟨node, -, hb⟩ := List.mem_flatMap.1 hb
    exact fits_nodeBuffers hb

/-- A backup to a new volume on a host whose address is as long as addresses get. -/
theorem not_buffersFit_longAddress :
    ¬ BuffersFit
      { hostIp := "192.168.100.200".toList
        buPoint := "/bu".toList
        volName := "vol".toList
        isItNew := true
        user := "bob".toList
        path := "/home".toList
        world := World.boot [] }
      "10.0.0.2".toList default ⟨"/a".toList, "/tmp".toList, [], []⟩ false [] := by
  intro h
  exact absurd (h.backup _ (List.mem_append_left _ (List.mem_append_right _
    (List.mem_append_right _ (List.mem_cons_of_mem _ (List.mem_singleton_self _))))))
    (by decide)

end GlfsNdmp
