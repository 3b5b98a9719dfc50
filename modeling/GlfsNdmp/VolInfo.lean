import GlfsNdmp.Protocol

/-!
# The file `gluster_vol_usage`

`vol_info.c`: the file starts with the host line (address and backup point) and goes on with one
line for each client path: volume, key, user. All three readers scan it with `fscanf` and `%s`, so
what they see of the file is its sequence of words.

Running a shell command, here a `mount`, is an entry in the log of commands with the status
`system` returned.
-/

namespace GlfsNdmp

/-! ## Words -/

/-- `isspace`, where `%s` stops. -/
def isSpace (c : Char) : Bool :=
  c == ' ' || c == '\t' || c == '\n' || c == '\x0b' || c == '\x0c' || c == '\r'

/-- The words of a text, the first of them begun with `w`. -/
def wordsFrom (w : CString) : CString → List CString
  | [] => if w = [] then [] else [w]
  | c :: cs =>
    if isSpace c then if w = [] then wordsFrom [] cs else w :: wordsFrom [] cs
    else wordsFrom (w ++ [c]) cs

/-- The words repeated `fscanf(fp, "%s", ..)` reads from a file. -/
def words (file : CString) : List CString := wordsFrom [] file

example : words " 10.0.0.1 /bu\nvol".toList = ["10.0.0.1".toList, "/bu".toList, "vol".toList] := by
  decide

/-- `struct vol_fs_node`; the `next` field is the list. -/
structure VolFsNode where
  volName : CString
  filesystem : CString
  user : CString
  deriving DecidableEq, Repr, Inhabited

/-- The buffers a reader scans the words into, with what they hold before it does. -/
structure ScanBuffers where
  hostIp : CString
  buPoint : CString
  node : VolFsNode
  deriving Inhabited

/-- `fscanf(fp, "%s %s", host_ip, bu_point)`: the two buffers, and the words left to read. -/
def scanHost (buf : ScanBuffers) : List CString → CString × CString × List CString
  | hostIp :: buPoint :: ws => (hostIp, buPoint, ws)
  | [hostIp] => (hostIp, buf.buPoint, [])
  | [] => (buf.hostIp, buf.buPoint, [])

/-- `while (fscanf(fp, "%s %s %s", ..) > 0)`: the three buffers at each turn of the loop. The test
is `> 0`, so a last turn with one or two words runs on what the turn before left. -/
def scanNodes (node : VolFsNode) : List CString → List VolFsNode
  | volName :: filesystem :: user :: ws =>
    ⟨volName, filesystem, user⟩ :: scanNodes ⟨volName, filesystem, user⟩ ws
  | [volName, filesystem] => [⟨volName, filesystem, node.user⟩]
  | [volName] => [⟨volName, node.filesystem, node.user⟩]
  | [] => []

/-! ## Commands -/

/-- What outlives a request outside the session records: the file, the statics of `vol_info.c`,
the files held open, and the commands run so far with their status, oldest first. -/
structure World where
  glusterVolUsage : CString
  mountDone : Bool
  openFiles : Nat
  commands : List (CString × Int)

/-- The world when the server starts, with what is in the file then. -/
def World.boot (glusterVolUsage : CString) : World where
  glusterVolUsage := glusterVolUsage
  mountDone := false
  openFiles := 0
  commands := []

/-- `system(instr)` returning `ret`. -/
def World.system (w : World) (instr : CString) (ret : Int) : World :=
  { w with commands := w.commands ++ [(instr, ret)] }

/-- `fprintf` to the file opened with `a+`. -/
def World.append (w : World) (s : CString) : World :=
  { w with glusterVolUsage := w.glusterVolUsage ++ s }

@[simp] theorem World.system_glusterVolUsage (w : World) (instr : CString) (ret : Int) :
    (w.system instr ret).glusterVolUsage = w.glusterVolUsage := rfl

@[simp] theorem World.system_mountDone (w : World) (instr : CString) (ret : Int) :
    (w.system instr ret).mountDone = w.mountDone := rfl

@[simp] theorem World.system_commands (w : World) (instr : CString) (ret : Int) :
    (w.system instr ret).commands = w.commands ++ [(instr, ret)] := rfl

@[simp] theorem World.append_mountDone (w : World) (s : CString) :
    (w.append s).mountDone = w.mountDone := rfl

@[simp] theorem World.append_commands (w : World) (s : CString) :
    (w.append s).commands = w.commands := rfl

@[simp] theorem World.append_glusterVolUsage (w : World) (s : CString) :
    (w.append s).glusterVolUsage = w.glusterVolUsage ++ s := rfl

/-- The directory a volume is mounted on. -/
def mountPoint (buPoint volName : CString) : CString := buPoint ++ "/".toList ++ volName

/-- `mount_instr`. -/
def mountInstr (hostIp volName mountPoint : CString) : CString :=
  "mount -t glusterfs ".toList ++ hostIp ++ ":/".toList ++ volName ++ " ".toList ++ mountPoint

/-- The mounts of the loop in `init_vol_fs_list`, the first of them with status `ret k`. Their
status is printed and otherwise ignored. -/
def mountNodes (hostIp buPoint : CString) (ret : Nat → Int) (w : World) :
    Nat → List VolFsNode → World
  | _, [] => w
  | k, node :: nodes =>
    mountNodes hostIp buPoint ret
      (w.system (mountInstr hostIp node.volName (mountPoint buPoint node.volName)) (ret k))
      (k + 1) nodes

/-- `init_vol_fs_list`: the list, and `-1` if the file has no node. Both returns come before
`fclose` and before `mount_done = true`, so neither is ever reached. -/
def initVolFsList (buf : ScanBuffers) (ret : Nat → Int) (w : World) :
    World × List VolFsNode × Int :=
  let w := { w with openFiles := w.openFiles + 1 }
  let (hostIp, buPoint, ws) := scanHost buf (words w.glusterVolUsage)
  let nodes := scanNodes buf.node ws
  let w := if w.mountDone = false then mountNodes hostIp buPoint ret w 0 nodes else w
  (w, nodes, if nodes = [] then -1 else 0)

/-- `find`: the first node with the key. -/
def find (head : List VolFsNode) (filesystem : CString) : Option VolFsNode :=
  head.find? fun node => node.filesystem == filesystem

/-- `set_host_config`: append the host line the operator types, unless two words are there. -/
def setHostConfig (hostIp buPoint : CString) (w : World) : World :=
  match words w.glusterVolUsage with
  | _ :: _ :: _ => w
  | _ => w.append (hostIp ++ " ".toList ++ buPoint ++ "\n".toList)

/-! ## What the functions leave alone -/

@[simp] theorem mountNodes_glusterVolUsage (hostIp buPoint : CString) (ret : Nat → Int) (w : World)
    (k : Nat) (nodes : List VolFsNode) :
    (mountNodes hostIp buPoint ret w k nodes).glusterVolUsage = w.glusterVolUsage := by
  induction nodes generalizing w k with
  | nil => rfl
  | cons node nodes ih => rw [mountNodes, ih, World.system_glusterVolUsage]

@[simp] theorem mountNodes_mountDone (hostIp buPoint : CString) (ret : Nat → Int) (w : World)
    (k : Nat) (nodes : List VolFsNode) :
    (mountNodes hostIp buPoint ret w k nodes).mountDone = w.mountDone := by
  induction nodes generalizing w k with
  | nil => rfl
  | cons node nodes ih => rw [mountNodes, ih, World.system_mountDone]

/-- The commands the loop adds: one mount for each node, in order. -/
theorem mountNodes_commands (hostIp buPoint : CString) (ret : Nat → Int) (w : World) (k : Nat)
    (nodes : List VolFsNode) :
    (mountNodes hostIp buPoint ret w k nodes).commands = w.commands ++
      nodes.mapIdx fun i node =>
        (mountInstr hostIp node.volName (mountPoint buPoint node.volName), ret (k + i)) := by
  induction nodes generalizing w k with
  | nil => simp [mountNodes]
  | cons node nodes ih =>
    rw [mountNodes, ih, World.system_commands, List.mapIdx_cons, List.append_assoc]
    simp [Nat.add_comm, Nat.add_left_comm]

/-- The mounts `init_vol_fs_list` runs, with their status. -/
def remounts (buf : ScanBuffers) (ret : Nat → Int) (w : World) : List (CString × Int) :=
  let (hostIp, buPoint, ws) := scanHost buf (words w.glusterVolUsage)
  if w.mountDone = false then
    (scanNodes buf.node ws).mapIdx fun i node =>
      (mountInstr hostIp node.volName (mountPoint buPoint node.volName), ret i)
  else []

theorem initVolFsList_commands (buf : ScanBuffers) (ret : Nat → Int) (w : World) :
    (initVolFsList buf ret w).1.commands = w.commands ++ remounts buf ret w := by
  simp only [initVolFsList, remounts]
  split
  · rw [mountNodes_commands]
    simp
  · simp

@[simp] theorem setHostConfig_commands (hostIp buPoint : CString) (w : World) :
    (setHostConfig hostIp buPoint w).commands = w.commands := by
  unfold setHostConfig
  split <;> rfl

/-! ## The length of a command -/

theorem mountPoint_length (buPoint volName : CString) :
    (mountPoint buPoint volName).length = buPoint.length + 1 + volName.length := by
  unfold mountPoint
  simp only [List.length_append]
  rfl

theorem mountInstr_length (hostIp volName mountPoint : CString) :
    (mountInstr hostIp volName mountPoint).length =
      19 + hostIp.length + 2 + volName.length + 1 + mountPoint.length := by
  unfold mountInstr
  simp only [List.length_append]
  rfl

end GlfsNdmp
