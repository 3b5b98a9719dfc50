import GlfsNdmp.Lib.Shell
import GlfsNdmp.UsageRun

/-!
# The commands as the shell reads them

The handlers put their commands together from strings: of the client, of the operator and of the
file. `system` hands each of them to the shell.

`asIntended_iff`: the shell reads every command a request runs as the one command with the words
that were meant, if and only if no string put into it has a character that means something to the
shell and none that begins a word starts with `#`.
-/

namespace GlfsNdmp

open Shell

/-! ## Commands -/

/-- A command with the strings that are put into it. -/
inductive Command
  | mount (hostIp buPoint volName : CString)
  | mkdir (buPoint volName client path : CString)
  | backup (user client path buPoint volName : CString)
  | recover (buPoint volName client path originalPath user destinationDir : CString)
  deriving DecidableEq, Repr

namespace Command

/-- The string passed to `system`. -/
def text : Command → CString
  | mount hostIp buPoint volName => mountInstr hostIp volName (mountPoint buPoint volName)
  | mkdir buPoint volName client path =>
    mkdirInstr (backupLocation (mountPoint buPoint volName) client path)
  | backup user client path buPoint volName =>
    backupRsyncInstr user client path (backupLocation (mountPoint buPoint volName) client path)
  | recover buPoint volName client path originalPath user destinationDir =>
    recoverRsyncInstr (recoverSource buPoint volName client path originalPath) user client
      destinationDir

/-- The words that are meant. -/
def words : Command → List CString
  | mount hostIp buPoint volName =>
    ["mount".toList, "-t".toList, "glusterfs".toList, hostIp ++ ":/".toList ++ volName,
      mountPoint buPoint volName]
  | mkdir buPoint volName client path =>
    ["mkdir".toList, "-p".toList, backupLocation (mountPoint buPoint volName) client path]
  | backup user client path buPoint volName =>
    ["rsync".toList, "-av".toList, user ++ "@".toList ++ client ++ ":".toList ++ path ++ "/".toList,
      backupLocation (mountPoint buPoint volName) client path]
  | recover buPoint volName client path originalPath user destinationDir =>
    ["rsync".toList, "-av".toList, recoverSource buPoint volName client path originalPath,
      user ++ "@".toList ++ client ++ ":".toList ++ destinationDir]

/-- The strings a word begins with. -/
def leading : Command → List CString
  | mount hostIp buPoint _ => [hostIp, buPoint]
  | mkdir buPoint _ _ _ => [buPoint]
  | backup user _ _ buPoint _ => [user, buPoint]
  | recover buPoint _ _ _ _ user _ => [buPoint, user]

/-- All the strings that are put in. -/
def parts : Command → List CString
  | mount hostIp buPoint volName => [hostIp, buPoint, volName]
  | mkdir buPoint volName client path => [buPoint, volName, client, path]
  | backup user client path buPoint volName => [user, client, path, buPoint, volName]
  | recover buPoint volName client path originalPath user destinationDir =>
    [buPoint, volName, client, path, originalPath, user, destinationDir]

end Command

/-- A string without a character that means something anywhere in a word. -/
def Ordinary (s : CString) : Prop := ∀ c ∈ s, kind c = .ordinary ∨ kind c = .hash

instance (s : CString) : Decidable (Ordinary s) := List.decidableBAll _ s

/-- The strings in the command mean nothing to the shell. -/
def Command.Harmless (c : Command) : Prop :=
  (∀ s ∈ c.parts, Ordinary s) ∧ ∀ s ∈ c.leading, s.head?.map kind ≠ some .hash

theorem ordinary_append {s t : CString} : Ordinary (s ++ t) ↔ Ordinary s ∧ Ordinary t :=
  List.forall_mem_append

theorem ordinary_cons {c : Char} (hc : kind c = .ordinary) {s : CString} :
    Ordinary (c :: s) ↔ Ordinary s := by
  rw [Ordinary, List.forall_mem_cons, and_iff_right (Or.inl hc)]
  rfl

/-- A word with an ordinary character in it is plain, if its parts are and it starts well. -/
theorem plain_append_cons {c : Char} (hc : kind c = .ordinary) {s t : CString} :
    Plain (s ++ c :: t) ↔ (Ordinary s ∧ Ordinary t) ∧ s.head?.map kind ≠ some .hash := by
  have hne : s ++ c :: t ≠ [] := by simp
  have hfirst : (s ++ c :: t).head?.map kind ≠ some .hash ↔ s.head?.map kind ≠ some .hash := by
    cases s with
    | nil => simp [hc]
    | cons d s => rfl
  rw [Plain, hfirst, and_iff_right hne]
  exact and_congr_left' (ordinary_append.trans (and_congr_right' (ordinary_cons hc)))

theorem mountPoint_eq (buPoint volName : CString) :
    mountPoint buPoint volName = buPoint ++ '/' :: volName := by
  rw [mountPoint, show "/".toList = ['/'] by decide, List.append_assoc]
  rfl

theorem backupLocation_eq (buPoint volName client path : CString) :
    backupLocation (mountPoint buPoint volName) client path =
      buPoint ++ '/' :: (volName ++ '/' :: (client ++ path)) := by
  rw [backupLocation, mountPoint_eq, show "/".toList = ['/'] by decide]
  simp only [List.append_assoc, List.cons_append, List.nil_append]

theorem recoverSource_eq (buPoint volName client path originalPath : CString) :
    recoverSource buPoint volName client path originalPath =
      buPoint ++ '/' :: (volName ++ '/' :: (client ++ (path ++ originalPath))) := by
  rw [recoverSource, mountPoint_eq, show "/".toList = ['/'] by decide]
  simp only [List.append_assoc, List.cons_append, List.nil_append]

namespace Command

theorem join_words (c : Command) : join c.words = c.text := by
  cases c with
  | mount hostIp buPoint volName =>
    have hmount : "mount -t glusterfs ".toList =
        "mount".toList ++ ' ' :: ("-t".toList ++ ' ' :: ("glusterfs".toList ++ [' '])) := by decide
    show _ = mountInstr hostIp volName (mountPoint buPoint volName)
    unfold mountInstr
    rw [hmount, show " ".toList = [' '] by decide]
    simp only [words, join, List.append_assoc, List.cons_append, List.nil_append]
  | mkdir buPoint volName client path =>
    have hmkdir : "mkdir -p ".toList = "mkdir".toList ++ ' ' :: ("-p".toList ++ [' ']) := by decide
    show _ = mkdirInstr (backupLocation (mountPoint buPoint volName) client path)
    unfold mkdirInstr
    rw [hmkdir]
    simp only [words, join, List.append_assoc, List.cons_append, List.nil_append]
  | backup user client path buPoint volName =>
    have hrsync : "rsync -av ".toList = "rsync".toList ++ ' ' :: ("-av".toList ++ [' ']) := by decide
    show _ = backupRsyncInstr user client path (backupLocation (mountPoint buPoint volName) client path)
    unfold backupRsyncInstr
    rw [hrsync, show "/ ".toList = "/".toList ++ [' '] by decide]
    simp only [words, join, List.append_assoc, List.cons_append, List.nil_append]
  | recover buPoint volName client path originalPath user destinationDir =>
    have hrsync : "rsync -av ".toList = "rsync".toList ++ ' ' :: ("-av".toList ++ [' ']) := by decide
    show _ = recoverRsyncInstr (recoverSource buPoint volName client path originalPath) user client
      destinationDir
    unfold recoverRsyncInstr
    rw [hrsync, show " ".toList = [' '] by decide]
    simp only [words, join, List.append_assoc, List.cons_append, List.nil_append]

theorem plain_location {buPoint volName client path : CString} :
    Plain (backupLocation (mountPoint buPoint volName) client path) ↔
      (Ordinary buPoint ∧ Ordinary volName ∧ Ordinary client ∧ Ordinary path) ∧
        buPoint.head?.map kind ≠ some .hash := by
  rw [backupLocation_eq, plain_append_cons rfl, ordinary_append, ordinary_cons rfl, ordinary_append]

/-- The words are plain if the strings in them mean nothing. -/
theorem forall_plain_iff (c : Command) : (∀ w ∈ c.words, Plain w) ↔ c.Harmless := by
  have hat : "@".toList = ['@'] := by decide
  have hcolon : ":".toList = [':'] := by decide
  have hslash : "/".toList = ['/'] := by decide
  have hcolonSlash : ":/".toList = [':', '/'] := by decide
  cases c with
  | mount hostIp buPoint volName =>
    have hdevice : Plain (hostIp ++ ":/".toList ++ volName) ↔
        (Ordinary hostIp ∧ Ordinary volName) ∧ hostIp.head?.map kind ≠ some .hash := by
      rw [hcolonSlash, List.append_assoc]
      exact (plain_append_cons rfl).trans
        (and_congr_left' (and_congr_right' (ordinary_cons rfl)))
    have hpoint : Plain (mountPoint buPoint volName) ↔
        (Ordinary buPoint ∧ Ordinary volName) ∧ buPoint.head?.map kind ≠ some .hash := by
      rw [mountPoint_eq, plain_append_cons rfl]
    simp only [words, Harmless, parts, leading, List.forall_mem_cons,
      hdevice, hpoint]
    have h₁ : Plain "mount".toList := by decide
    have h₂ : Plain "-t".toList := by decide
    have h₃ : Plain "glusterfs".toList := by decide
    grind
  | mkdir buPoint volName client path =>
    simp only [words, Harmless, parts, leading, List.forall_mem_cons,
      plain_location]
    have h₁ : Plain "mkdir".toList := by decide
    have h₂ : Plain "-p".toList := by decide
    grind
  | backup user client path buPoint volName =>
    have hremote : Plain (user ++ "@".toList ++ client ++ ":".toList ++ path ++ "/".toList) ↔
        (Ordinary user ∧ Ordinary client ∧ Ordinary path) ∧
          user.head?.map kind ≠ some .hash := by
      rw [hat, hcolon, hslash]
      simp only [List.append_assoc, List.cons_append, List.nil_append]
      rw [plain_append_cons rfl, ordinary_append, ordinary_cons rfl, ordinary_append,
        ordinary_cons rfl, and_iff_left (show Ordinary [] by decide)]
    simp only [words, Harmless, parts, leading, List.forall_mem_cons,
      plain_location, hremote]
    have h₁ : Plain "rsync".toList := by decide
    have h₂ : Plain "-av".toList := by decide
    grind
  | recover buPoint volName client path originalPath user destinationDir =>
    have hremote : Plain (user ++ "@".toList ++ client ++ ":".toList ++ destinationDir) ↔
        (Ordinary user ∧ Ordinary client ∧ Ordinary destinationDir) ∧
          user.head?.map kind ≠ some .hash := by
      rw [hat, hcolon]
      simp only [List.append_assoc, List.cons_append, List.nil_append]
      rw [plain_append_cons rfl, ordinary_append, ordinary_cons rfl]
    have hsource : Plain (recoverSource buPoint volName client path originalPath) ↔
        (Ordinary buPoint ∧ Ordinary volName ∧ Ordinary client ∧ Ordinary path ∧
          Ordinary originalPath) ∧ buPoint.head?.map kind ≠ some .hash := by
      rw [recoverSource_eq, plain_append_cons rfl, ordinary_append, ordinary_cons rfl,
        ordinary_append, ordinary_append]
    simp only [words, Harmless, parts, leading, List.forall_mem_cons,
      hsource, hremote]
    have h₁ : Plain "rsync".toList := by decide
    have h₂ : Plain "-av".toList := by decide
    grind

/-- What the shell makes of a command. -/
theorem tokens_text_iff (c : Command) : tokens c.text = c.words.map .word ↔ c.Harmless := by
  rw [← join_words, tokens_join_iff, forall_plain_iff]

end Command

/-! ## The commands of a request -/

/-- The mounts of `init_vol_fs_list`. -/
def remounted (buf : ScanBuffers) (w : World) : List Command :=
  let (hostIp, buPoint, ws) := scanHost buf (words w.glusterVolUsage)
  if w.mountDone = false then
    (scanNodes buf.node ws).map fun node => .mount hostIp buPoint node.volName
  else []

/-- The commands a request runs, as they are meant. -/
def ranBy (e : ServerEvent) : List Command :=
  match e.input.request with
  | .dataStartBackup request =>
    let target := targetOf e request
    let client := e.input.client
    remounted e.input.locals.initScan e.before.world ++
      (if target.isItNew then [.mount target.hostIp target.buPoint target.volName] else []) ++
      if mountFailed target.isItNew e.input.answers then []
      else [.mkdir target.buPoint target.volName client target.path,
        .backup target.user client target.path target.buPoint target.volName]
  | .dataStartRecover request =>
    let target := recoverTarget request e.input.client e.input.locals e.before.world
    [.recover target.buPoint target.volName e.input.client target.path target.name.originalPath
      target.user target.name.destinationDir]
  | _ => []

theorem map_fst_remounts (buf : ScanBuffers) (ret : Nat → Int) (w : World) :
    (remounts buf ret w).map Prod.fst = (remounted buf w).map Command.text := by
  unfold remounts remounted
  simp only
  split
  · refine List.ext_getElem? fun i => ?_
    rw [List.map_map, List.getElem?_map, List.getElem?_mapIdx, List.getElem?_map, Option.map_map]
    rfl
  · rfl

/-- The strings passed to `system` are the texts of these commands. -/
theorem map_fst_commandsOf (e : ServerEvent) :
    (commandsOf e).map Prod.fst = (ranBy e).map Command.text := by
  unfold commandsOf ranBy mountsOf
  cases e.input.request with
  | dataStartBackup request =>
    simp only [List.map_append, map_fst_remounts]
    congr 1
    · congr 1
      unfold BackupTarget.mounts
      split <;> rfl
    · split <;> rfl
  | dataStartRecover request => rfl
  | _ => rfl

/-- The shell reads each string passed to `system` as one command with the words that are meant. -/
def AsIntended (e : ServerEvent) : Prop :=
  (commandsOf e).map (fun c => tokens c.1) = (ranBy e).map fun c => c.words.map .word

/-- **Commands as intended.** For every request in every state, the shell reads the commands as
they are meant, if and only if the strings in them mean nothing to it. -/
theorem asIntended_iff (srv : Server) (txn : ClientTxn) :
    AsIntended (eventOf srv txn) ↔ ∀ c ∈ ranBy (eventOf srv txn), c.Harmless := by
  have htexts : (commandsOf (eventOf srv txn)).map (fun c => tokens c.1) =
      (ranBy (eventOf srv txn)).map fun c => tokens c.text := by
    rw [show (fun c : CString × Int => tokens c.1) = tokens ∘ Prod.fst from rfl, ← List.map_map,
      map_fst_commandsOf, List.map_map]
    rfl
  rw [AsIntended, htexts, List.map_inj_left]
  exact forall₂_congr fun c _ => c.tokens_text_iff

/-- A path that ends the command and begins another. -/
def backupInjection : ClientTxn :=
  .receive 0 4 "10.0.0.2".toList
    (.dataStartBackup
      ⟨[], [⟨"FILESYSTEM".toList, "/a;reboot".toList⟩, ⟨"USER".toList, "bob".toList⟩]⟩)
    { (default : Answers) with volName := some "vol".toList }

theorem not_asIntended_backupInjection :
    ¬ AsIntended (eventOf (Server.start (World.boot "10.0.0.1 /bu\n".toList)) backupInjection) := by
  unfold AsIntended
  decide

end GlfsNdmp
