import GlfsNdmp.Buffers
import GlfsNdmp.Unset
import GlfsNdmp.UsageFile

/-!
# Who reads the file `gluster_vol_usage`

`init_vol_fs_list` and the two transfers scan the same file, each into buffers of its own. Both
loops over the entries go on while `fscanf` has converted something, and each reader has its own
idea of how long a word may be.

* `readsTriples_iff`: the entries that are read are the complete triples behind the host line, if
  and only if there is nothing but complete triples, of words that are short enough.
* `written_fits_iff`: what the server itself writes fits the buffers of all readers, if and only
  if the backup point is short enough and so are the words that are read as volumes and as users.
-/

namespace GlfsNdmp

/-! ## What the readers scan -/

/-- The functions that scan the file, and what they scan it into. -/
inductive UsageReader
  | initVolFsList
  | ndmpDataStartBackup
  | ndmpDataStartRecover

/-- `fscanf(fp, "%s %s", host_ip, bu_point)`, for buffers of these sizes. -/
def hostScans (hostIp buPoint : Nat) : List CString → List Buffer
  | a :: b :: _ => [⟨hostIp, a⟩, ⟨buPoint, b⟩]
  | [a] => [⟨hostIp, a⟩]
  | [] => []

/-- The scans of the loop over the entries. -/
def nodeScans (volName filesystem user : Nat) : List CString → List Buffer
  | a :: b :: c :: ws =>
    ⟨volName, a⟩ :: ⟨filesystem, b⟩ :: ⟨user, c⟩ :: nodeScans volName filesystem user ws
  | [a, b] => [⟨volName, a⟩, ⟨filesystem, b⟩]
  | [a] => [⟨volName, a⟩]
  | [] => []

/-- What a reader scans out of a file with these words. A backup takes the entries from the list. -/
def UsageReader.scans : UsageReader → List CString → List Buffer
  | .initVolFsList, ws | .ndmpDataStartRecover, ws =>
    hostScans 20 100 ws ++ nodeScans 20 100 30 (ws.drop 2)
  | .ndmpDataStartBackup, ws => hostScans 20 200 ws

/-- The words that are read as volumes. -/
def volumePlaces : List CString → List CString
  | a :: _ :: _ :: ws => a :: volumePlaces ws
  | a :: _ => [a]
  | [] => []

/-- The words that are read as users. -/
def userPlaces : List CString → List CString
  | _ :: _ :: c :: ws => c :: userPlaces ws
  | _ => []

theorem hostScans_fit_iff (hostIp buPoint : Nat) (ws : List CString) :
    (∀ b ∈ hostScans hostIp buPoint ws, b.Fits) ↔
      (∀ w ∈ ws[0]?, w.length < hostIp) ∧ ∀ w ∈ ws[1]?, w.length < buPoint := by
  match ws with
  | [] => simp [hostScans]
  | [a] => simp [hostScans, Buffer.fits_mk, Nat.succ_le_iff]
  | a :: b :: _ => simp [hostScans, Buffer.fits_mk, Nat.succ_le_iff]

/-- Each of the three buffers has its own words. -/
theorem nodeScans_fit_iff (volName filesystem user : Nat) (ws : List CString) :
    (∀ b ∈ nodeScans volName filesystem user ws, b.Fits) ↔
      (∀ w ∈ volumePlaces ws, w.length < volName) ∧ (∀ w ∈ entryKeys ws, w.length < filesystem) ∧
        ∀ w ∈ userPlaces ws, w.length < user := by
  induction ws using nodeScans.induct with
  | case1 a b c ws ih =>
    simp only [nodeScans, volumePlaces, entryKeys, userPlaces, List.forall_mem_cons, ih,
      Buffer.fits_mk, Nat.succ_le_iff]
    tauto
  | case2 a b =>
    simp [nodeScans, volumePlaces, entryKeys, userPlaces, Buffer.fits_mk, Nat.succ_le_iff]
  | case3 a =>
    simp [nodeScans, volumePlaces, entryKeys, userPlaces, Buffer.fits_mk, Nat.succ_le_iff]
  | case4 => simp [nodeScans, volumePlaces, entryKeys, userPlaces]

/-- The words that are read as keys are words. -/
theorem mem_of_mem_entryKeys {ws : List CString} {w : CString} (h : w ∈ entryKeys ws) :
    w ∈ ws := by
  induction ws using nodeScans.induct with
  | case1 a b c ws ih =>
    rcases List.mem_cons.1 h with rfl | h
    · simp
    · simp [ih h]
  | case2 a b =>
    rw [List.mem_singleton.1 h]
    simp
  | case3 | case4 => cases h

/-- The words of a file are short enough for those who read them. -/
structure FileLimits (hostIp : Nat) (ws : List CString) : Prop where
  hostIp_lt : ∀ w ∈ ws[0]?, w.length < hostIp
  buPoint_lt : ∀ w ∈ ws[1]?, w.length < 100
  volumes : ∀ w ∈ volumePlaces (ws.drop 2), w.length < 20
  keys : ∀ w ∈ entryKeys (ws.drop 2), w.length < 100
  users : ∀ w ∈ userPlaces (ws.drop 2), w.length < 30

theorem initVolFsList_scans_fit_iff (ws : List CString) :
    (∀ b ∈ UsageReader.initVolFsList.scans ws, b.Fits) ↔ FileLimits 20 ws := by
  simp only [UsageReader.scans, List.forall_mem_append, hostScans_fit_iff, nodeScans_fit_iff]
  constructor
  · rintro ⟨⟨hhost, hpoint⟩, hvolumes, hkeys, husers⟩
    exact ⟨hhost, hpoint, hvolumes, hkeys, husers⟩
  · rintro ⟨hhost, hpoint, hvolumes, hkeys, husers⟩
    exact ⟨⟨hhost, hpoint⟩, hvolumes, hkeys, husers⟩

/-! ## Incomplete entries -/

/-- The complete triples of a list of words. -/
def triples : List CString → List VolFsNode
  | volName :: filesystem :: user :: ws => ⟨volName, filesystem, user⟩ :: triples ws
  | _ => []

/-- One or two words more make one entry more. -/
theorem scanNodes_eq_triples_iff (node : VolFsNode) (ws : List CString) :
    scanNodes node ws = triples ws ↔ ws.length % 3 = 0 := by
  induction node, ws using scanNodes.induct with
  | case1 node volName filesystem user ws ih =>
    rw [scanNodes, triples, List.cons.injEq, eq_self_iff_true, true_and, ih]
    simp only [List.length_cons]
    omega
  | case2 | case3 => exact iff_of_false (List.cons_ne_nil _ _) (by simp)
  | case4 => exact iff_of_true rfl rfl

/-- The entries `init_vol_fs_list` builds and those a recovery compares are the complete triples
behind the host line, so every key has the volume it has in these; and neither scans a word that is
too long for its buffer. -/
structure ReadsTriples (buf : ScanBuffers) (ret : Nat → Int) (locals : Locals) (w : World) :
    Prop where
  list_fits : ∀ b ∈ UsageReader.initVolFsList.scans (words w.glusterVolUsage), b.Fits
  scan_fits : ∀ b ∈ UsageReader.ndmpDataStartRecover.scans (words w.glusterVolUsage), b.Fits
  list : (initVolFsList buf ret w).2.1 = triples ((words w.glusterVolUsage).drop 2)
  scan : scanNodes locals.scan.node (scanHost locals.scan (words w.glusterVolUsage)).2.2 =
    triples ((words w.glusterVolUsage).drop 2)
  find_eq : ∀ key, find (initVolFsList buf ret w).2.1 key =
    find (triples ((words w.glusterVolUsage).drop 2)) key
  recoverVolume_eq : ∀ key, recoverVolume
      (scanNodes locals.scan.node (scanHost locals.scan (words w.glusterVolUsage)).2.2) key locals =
    recoverVolume (triples ((words w.glusterVolUsage).drop 2)) key locals

theorem initVolFsList_nodes (buf : ScanBuffers) (ret : Nat → Int) (w : World) :
    (initVolFsList buf ret w).2.1 = scanNodes buf.node ((words w.glusterVolUsage).drop 2) :=
  congrArg (scanNodes buf.node) (scanHost_rest _ buf)

/-- **Incomplete entries.** For any file, whatever the buffers hold, the readers see its complete
triples if and only if no incomplete one follows and every word has room in its buffer. -/
theorem readsTriples_iff (buf : ScanBuffers) (ret : Nat → Int) (locals : Locals) (w : World) :
    ReadsTriples buf ret locals w ↔
      ((words w.glusterVolUsage).length - 2) % 3 = 0 ∧ FileLimits 20 (words w.glusterVolUsage) := by
  have hlist := scanNodes_eq_triples_iff buf.node ((words w.glusterVolUsage).drop 2)
  have hscan := scanNodes_eq_triples_iff locals.scan.node ((words w.glusterVolUsage).drop 2)
  rw [List.length_drop] at hlist hscan
  -- a recovery scans into buffers of the same sizes
  have hfits := initVolFsList_scans_fit_iff (words w.glusterVolUsage)
  constructor
  · intro h
    rw [← hlist, ← initVolFsList_nodes]
    exact ⟨h.list, hfits.1 h.list_fits⟩
  · rintro ⟨h, hlimits⟩
    have hbuilt := (initVolFsList_nodes buf ret w).trans (hlist.2 h)
    have hread : scanNodes locals.scan.node (scanHost locals.scan (words w.glusterVolUsage)).2.2 =
        triples ((words w.glusterVolUsage).drop 2) := by
      rw [scanHost_rest]
      exact hscan.2 h
    exact ⟨hfits.2 hlimits, hfits.2 hlimits, hbuilt, hread, fun key => by rw [hbuilt],
      fun key => by rw [hread]⟩

/-- A file whose last line was cut behind its first word. -/
def cutFile : CString := "10.0.0.1 /bu\nvol1 10.0.0.5/home bob\nvol2\n".toList

/-- The cut line is read as an entry for the key of the line before it, and a recovery goes there.
-/
theorem not_readsTriples_cutFile :
    recoverVolume (scanNodes default (scanHost default (words cutFile)).2.2)
        "10.0.0.5/home".toList default = "vol2".toList ∧
      recoverVolume (triples ((words cutFile).drop 2)) "10.0.0.5/home".toList default =
        "vol1".toList ∧
      ¬ ReadsTriples default (fun _ => 0) default (.boot cutFile) := by
  have hread : recoverVolume (scanNodes default (scanHost default (words cutFile)).2.2)
      "10.0.0.5/home".toList default = "vol2".toList := by decide +kernel
  have hmeant : recoverVolume (triples ((words cutFile).drop 2)) "10.0.0.5/home".toList default =
      "vol1".toList := by decide +kernel
  refine ⟨hread, hmeant, fun h => ?_⟩
  have heq := hread.symm.trans ((h.recoverVolume_eq _).trans hmeant)
  exact absurd heq (by decide)

/-! ## What the server writes -/

/-- The host line as `set_host_config` writes it: two words out of `host_ip[17]` and
`bu_point[200]`. -/
structure HostEntry where
  hostIp : CString
  buPoint : CString
  hostIp_word : IsWord hostIp
  buPoint_word : IsWord buPoint
  hostIp_lt : hostIp.length < 17
  buPoint_lt : buPoint.length < 200

/-- What a backup of a new path writes: a word out of `vol_name[20]`, the address of the client,
and the values of `FILESYSTEM` and `USER`, of 63 characters at most. -/
structure UsageEntry where
  volName : CString
  client : CString
  path : CString
  user : CString
  volName_word : IsWord volName
  volName_lt : volName.length < 20
  client_lt : client.length < 16
  path_lt : path.length < 64
  user_lt : user.length < 64

def HostEntry.text (host : HostEntry) : CString :=
  host.hostIp ++ " ".toList ++ host.buPoint ++ "\n".toList

def UsageEntry.line (e : UsageEntry) : CString :=
  usageLine e.volName (clientIpFs e.client e.path) e.user

/-- The file, with nothing in it that the server has not written. -/
def writtenFile (host : HostEntry) (entries : List UsageEntry) : CString :=
  host.text ++ entries.flatMap UsageEntry.line

/-- It begins with what `set_host_config` writes into an empty file. -/
theorem setHostConfig_boot (host : HostEntry) :
    (setHostConfig host.hostIp host.buPoint (.boot [])).glusterVolUsage = writtenFile host [] :=
  (List.append_nil _).symm

/-- A backup of a new path adds a line. -/
theorem backupVolume_written {host : HostEntry} {entries : List UsageEntry} {w : World}
    (hw : w.glusterVolUsage = writtenFile host entries) (nodes : List VolFsNode) (e : UsageEntry)
    (hnew : find nodes (clientIpFs e.client e.path) = none) :
    (backupVolume nodes (clientIpFs e.client e.path) e.user e.volName w).1.glusterVolUsage =
      writtenFile host (entries ++ [e]) := by
  rw [backupVolume, hnew]
  show w.glusterVolUsage ++ e.line = _
  rw [hw, writtenFile, writtenFile, List.flatMap_append, List.flatMap_singleton, List.append_assoc]

/-- The words of an entry: the path may have several, and the user, too. -/
def UsageEntry.words (e : UsageEntry) : List CString :=
  e.volName :: (GlfsNdmp.words (clientIpFs e.client e.path) ++ GlfsNdmp.words e.user)

theorem words_writtenFile (host : HostEntry) (entries : List UsageEntry) :
    words (writtenFile host entries) =
      host.hostIp :: host.buPoint :: entries.flatMap UsageEntry.words := by
  have hline (e : UsageEntry) : words e.line = e.words := by
    rw [UsageEntry.line, words_usageLine, words_of_isWord e.volName_word]
    rfl
  have hlines : words (entries.flatMap UsageEntry.line) = entries.flatMap UsageEntry.words := by
    induction entries with
    | nil => rfl
    | cons e entries ih =>
      have hapart : EndsApart e.line := endsApart_usageLine _ _ _
      rw [List.flatMap_cons, List.flatMap_cons, words_append hapart, ih, hline]
  have hhost : words host.text = [host.hostIp, host.buPoint] := by
    have hline : " ".toList ++ (host.buPoint ++ "\n".toList) =
        ' ' :: (host.buPoint ++ '\n' :: []) := rfl
    rw [HostEntry.text, List.append_assoc, List.append_assoc, hline, words_space rfl,
      words_space rfl, words_of_isWord host.hostIp_word, words_of_isWord host.buPoint_word]
    rfl
  have hapart : EndsApart host.text := endsApart_concat rfl
  rw [writtenFile, words_append hapart, hlines, hhost]
  rfl

/-! ## What the readers scan of it -/

/-- Every word fits the buffer of every reader. -/
def WrittenFits (host : HostEntry) (entries : List UsageEntry) : Prop :=
  ∀ reader : UsageReader, ∀ b ∈ reader.scans (words (writtenFile host entries)), b.Fits

/-- A word is no longer than the text it is in. -/
theorem length_le_of_mem_wordsFrom {w a x : CString} (hx : x ∈ wordsFrom w a) :
    x.length ≤ w.length + a.length := by
  induction a generalizing w with
  | nil =>
    unfold wordsFrom at hx
    split at hx
    · cases hx
    · rw [List.mem_singleton.1 hx]
      exact Nat.le_add_right _ _
  | cons c a ih =>
    unfold wordsFrom at hx
    by_cases hc : isSpace c = true
    · rw [if_pos hc] at hx
      split at hx
      · have hle := ih hx
        simp only [List.length_nil, List.length_cons] at hle ⊢
        omega
      · rcases List.mem_cons.1 hx with rfl | hx
        · exact Nat.le_add_right _ _
        · have hle := ih hx
          simp only [List.length_nil, List.length_cons] at hle ⊢
          omega
    · rw [if_neg hc] at hx
      have hle := ih hx
      simp only [List.length_append, List.length_cons, List.length_nil] at hle ⊢
      omega

theorem length_lt_of_mem_entryWords {e : UsageEntry} {w : CString} (hw : w ∈ e.words) :
    w.length < 100 := by
  have hvol := e.volName_lt
  have hclient := e.client_lt
  have hpath := e.path_lt
  have huser := e.user_lt
  rcases List.mem_cons.1 hw with rfl | hw
  · omega
  · rcases List.mem_append.1 hw with hw | hw
    · have hle := length_le_of_mem_wordsFrom hw
      rw [clientIpFs, List.length_append, List.length_nil] at hle
      omega
    · have hle := length_le_of_mem_wordsFrom hw
      rw [List.length_nil] at hle
      omega

/-- **What is written can be read.** The words the server writes fit the buffers of all readers if
and only if the backup point has less than 100 characters, and of the words behind the host line
those that are read as volumes have less than 20 and those that are read as users less than 30. -/
theorem written_fits_iff (host : HostEntry) (entries : List UsageEntry) :
    WrittenFits host entries ↔ host.buPoint.length < 100 ∧
      (∀ w ∈ volumePlaces (entries.flatMap UsageEntry.words), w.length < 20) ∧
        ∀ w ∈ userPlaces (entries.flatMap UsageEntry.words), w.length < 30 := by
  have hshort : ∀ w ∈ entries.flatMap UsageEntry.words, w.length < 100 := by
    intro w hw
    obtain ⟨e, -, hw⟩ := List.mem_flatMap.1 hw
    exact length_lt_of_mem_entryWords hw
  have hhost := host.hostIp_lt
  have hpoint := host.buPoint_lt
  have hkeys : ∀ w ∈ entryKeys (entries.flatMap UsageEntry.words), w.length < 100 :=
    fun w hw => hshort w (mem_of_mem_entryKeys hw)
  have hfit := nodeScans_fit_iff 20 100 30 (entries.flatMap UsageEntry.words)
  rw [and_iff_right hkeys] at hfit
  rw [← hfit]
  unfold WrittenFits
  rw [words_writtenFile]
  constructor
  · intro hall
    have hinit := hall .initVolFsList
    simp only [UsageReader.scans, hostScans, List.cons_append, List.nil_append, List.drop_succ_cons,
      List.drop_zero, List.forall_mem_cons, Buffer.fits_mk] at hinit
    exact ⟨hinit.2.1, hinit.2.2⟩
  · rintro ⟨hbuPoint, hnodes⟩ reader
    have hlist : ∀ b ∈ hostScans 20 100 (host.hostIp :: host.buPoint ::
        entries.flatMap UsageEntry.words) ++ nodeScans 20 100 30
          (entries.flatMap UsageEntry.words), b.Fits := by
      simp only [hostScans, List.cons_append, List.nil_append, List.forall_mem_cons, Buffer.fits_mk]
      exact ⟨by omega, hbuPoint, hnodes⟩
    cases reader with
    | initVolFsList | ndmpDataStartRecover => exact hlist
    | ndmpDataStartBackup =>
      simp only [UsageReader.scans, hostScans, List.forall_mem_cons, Buffer.fits_mk]
      exact ⟨by omega, by omega, by simp⟩

/-- A user whose name has thirty characters. -/
def longUser : UsageEntry where
  volName := "vol1".toList
  client := "10.0.0.5".toList
  path := "/home".toList
  user := List.replicate 30 'u'
  volName_word := by decide
  volName_lt := by decide
  client_lt := by decide
  path_lt := by decide
  user_lt := by decide

def shortHost : HostEntry where
  hostIp := "10.0.0.1".toList
  buPoint := "/bu".toList
  hostIp_word := by decide
  buPoint_word := by decide
  hostIp_lt := by decide
  buPoint_lt := by decide

/-- The name does not fit `temp_user[30]`. -/
theorem not_writtenFits_longUser : ¬ WrittenFits shortHost [longUser] := by
  intro hall
  have hmem : (⟨30, List.replicate 30 'u'⟩ : Buffer) ∈ UsageReader.initVolFsList.scans
      (words (writtenFile shortHost [longUser])) := by decide +kernel
  exact absurd (hall .initVolFsList _ hmem) (by decide)

end GlfsNdmp
