import GlfsNdmp.Mount

/-!
# What the file `gluster_vol_usage` records

A backup of a path not yet in the file appends one line to it, and the file is read back word by
word. As long as what is appended consists of single words the file is a table of triples with one
entry for each key (`UsageTable`), and every reader sees that table.

`lookups_agree`: the first match `DATA_START_BACKUP` takes and the last match `DATA_START_RECOVER`
takes are then the same volume, and a recovery reads below the directory the backup went to.

`parsesBack_iff`: the triples appended in a run are the triples read back, if and only if every
request that is the first to use its key comes with a key and a user that are single words.
-/

namespace GlfsNdmp

/-! ## Texts and their words -/

/-- What `%s` reads. -/
def IsWord (w : CString) : Prop := w ≠ [] ∧ ∀ c ∈ w, isSpace c = false

instance (w : CString) : Decidable (IsWord w) :=
  @instDecidableAnd _ _ inferInstance (List.decidableBAll _ w)

/-- A text after which the next word starts afresh. -/
def EndsApart (a : CString) : Prop := ∀ c ∈ a.getLast?, isSpace c = true

instance (a : CString) : Decidable (EndsApart a) :=
  @Option.decidableForallMem Char (isSpace · = true) inferInstance a.getLast?

theorem endsApart_nil : EndsApart [] := by
  rintro c ⟨⟩

theorem endsApart_concat {a : CString} {c : Char} (hc : isSpace c = true) :
    EndsApart (a ++ [c]) := by
  intro d hd
  rw [List.getLast?_concat, Option.mem_some_iff] at hd
  rw [← hd, hc]

theorem endsApart_append {a b : CString} (ha : EndsApart a) (hb : EndsApart b) :
    EndsApart (a ++ b) := by
  rcases List.eq_nil_or_concat b with rfl | ⟨b, c, rfl⟩
  · rwa [List.append_nil]
  · rw [List.concat_eq_append] at hb ⊢
    rw [← List.append_assoc]
    exact endsApart_concat (hb c (by simp))

theorem wordsFrom_append {a : CString} (hne : a ≠ []) (ha : EndsApart a) (w b : CString) :
    wordsFrom w (a ++ b) = wordsFrom w a ++ wordsFrom [] b := by
  induction a generalizing w with
  | nil => exact absurd rfl hne
  | cons c a ih =>
    rcases List.eq_nil_or_concat a with rfl | ⟨_, _, hconcat⟩
    · have hc : isSpace c = true := ha c rfl
      by_cases hw : w = [] <;> simp [wordsFrom, hc, hw]
    · have hne' : a ≠ [] := by simp [hconcat]
      have ha' : EndsApart a := fun d hd => ha d (by rwa [List.getLast?_cons_of_ne_nil hne'])
      rw [List.cons_append, wordsFrom, wordsFrom]
      by_cases hc : isSpace c = true
      · by_cases hw : w = [] <;> simp [hc, hw, ih hne' ha']
      · simp [hc, ih hne' ha']

/-- Two texts are read one after the other. -/
theorem words_append {a : CString} (ha : EndsApart a) (b : CString) :
    words (a ++ b) = words a ++ words b := by
  by_cases hne : a = []
  · subst hne
    rfl
  · exact wordsFrom_append hne ha [] b

theorem wordsFrom_concat_space {c : Char} (hc : isSpace c = true) (w a : CString) :
    wordsFrom w (a ++ [c]) = wordsFrom w a := by
  induction a generalizing w with
  | nil => by_cases hw : w = [] <;> simp [wordsFrom, hc, hw]
  | cons d a ih =>
    rw [List.cons_append, wordsFrom, wordsFrom]
    by_cases hd : isSpace d = true
    · by_cases hw : w = [] <;> simp [hd, hw, ih]
    · simp [hd, ih]

/-- White space between two texts keeps their words apart. -/
theorem words_space {c : Char} (hc : isSpace c = true) (a b : CString) :
    words (a ++ c :: b) = words a ++ words b := by
  rw [List.append_cons, words_append (endsApart_concat hc), words, wordsFrom_concat_space hc]
  rfl

theorem wordsFrom_of_noSpace {a : CString} (ha : ∀ c ∈ a, isSpace c = false) (w : CString) :
    wordsFrom w a = if w ++ a = [] then [] else [w ++ a] := by
  induction a generalizing w with
  | nil => simp [wordsFrom]
  | cons c a ih =>
    rw [wordsFrom, ha c List.mem_cons_self, if_neg Bool.false_ne_true,
      ih fun d hd => ha d (List.mem_cons_of_mem c hd)]
    simp

theorem words_of_isWord {w : CString} (hw : IsWord w) : words w = [w] := by
  rw [words, wordsFrom_of_noSpace hw.2]
  simp [hw.1]

theorem isWord_of_mem_wordsFrom {w a x : CString} (hw : ∀ c ∈ w, isSpace c = false)
    (hx : x ∈ wordsFrom w a) : IsWord x := by
  induction a generalizing w with
  | nil =>
    unfold wordsFrom at hx
    split at hx
    · cases hx
    · rename_i hne
      rw [List.mem_singleton.1 hx]
      exact ⟨hne, hw⟩
  | cons c a ih =>
    unfold wordsFrom at hx
    by_cases hc : isSpace c = true
    · rw [if_pos hc] at hx
      split at hx
      · exact ih (by simp) hx
      · rename_i hne
        rcases List.mem_cons.1 hx with rfl | hx
        · exact ⟨hne, hw⟩
        · exact ih (by simp) hx
    · rw [if_neg hc] at hx
      refine ih (fun d hd => ?_) hx
      rcases List.mem_append.1 hd with hd | hd
      · exact hw d hd
      · rw [List.mem_singleton.1 hd]
        simpa using hc

theorem isWord_of_mem_words {a x : CString} (hx : x ∈ words a) : IsWord x :=
  isWord_of_mem_wordsFrom (by simp) hx

/-! ## Lines and entries -/

namespace VolFsNode

/-- The three words of an entry. -/
def fields (node : VolFsNode) : List CString := [node.volName, node.filesystem, node.user]

/-- Each field is one word. -/
def Wordy (node : VolFsNode) : Prop := ∀ w ∈ node.fields, IsWord w

instance (node : VolFsNode) : Decidable node.Wordy := inferInstanceAs (Decidable (∀ _ ∈ _, _))

/-- The line that is written for an entry. -/
def line (node : VolFsNode) : CString := usageLine node.volName node.filesystem node.user

end VolFsNode

theorem words_usageLine (volName key user : CString) :
    words (usageLine volName key user) = words volName ++ (words key ++ words user) := by
  unfold usageLine
  simp only [List.append_assoc]
  rw [show " ".toList ++ (key ++ (" ".toList ++ (user ++ "\n".toList))) =
      ' ' :: (key ++ ' ' :: (user ++ '\n' :: [])) from rfl, words_space rfl, words_space rfl,
    words_space rfl]
  simp [words, wordsFrom]

theorem words_line {node : VolFsNode} (h : node.Wordy) : words node.line = node.fields := by
  have hvol := words_of_isWord (h node.volName (by simp [VolFsNode.fields]))
  have hkey := words_of_isWord (h node.filesystem (by simp [VolFsNode.fields]))
  have huser := words_of_isWord (h node.user (by simp [VolFsNode.fields]))
  rw [VolFsNode.line, words_usageLine, hvol, hkey, huser]
  rfl

theorem endsApart_usageLine (volName key user : CString) :
    EndsApart (usageLine volName key user) := endsApart_concat rfl

/-- Complete entries are read as they are, whatever the buffers held. -/
theorem scanNodes_fields (node : VolFsNode) (nodes : List VolFsNode) :
    scanNodes node (nodes.flatMap VolFsNode.fields) = nodes := by
  induction nodes generalizing node with
  | nil => rfl
  | cons n nodes ih =>
    rw [List.flatMap_cons]
    show n :: scanNodes n (nodes.flatMap VolFsNode.fields) = _
    rw [ih]

/-- What is read consists of words, if the buffers do. -/
theorem wordy_of_mem_scanNodes {node n : VolFsNode} {ws : List CString} (hnode : node.Wordy)
    (hws : ∀ w ∈ ws, IsWord w) (hn : n ∈ scanNodes node ws) : n.Wordy := by
  have mk {a b c : CString} (ha : IsWord a) (hb : IsWord b) (hc : IsWord c) :
      VolFsNode.Wordy ⟨a, b, c⟩ := by
    simpa [VolFsNode.Wordy, VolFsNode.fields] using ⟨ha, hb, hc⟩
  induction node, ws using scanNodes.induct with
  | case1 node volName filesystem user ws ih =>
    have hfull := mk (hws volName (by simp)) (hws filesystem (by simp)) (hws user (by simp))
    rcases List.mem_cons.1 hn with rfl | hn
    · exact hfull
    · exact ih hfull (fun w hw => hws w (by simp [hw])) hn
  | case2 node volName filesystem =>
    rw [List.mem_singleton.1 hn]
    exact mk (hws _ (by simp)) (hws _ (by simp)) (hnode _ (by simp [VolFsNode.fields]))
  | case3 node volName =>
    rw [List.mem_singleton.1 hn]
    exact mk (hws _ (by simp)) (hnode _ (by simp [VolFsNode.fields]))
      (hnode _ (by simp [VolFsNode.fields]))
  | case4 node => cases hn

/-! ## The table -/

/-- The file for what it is kept for: entries with distinct keys, oldest first. -/
structure UsageTable where
  entries : List VolFsNode
  nodup : (entries.map VolFsNode.filesystem).Nodup

namespace UsageTable

def empty : UsageTable := ⟨[], List.nodup_nil⟩

def keys (table : UsageTable) : List CString := table.entries.map VolFsNode.filesystem

/-- Enter a node under its key, unless the key has an entry. -/
def add (table : UsageTable) (node : VolFsNode) : UsageTable :=
  if h : node.filesystem ∈ table.keys then table
  else
    { entries := table.entries ++ [node]
      nodup := by
        rw [List.map_append, List.nodup_append]
        refine ⟨table.nodup, by simp, fun a ha b hb heq => h ?_⟩
        rw [List.map_singleton, List.mem_singleton] at hb
        rwa [heq, hb] at ha }

theorem add_of_mem {table : UsageTable} {node : VolFsNode} (h : node.filesystem ∈ table.keys) :
    table.add node = table := dif_pos h

theorem entries_add_of_not_mem {table : UsageTable} {node : VolFsNode}
    (h : node.filesystem ∉ table.keys) :
    (table.add node).entries = table.entries ++ [node] := by
  rw [add, dif_neg h]

theorem mem_keys_add {table : UsageTable} {node : VolFsNode} {key : CString} :
    key ∈ (table.add node).keys ↔ key ∈ table.keys ∨ key = node.filesystem := by
  by_cases h : node.filesystem ∈ table.keys
  · rw [add_of_mem h, iff_self_or]
    rintro rfl
    exact h
  · rw [keys, entries_add_of_not_mem h, List.map_append, List.mem_append, List.map_singleton,
      List.mem_singleton]
    rfl

end UsageTable

theorem find_eq_none {nodes : List VolFsNode} {key : CString} :
    find nodes key = none ↔ key ∉ nodes.map VolFsNode.filesystem := by
  simp [find, List.find?_eq_none]

/-- Under distinct keys, the first match is the last. -/
theorem lastWrite_eq_find {nodes : List VolFsNode}
    (h : (nodes.map VolFsNode.filesystem).Nodup) (key : CString) :
    Register.lastWrite (fun node => if node.filesystem = key then some node.volName else none)
      nodes = (find nodes key).map VolFsNode.volName := by
  induction nodes with
  | nil => rfl
  | cons node nodes ih =>
    rw [List.map_cons, List.nodup_cons] at h
    rw [← List.singleton_append, Register.lastWrite_append, ih h.2]
    by_cases hkey : node.filesystem = key
    · have hnone : find nodes key = none := find_eq_none.2 (hkey ▸ h.1)
      rw [hnone]
      simp [find, Register.lastWrite, hkey]
    · have hrest : find ([node] ++ nodes) key = find nodes key := by simp [find, hkey]
      rw [hrest]
      simp [Register.lastWrite, hkey]

/-! ## What a request enters -/

/-- `client_path`: the value of `FILESYSTEM`. -/
def clientPathOf (env : List NdmpPval) (locals : Locals) : CString :=
  (envValue "FILESYSTEM".toList env).getD locals.clientPath

/-- `user_name`: the value of `USER`. -/
def userNameOf (env : List NdmpPval) (locals : Locals) : CString :=
  (envValue "USER".toList env).getD locals.userName

/-- The entry a backup makes if its key has none: the volume typed in, the key and the user. -/
def ClientTxn.usage (txn : ClientTxn) : Option VolFsNode :=
  match txn.request with
  | .dataStartBackup request =>
    some ⟨typedVolume txn.locals txn.answers,
      clientIpFs txn.client (clientPathOf request.env txn.locals),
      userNameOf request.env txn.locals⟩
  | _ => none

namespace UsageTable

/-- What a request does to the table. -/
def handle (table : UsageTable) (txn : ClientTxn) : UsageTable :=
  txn.usage.elim table table.add

theorem mem_entries_handle {table : UsageTable} {txn : ClientTxn} {node : VolFsNode}
    (h : node ∈ table.entries) : node ∈ (table.handle txn).entries := by
  unfold handle
  cases txn.usage with
  | none => exact h
  | some new =>
    rw [Option.elim_some]
    by_cases hkey : new.filesystem ∈ table.keys
    · rwa [add_of_mem hkey]
    · rw [entries_add_of_not_mem hkey]
      exact List.mem_append_left _ h

theorem mem_handle_entries {table : UsageTable} {txn : ClientTxn} {node : VolFsNode}
    (h : node ∈ (table.handle txn).entries) : node ∈ table.entries ∨ node ∈ txn.usage := by
  unfold handle at h
  cases husage : txn.usage with
  | none =>
    rw [husage] at h
    exact Or.inl h
  | some new =>
    rw [husage, Option.elim_some] at h
    by_cases hkey : new.filesystem ∈ table.keys
    · exact Or.inl (add_of_mem hkey ▸ h)
    · rw [entries_add_of_not_mem hkey, List.mem_append, List.mem_singleton] at h
      exact h.imp_right fun hnode => by rw [hnode, Option.mem_some_iff]

/-- The table after a run. -/
def run (table : UsageTable) (txns : List ClientTxn) : UsageTable := txns.foldl handle table

theorem run_concat (table : UsageTable) (txns : List ClientTxn) (txn : ClientTxn) :
    table.run (txns ++ [txn]) = (table.run txns).handle txn := by
  rw [run, List.foldl_append]
  rfl

/-- The keys in use are those that were there and those of the requests so far. -/
theorem mem_keys_run {table : UsageTable} {txns : List ClientTxn} {key : CString} :
    key ∈ (table.run txns).keys ↔
      key ∈ table.keys ∨ ∃ txn ∈ txns, ∃ node ∈ txn.usage, node.filesystem = key := by
  induction txns using List.reverseRecOn with
  | nil => simp [run]
  | append_singleton txns txn ih =>
    rw [run_concat, handle]
    cases h : txn.usage with
    | none => simp [ih, h, or_and_right, exists_or]
    | some node =>
      rw [Option.elim_some, mem_keys_add, ih]
      simp [h, or_and_right, exists_or, eq_comm, or_assoc]

end UsageTable

/-! ## The file as the code keeps it -/

/-- The file after `set_host_config`. -/
def hostConfigured (hostIp buPoint file : CString) : CString :=
  match words file with
  | _ :: _ :: _ => file
  | _ => file ++ (hostIp ++ " ".toList ++ buPoint ++ "\n".toList)

theorem setHostConfig_glusterVolUsage (hostIp buPoint : CString) (w : World) :
    (setHostConfig hostIp buPoint w).glusterVolUsage =
      hostConfigured hostIp buPoint w.glusterVolUsage := by
  unfold setHostConfig hostConfigured
  rcases words w.glusterVolUsage with _ | ⟨_, _ | ⟨_, _⟩⟩ <;> rfl

@[simp] theorem initVolFsList_glusterVolUsage (buf : ScanBuffers) (ret : Nat → Int) (w : World) :
    (initVolFsList buf ret w).1.glusterVolUsage = w.glusterVolUsage := by
  simp only [initVolFsList]
  split
  · exact mountNodes_glusterVolUsage _ _ _ _ _ _
  · rfl

theorem backupVolume_isItNew (nodes : List VolFsNode) (key user typed : CString) (w : World) :
    (backupVolume nodes key user typed w).2.2 = (find nodes key).isNone := by
  unfold backupVolume
  cases find nodes key <;> rfl

theorem backupVolume_volName (nodes : List VolFsNode) (key user typed : CString) (w : World) :
    (backupVolume nodes key user typed w).2.1 =
      ((find nodes key).map VolFsNode.volName).getD typed := by
  unfold backupVolume
  cases find nodes key <;> rfl

theorem backupVolume_glusterVolUsage (nodes : List VolFsNode) (key user typed : CString)
    (w : World) :
    (backupVolume nodes key user typed w).1.glusterVolUsage = w.glusterVolUsage ++
      if (backupVolume nodes key user typed w).2.2 then
        usageLine (backupVolume nodes key user typed w).2.1 key user
      else [] := by
  unfold backupVolume
  cases find nodes key with
  | some node => exact (List.append_nil _).symm
  | none => rfl

/-- The nodes a backup searches. -/
def searched (locals : Locals) (answers : Answers) (w : World) : List VolFsNode :=
  (initVolFsList locals.initScan answers.remount w).2.1

theorem backupTarget_isItNew (env : List NdmpPval) (client : CString) (locals : Locals)
    (answers : Answers) (w : World) :
    (backupTarget env client locals answers w).isItNew =
      (find (searched locals answers w) (clientIpFs client (clientPathOf env locals))).isNone :=
  backupVolume_isItNew _ _ _ _ _

theorem backupTarget_volName (env : List NdmpPval) (client : CString) (locals : Locals)
    (answers : Answers) (w : World) :
    (backupTarget env client locals answers w).volName =
      ((find (searched locals answers w) (clientIpFs client (clientPathOf env locals))).map
        VolFsNode.volName).getD (typedVolume locals answers) :=
  backupVolume_volName _ _ _ _ _

/-- What the handler appends: the host line if there is none, and the line of a new key. -/
theorem backupTarget_glusterVolUsage (env : List NdmpPval) (client : CString) (locals : Locals)
    (answers : Answers) (w : World) :
    let target := backupTarget env client locals answers w
    target.world.glusterVolUsage =
      hostConfigured answers.hostIp answers.buPoint w.glusterVolUsage ++
        if target.isItNew then usageLine target.volName (clientIpFs client target.path) target.user
        else [] := by
  intro target
  have hhost : (setHostConfig answers.hostIp answers.buPoint
      (initVolFsList locals.initScan answers.remount w).1).glusterVolUsage =
        hostConfigured answers.hostIp answers.buPoint w.glusterVolUsage := by
    rw [setHostConfig_glusterVolUsage, initVolFsList_glusterVolUsage]
  rw [← hhost]
  exact backupVolume_glusterVolUsage _ _ _ _ _

theorem backupCommands_glusterVolUsage (hostIp buPoint volName : CString) (isItNew : Bool)
    (user client path : CString) (answers : Answers) (w : World) :
    (backupCommands hostIp buPoint volName isItNew user client path answers w).1.glusterVolUsage =
      w.glusterVolUsage := by
  unfold backupCommands
  cases isItNew with
  | false => rfl
  | true =>
    simp only [if_true, true_and]
    split <;> rfl

/-- The line a request appends, as an entry. -/
def enteredBy (e : ServerEvent) : List VolFsNode :=
  match e.input.request with
  | .dataStartBackup request =>
    let target := targetOf e request
    if target.isItNew then
      [⟨target.volName, clientIpFs e.input.client target.path, target.user⟩]
    else []
  | _ => []

/-- The file after a request. -/
theorem worldEffect_glusterVolUsage {srv : Server} {txn : ClientTxn}
    {request : NdmpDataStartBackupRequest} (hreq : txn.request = .dataStartBackup request) :
    (worldEffect txn srv.world).glusterVolUsage =
      hostConfigured txn.answers.hostIp txn.answers.buPoint srv.world.glusterVolUsage ++
        (enteredBy (eventOf srv txn)).flatMap VolFsNode.line := by
  simp only [worldEffect, hreq, enteredBy, eventOf_input]
  rw [runBackup, backupCommands_glusterVolUsage, backupTarget_glusterVolUsage]
  congr 1
  show (if (targetOf (eventOf srv txn) request).isItNew then _ else _) = _
  split <;> rename_i h
  · simp [VolFsNode.line, targetOf]
  · simp

/-- Only backups write to the file. -/
theorem worldEffect_glusterVolUsage_of_usage {txn : ClientTxn} (h : txn.usage = none) (w : World) :
    (worldEffect txn w).glusterVolUsage = w.glusterVolUsage := by
  unfold worldEffect
  cases hreq : txn.request with
  | dataStartBackup request =>
    rw [ClientTxn.usage, hreq] at h
    cases h
  | _ => rfl

/-- The file records some entries: read word by word, after a host line if there is one. -/
structure Holds (file : CString) (entries : List VolFsNode) : Prop where
  apart : EndsApart file
  reads : words file = [] ∧ entries = [] ∨
    ∃ hostIp buPoint, words file = hostIp :: buPoint :: entries.flatMap VolFsNode.fields

section

variable {file : CString} {entries : List VolFsNode}

/-- `init_vol_fs_list` reads the entries back. -/
theorem Holds.initVolFsList_eq {w : World} (h : Holds w.glusterVolUsage entries)
    (buf : ScanBuffers) (ret : Nat → Int) : (initVolFsList buf ret w).2.1 = entries := by
  show scanNodes buf.node (scanHost buf (words w.glusterVolUsage)).2.2 = entries
  rcases h.reads with ⟨hwords, rfl⟩ | ⟨hostIp, buPoint, hwords⟩
  · rw [hwords]
    rfl
  · rw [hwords]
    exact scanNodes_fields _ _

/-- A backup finds the entry of its key. -/
theorem Holds.isItNew {w : World} (h : Holds w.glusterVolUsage entries) (env : List NdmpPval)
    (client : CString) (locals : Locals) (answers : Answers) :
    (backupTarget env client locals answers w).isItNew =
      (find entries (clientIpFs client (clientPathOf env locals))).isNone := by
  rw [backupTarget_isItNew, searched, h.initVolFsList_eq]

theorem Holds.volName {w : World} (h : Holds w.glusterVolUsage entries) (env : List NdmpPval)
    (client : CString) (locals : Locals) (answers : Answers) :
    (backupTarget env client locals answers w).volName =
      ((find entries (clientIpFs client (clientPathOf env locals))).map
        VolFsNode.volName).getD (typedVolume locals answers) := by
  rw [backupTarget_volName, searched, h.initVolFsList_eq]

/-- Entries that are there are entries of words. -/
theorem Holds.wordy (h : Holds file entries) : ∀ node ∈ entries, node.Wordy := by
  intro node hnode x hx
  rcases h.reads with ⟨-, rfl⟩ | ⟨hostIp, buPoint, hwords⟩
  · cases hnode
  · refine isWord_of_mem_words (a := file) ?_
    rw [hwords]
    exact List.mem_cons_of_mem _ (List.mem_cons_of_mem _ (List.mem_flatMap.2 ⟨node, hnode, hx⟩))

/-- The host line is written where it is missing, and is left where it is. -/
theorem Holds.words_hostConfigured (h : Holds file entries) {hostIp buPoint : CString}
    (hword : words file = [] → IsWord hostIp ∧ IsWord buPoint) :
    EndsApart (hostConfigured hostIp buPoint file) ∧
      words (hostConfigured hostIp buPoint file) =
        if words file = [] then [hostIp, buPoint] else words file := by
  rcases h.reads with ⟨hwords, rfl⟩ | ⟨hostIp', buPoint', hwords⟩
  · obtain ⟨hhost, hpoint⟩ := hword hwords
    rw [if_pos hwords]
    simp only [hostConfigured, hwords]
    refine ⟨endsApart_append h.apart (endsApart_concat rfl), ?_⟩
    rw [words_append h.apart, hwords, List.append_assoc, List.append_assoc]
    show words (hostIp ++ ' ' :: (buPoint ++ '\n' :: [])) = _
    rw [words_space rfl, words_space rfl, words_of_isWord hhost, words_of_isWord hpoint]
    rfl
  · have hfile : hostConfigured hostIp buPoint file = file := by
      simp only [hostConfigured, hwords]
    have hne : words file ≠ [] := by
      rw [hwords]
      exact List.cons_ne_nil _ _
    rw [hfile, if_neg hne]
    exact ⟨h.apart, rfl⟩

theorem Holds.hostConfigured (h : Holds file entries) {hostIp buPoint : CString}
    (hword : words file = [] → IsWord hostIp ∧ IsWord buPoint) :
    EndsApart (hostConfigured hostIp buPoint file) ∧ ∃ hostIp' buPoint',
      words (GlfsNdmp.hostConfigured hostIp buPoint file) =
        hostIp' :: buPoint' :: entries.flatMap VolFsNode.fields := by
  obtain ⟨hapart, hconfigured⟩ := h.words_hostConfigured hword
  refine ⟨hapart, ?_⟩
  rw [hconfigured]
  rcases h.reads with ⟨hwords, rfl⟩ | ⟨hostIp', buPoint', hwords⟩
  · rw [if_pos hwords]
    exact ⟨hostIp, buPoint, rfl⟩
  · rw [hwords, if_neg (List.cons_ne_nil _ _)]
    exact ⟨hostIp', buPoint', rfl⟩

/-- Lines of words are further entries. -/
theorem holds_append_lines (h : EndsApart file) {hostIp buPoint : CString}
    (hwords : words file = hostIp :: buPoint :: entries.flatMap VolFsNode.fields)
    {nodes : List VolFsNode} (hnodes : ∀ node ∈ nodes, node.Wordy) :
    Holds (file ++ nodes.flatMap VolFsNode.line) (entries ++ nodes) := by
  induction nodes generalizing file entries with
  | nil => simpa using ⟨h, Or.inr ⟨hostIp, buPoint, hwords⟩⟩
  | cons node nodes ih =>
    have hline : words (file ++ node.line) =
        hostIp :: buPoint :: (entries ++ [node]).flatMap VolFsNode.fields := by
      rw [words_append h, hwords, words_line (hnodes node List.mem_cons_self)]
      simp
    have hrest := ih (endsApart_append h (endsApart_usageLine _ _ _)) hline
      fun n hn => hnodes n (List.mem_cons_of_mem _ hn)
    rw [List.flatMap_cons, ← List.append_assoc, List.append_cons]
    exact hrest

end

/-! ## Runs -/

/-- With the table in the file, a request enters what it enters in the table. -/
theorem handle_entries {srv : Server} {table : UsageTable}
    (h : Holds srv.world.glusterVolUsage table.entries) (txn : ClientTxn) :
    (table.handle txn).entries = table.entries ++ enteredBy (eventOf srv txn) := by
  unfold UsageTable.handle ClientTxn.usage enteredBy
  simp only [eventOf_input]
  cases hreq : txn.request with
  | dataStartBackup request =>
    have hnew : (targetOf (eventOf srv txn) request).isItNew =
        (find table.entries (clientIpFs txn.client (clientPathOf request.env txn.locals))).isNone :=
      h.isItNew request.env txn.client txn.locals txn.answers
    have hvol : (targetOf (eventOf srv txn) request).volName =
        ((find table.entries (clientIpFs txn.client (clientPathOf request.env txn.locals))).map
          VolFsNode.volName).getD (typedVolume txn.locals txn.answers) :=
      h.volName request.env txn.client txn.locals txn.answers
    simp only [Option.elim_some, hnew, hvol]
    by_cases hmem : clientIpFs txn.client (clientPathOf request.env txn.locals) ∈ table.keys
    · have hfind : find table.entries _ ≠ none := fun hnone => find_eq_none.1 hnone hmem
      obtain ⟨node, hsome⟩ := Option.ne_none_iff_exists'.1 hfind
      rw [UsageTable.add_of_mem hmem, hsome]
      simp
    · rw [UsageTable.entries_add_of_not_mem hmem, find_eq_none.2 hmem]
      rfl
  | _ => simp

/-- One request keeps the table in the file, if what it enters is words. -/
theorem holds_step {srv : Server} {table : UsageTable}
    (h : Holds srv.world.glusterVolUsage table.entries) {txn : ClientTxn}
    (hhost : words srv.world.glusterVolUsage = [] →
      IsWord txn.answers.hostIp ∧ IsWord txn.answers.buPoint)
    (hwordy : ∀ node ∈ (table.handle txn).entries, node.Wordy) :
    Holds (xdrDecodeEncode srv txn).1.world.glusterVolUsage (table.handle txn).entries := by
  have hentries := handle_entries h txn
  rw [hentries] at hwordy ⊢
  rw [xdrDecodeEncode_world]
  by_cases hreq : ∃ request, txn.request = .dataStartBackup request
  · obtain ⟨request, hreq⟩ := hreq
    rw [worldEffect_glusterVolUsage hreq]
    obtain ⟨hapart, hostIp, buPoint, hwords⟩ := h.hostConfigured hhost
    exact holds_append_lines hapart hwords fun node hnode => hwordy node (List.mem_append_right _ hnode)
  · have hnone : enteredBy (eventOf srv txn) = [] := by
      unfold enteredBy
      simp only [eventOf_input]
      split
      · rename_i request heq
        exact absurd ⟨request, heq⟩ hreq
      · rfl
    have husage : txn.usage = none := by
      unfold ClientTxn.usage
      split
      · rename_i request heq
        exact absurd ⟨request, heq⟩ hreq
      · rfl
    rwa [hnone, worldEffect_glusterVolUsage_of_usage husage, List.append_nil]

/-- The file only grows. -/
theorem isPrefix_step (srv : Server) (txn : ClientTxn) :
    srv.world.glusterVolUsage <+: (xdrDecodeEncode srv txn).1.world.glusterVolUsage := by
  rw [xdrDecodeEncode_world]
  cases hreq : txn.request with
  | dataStartBackup request =>
    rw [worldEffect_glusterVolUsage hreq]
    refine List.IsPrefix.trans ?_ (List.prefix_append _ _)
    unfold hostConfigured
    split
    · exact List.prefix_refl _
    · exact List.prefix_append _ _
  | dataStartRecover request =>
    have hfile : (worldEffect txn srv.world).glusterVolUsage = srv.world.glusterVolUsage := by
      simp only [worldEffect, hreq]
      rfl
    exact ⟨[], by rw [hfile, List.append_nil]⟩
  | _ =>
    have hworld : worldEffect txn srv.world = srv.world := by
      simp only [worldEffect, hreq]
    exact ⟨[], by rw [hworld, List.append_nil]⟩

theorem isPrefix_final (srv : Server) (txns : List ClientTxn) :
    srv.world.glusterVolUsage <+:
      (Mealy.final xdrDecodeEncode srv txns).world.glusterVolUsage := by
  have hstep (s : Server) (txn : ClientTxn)
      (h : srv.world.glusterVolUsage <+: s.world.glusterVolUsage) :
      srv.world.glusterVolUsage <+: (xdrDecodeEncode s txn).1.world.glusterVolUsage :=
    h.trans (isPrefix_step s txn)
  exact Mealy.final_invariant xdrDecodeEncode hstep (List.prefix_refl _) txns

theorem words_eq_nil_of_isPrefix {a b : CString} (ha : EndsApart a) (h : a <+: b)
    (hb : words b = []) : words a = [] := by
  obtain ⟨c, rfl⟩ := h
  rw [words_append ha] at hb
  exact (List.append_eq_nil_iff.1 hb).1

/-- **The table in the file.** In a run whose entries, those of the code or those of the table,
are all words, the file holds the table, and what the code appended is what was entered. -/
theorem holds_run {srv : Server} {table : UsageTable}
    (h : Holds srv.world.glusterVolUsage table.entries) {txns : List ClientTxn}
    (hhost : ∀ txn ∈ txns, words srv.world.glusterVolUsage = [] →
      IsWord txn.answers.hostIp ∧ IsWord txn.answers.buPoint)
    (hwordy : (∀ node ∈ (Mealy.trace xdrDecodeEncode srv txns).flatMap enteredBy, node.Wordy) ∨
      ∀ node ∈ (table.run txns).entries, node.Wordy) :
    Holds (Mealy.final xdrDecodeEncode srv txns).world.glusterVolUsage (table.run txns).entries ∧
      (table.run txns).entries =
        table.entries ++ (Mealy.trace xdrDecodeEncode srv txns).flatMap enteredBy := by
  induction txns using List.reverseRecOn with
  | nil => exact ⟨h, (List.append_nil _).symm⟩
  | append_singleton txns txn ih =>
    have htrace : (Mealy.trace xdrDecodeEncode srv (txns ++ [txn])).flatMap enteredBy =
        (Mealy.trace xdrDecodeEncode srv txns).flatMap enteredBy ++
          enteredBy (eventOf (Mealy.final xdrDecodeEncode srv txns) txn) := by
      rw [Mealy.trace_append, List.flatMap_append]
      simp [eventOf]
    have hbefore : (∀ node ∈ (Mealy.trace xdrDecodeEncode srv txns).flatMap enteredBy,
        node.Wordy) ∨ ∀ node ∈ (table.run txns).entries, node.Wordy := by
      refine hwordy.imp (fun hw node hnode => hw node ?_) fun hw node hnode => hw node ?_
      · rw [htrace]
        exact List.mem_append_left _ hnode
      · rw [UsageTable.run_concat]
        exact UsageTable.mem_entries_handle hnode
    obtain ⟨hfile, hentered⟩ := ih (fun t ht => hhost t (List.mem_append_left _ ht)) hbefore
    have hentries := handle_entries hfile txn
    rw [hentered, List.append_assoc, ← htrace, ← UsageTable.run_concat] at hentries
    refine ⟨?_, hentries⟩
    rw [Mealy.final_append, UsageTable.run_concat]
    refine holds_step hfile (fun hnil => hhost txn (by simp) ?_) ?_
    · exact words_eq_nil_of_isPrefix h.apart (isPrefix_final srv txns) hnil
    · rw [← UsageTable.run_concat]
      rcases hwordy with hw | hw
      · rw [hentries]
        intro node hnode
        rcases List.mem_append.1 hnode with hnode | hnode
        · exact h.wordy node hnode
        · exact hw node hnode
      · exact hw

end GlfsNdmp
