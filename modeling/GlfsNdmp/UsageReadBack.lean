import GlfsNdmp.Limits

/-!
# Reading back what was written

`fprintf` puts a volume, a key and a user on a line, as they are. `fscanf` takes three words,
wherever the line ends, into arrays that do not grow.

`parsesBack_iff`: the entries appended in a run are the ones read back, if and only if every
request that is the first to use its key comes with a key and a user that are single words, and
these, the volume and the host line have room where they are read. All requests have to be within
their limits for this.
-/

namespace GlfsNdmp

/-! ## Entries that have room -/

/-- The fields are short enough for the arrays of the readers. -/
def VolFsNode.Short (node : VolFsNode) : Prop :=
  node.volName.length < 20 ∧ node.filesystem.length < 100 ∧ node.user.length < 30

instance (node : VolFsNode) : Decidable node.Short := inferInstanceAs (Decidable (_ ∧ _))

/-- The words of complete entries, place by place. -/
theorem places_fields (entries : List VolFsNode) :
    volumePlaces (entries.flatMap VolFsNode.fields) = entries.map VolFsNode.volName ∧
      entryKeys (entries.flatMap VolFsNode.fields) = entries.map VolFsNode.filesystem ∧
      userPlaces (entries.flatMap VolFsNode.fields) = entries.map VolFsNode.user := by
  induction entries with
  | nil => exact ⟨rfl, rfl, rfl⟩
  | cons node entries ih =>
    obtain ⟨hvol, hkey, huser⟩ := ih
    exact ⟨congrArg _ hvol, congrArg _ hkey, congrArg _ huser⟩

/-- A file of complete entries has room if its host line and its entries do. -/
theorem fileLimits_fields_iff (hostIp buPoint : CString) (entries : List VolFsNode) :
    FileLimits 20 (hostIp :: buPoint :: entries.flatMap VolFsNode.fields) ↔
      (hostIp.length < 20 ∧ buPoint.length < 100) ∧ ∀ node ∈ entries, node.Short := by
  obtain ⟨hvol, hkey, huser⟩ := places_fields entries
  constructor
  · rintro ⟨hhost, hpoint, hvolumes, hkeys, husers⟩
    change ∀ w ∈ volumePlaces (entries.flatMap _), _ at hvolumes
    change ∀ w ∈ entryKeys (entries.flatMap _), _ at hkeys
    change ∀ w ∈ userPlaces (entries.flatMap _), _ at husers
    rw [hvol, List.forall_mem_map] at hvolumes
    rw [hkey, List.forall_mem_map] at hkeys
    rw [huser, List.forall_mem_map] at husers
    exact ⟨⟨hhost _ rfl, hpoint _ rfl⟩,
      fun node hnode => ⟨hvolumes node hnode, hkeys node hnode, husers node hnode⟩⟩
  · rintro ⟨⟨hhost, hpoint⟩, hshort⟩
    refine ⟨?_, ?_, ?_, ?_, ?_⟩
    · rintro w ⟨⟩
      exact hhost
    · rintro w ⟨⟩
      exact hpoint
    · show ∀ w ∈ volumePlaces (entries.flatMap _), _
      rw [hvol, List.forall_mem_map]
      exact fun node hnode => (hshort node hnode).1
    · show ∀ w ∈ entryKeys (entries.flatMap _), _
      rw [hkey, List.forall_mem_map]
      exact fun node hnode => (hshort node hnode).2.1
    · show ∀ w ∈ userPlaces (entries.flatMap _), _
      rw [huser, List.forall_mem_map]
      exact fun node hnode => (hshort node hnode).2.2

/-! ## The host line of a run -/

/-- What a request makes of the host line: the first backup has it typed in. -/
def hostStep (host : List CString) (txn : ClientTxn) : List CString :=
  if host = [] ∧ txn.usage.isSome then [txn.answers.hostIp, txn.answers.buPoint] else host

/-- The words of the host line after some requests. -/
def hostWords (file : CString) (txns : List ClientTxn) : List CString :=
  txns.foldl hostStep ((words file).take 2)

theorem hostWords_concat (file : CString) (txns : List ClientTxn) (txn : ClientTxn) :
    hostWords file (txns ++ [txn]) = hostStep (hostWords file txns) txn := by
  rw [hostWords, List.foldl_append]
  rfl

/-- **Step.** -/
theorem hostStep_words {srv : Server} {entries : List VolFsNode}
    (h : Holds srv.world.glusterVolUsage entries) {txn : ClientTxn}
    (hhost : words srv.world.glusterVolUsage = [] →
      IsWord txn.answers.hostIp ∧ IsWord txn.answers.buPoint) :
    (words (xdrDecodeEncode srv txn).1.world.glusterVolUsage).take 2 =
      hostStep ((words srv.world.glusterVolUsage).take 2) txn := by
  rw [xdrDecodeEncode_world]
  cases hreq : txn.request with
  | dataStartBackup request =>
    obtain ⟨hapart, hconfigured⟩ := h.words_hostConfigured hhost
    have husage : txn.usage.isSome = true := by
      rw [ClientTxn.usage, hreq]
      rfl
    rw [worldEffect_glusterVolUsage hreq, words_append hapart, hconfigured, hostStep, husage]
    rcases h.reads with ⟨hwords, -⟩ | ⟨hostIp, buPoint, hwords⟩
    · rw [hwords]
      rfl
    · rw [hwords]
      rfl
  | _ =>
    have husage : txn.usage = none := by
      rw [ClientTxn.usage, hreq]
    rw [worldEffect_glusterVolUsage_of_usage husage, hostStep, husage, if_neg (by simp)]

/-- **Run.** -/
theorem hostWords_run {srv : Server} {table : UsageTable}
    (h : Holds srv.world.glusterVolUsage table.entries) {txns : List ClientTxn}
    (hhost : ∀ txn ∈ txns, IsWord txn.answers.hostIp ∧ IsWord txn.answers.buPoint)
    (hwordy : ∀ node ∈ (table.run txns).entries, node.Wordy) :
    (words (Mealy.final xdrDecodeEncode srv txns).world.glusterVolUsage).take 2 =
      hostWords srv.world.glusterVolUsage txns := by
  induction txns using List.reverseRecOn with
  | nil => rfl
  | append_singleton txns txn ih =>
    have hbefore : ∀ node ∈ (table.run txns).entries, node.Wordy := by
      intro node hnode
      refine hwordy node ?_
      rw [UsageTable.run_concat]
      exact UsageTable.mem_entries_handle hnode
    have htyped : ∀ t ∈ txns, IsWord t.answers.hostIp ∧ IsWord t.answers.buPoint :=
      fun t ht => hhost t (List.mem_append_left _ ht)
    obtain ⟨hholds, -⟩ := holds_run h (fun t ht _ => htyped t ht) (Or.inr hbefore)
    rw [Mealy.final_append, hostWords_concat, ← ih htyped hbefore]
    exact hostStep_words hholds fun _ => hhost txn (by simp)

/-! ## First uses -/

/-- What the operator types at the prompts is read with `%s`. -/
def ClientTxn.TypesWords (txn : ClientTxn) : Prop :=
  IsWord txn.answers.hostIp ∧ IsWord txn.answers.buPoint ∧
    ∃ volName ∈ txn.answers.volName, IsWord volName

instance (txn : ClientTxn) : Decidable txn.TypesWords := inferInstanceAs (Decidable (_ ∧ _))

/-- What holds of an entry whenever its key is used for the first time. -/
def FirstUses (table : UsageTable) (txns : List ClientTxn) (P : VolFsNode → Prop) : Prop :=
  ∀ as txn bs, txns = as ++ txn :: bs → ∀ node ∈ txn.usage, node.filesystem ∉ table.keys →
    (∀ before ∈ as, ∀ used ∈ before.usage, used.filesystem ≠ node.filesystem) → P node

/-- First uses make the table. -/
theorem firstUses_iff {table : UsageTable} {P : VolFsNode → Prop}
    (htable : ∀ node ∈ table.entries, P node) (txns : List ClientTxn) :
    FirstUses table txns P ↔ ∀ node ∈ (table.run txns).entries, P node := by
  induction txns using List.reverseRecOn with
  | nil => simpa [FirstUses, UsageTable.run] using htable
  | append_singleton txns txn ih =>
    rw [FirstUses, Mealy.forall_place_concat txns txn, UsageTable.run_concat]
    rw [← FirstUses, ih]
    cases husage : txn.usage with
    | none => simp [UsageTable.handle, husage]
    | some new =>
      by_cases hkey : new.filesystem ∈ (table.run txns).keys
      · rw [UsageTable.handle, husage, Option.elim_some, UsageTable.add_of_mem hkey, and_iff_left]
        rintro node ⟨⟩ hnot hfirst
        rcases UsageTable.mem_keys_run.1 hkey with hold | ⟨before, hbefore, used, hused, heq⟩
        · exact absurd hold hnot
        · exact absurd heq (hfirst before hbefore used hused)
      · have hfresh : new.filesystem ∉ table.keys ∧
            ∀ before ∈ txns, ∀ used ∈ before.usage, used.filesystem ≠ new.filesystem := by
          rw [UsageTable.mem_keys_run, not_or] at hkey
          exact ⟨hkey.1, fun before hbefore used hused heq =>
            hkey.2 ⟨before, hbefore, used, hused, heq⟩⟩
        rw [UsageTable.handle, husage, Option.elim_some, UsageTable.entries_add_of_not_mem hkey]
        simp only [List.forall_mem_append, List.forall_mem_singleton, Option.mem_some_iff,
          forall_eq']
        exact and_congr_right fun _ => ⟨fun h => h hfresh.1 hfresh.2, fun h _ _ => h⟩

theorem FirstUses.and_iff {table : UsageTable} {txns : List ClientTxn} {P Q : VolFsNode → Prop} :
    FirstUses table txns (fun node => P node ∧ Q node) ↔
      FirstUses table txns P ∧ FirstUses table txns Q := by
  constructor
  · exact fun h => ⟨fun as txn bs hsplit node hnode hkey hfirst =>
      (h as txn bs hsplit node hnode hkey hfirst).1, fun as txn bs hsplit node hnode hkey hfirst =>
      (h as txn bs hsplit node hnode hkey hfirst).2⟩
  · exact fun h as txn bs hsplit node hnode hkey hfirst =>
      ⟨h.1 as txn bs hsplit node hnode hkey hfirst, h.2 as txn bs hsplit node hnode hkey hfirst⟩

/-- The volume of an entry is what the operator typed. -/
theorem ClientTxn.usage_wordy_iff {txn : ClientTxn} (h : txn.TypesWords) {node : VolFsNode}
    (hnode : node ∈ txn.usage) : node.Wordy ↔ IsWord node.filesystem ∧ IsWord node.user := by
  have hvol : IsWord node.volName := by
    unfold ClientTxn.usage at hnode
    split at hnode
    · rw [Option.mem_some_iff] at hnode
      obtain ⟨volName, hvolName, hword⟩ := h.2.2
      rw [← hnode, typedVolume, hvolName, Option.getD_some]
      exact hword
    · cases hnode
  simp [VolFsNode.Wordy, VolFsNode.fields, hvol]

/-- So the entries of the table are words if the first uses are. -/
theorem firstUses_wordy_iff {table : UsageTable} {txns : List ClientTxn}
    (htyped : ∀ txn ∈ txns, txn.TypesWords) :
    (FirstUses table txns fun node => IsWord node.filesystem ∧ IsWord node.user) ↔
      FirstUses table txns VolFsNode.Wordy := by
  have hword {as bs : List ClientTxn} {txn : ClientTxn} (hsplit : txns = as ++ txn :: bs)
      {node : VolFsNode} (hnode : node ∈ txn.usage) :=
    ClientTxn.usage_wordy_iff (htyped txn (by simp [hsplit])) hnode
  constructor
  · exact fun h as txn bs hsplit node hnode hkey hfirst =>
      (hword hsplit hnode).2 (h as txn bs hsplit node hnode hkey hfirst)
  · exact fun h as txn bs hsplit node hnode hkey hfirst =>
      (hword hsplit hnode).1 (h as txn bs hsplit node hnode hkey hfirst)

/-! ## Runs -/

/-- A run is handled within its memory, and after it `init_vol_fs_list` reads, into arrays that have
room, the entries that were there before and the ones that were appended, in order. -/
structure ParsesBack (entries : List VolFsNode) (srv : Server) (txns : List ClientTxn) : Prop where
  contained : ∀ e ∈ Mealy.trace xdrDecodeEncode srv txns, Contained e.before e.input
  fits : ∀ b ∈ UsageReader.initVolFsList.scans
    (words (Mealy.final xdrDecodeEncode srv txns).world.glusterVolUsage), b.Fits
  reads : ∀ buf ret, (initVolFsList buf ret (Mealy.final xdrDecodeEncode srv txns).world).2.1 =
    entries ++ (Mealy.trace xdrDecodeEncode srv txns).flatMap enteredBy

/-- The requests are within their limits, and what gets into the file is words that have room. -/
structure WritesWords (table : UsageTable) (srv : Server) (txns : List ClientTxn) : Prop where
  limits : ∀ e ∈ Mealy.trace xdrDecodeEncode srv txns, WithinLimits e.before e.input
  host : ∀ hostIp buPoint, hostWords srv.world.glusterVolUsage txns = [hostIp, buPoint] →
    hostIp.length < 20 ∧ buPoint.length < 100
  entries : ∀ node ∈ table.entries, node.Short
  firstUses : FirstUses table txns fun node =>
    (IsWord node.filesystem ∧ IsWord node.user) ∧ node.Short

/-- What is read into buffers that hold words consists of words. -/
theorem wordy_of_mem_initVolFsList {buf : ScanBuffers} (hbuf : buf.node.Wordy) {ret : Nat → Int}
    {w : World} {node : VolFsNode} (h : node ∈ (initVolFsList buf ret w).2.1) : node.Wordy := by
  refine wordy_of_mem_scanNodes hbuf (fun x hx => ?_) h
  have hsub : x ∈ words w.glusterVolUsage := by
    revert hx
    show x ∈ (scanHost buf (words w.glusterVolUsage)).2.2 → _
    rcases words w.glusterVolUsage with _ | ⟨_, _ | ⟨_, ws⟩⟩
    · exact id
    · rintro ⟨⟩
    · exact fun hx => List.mem_cons_of_mem _ (List.mem_cons_of_mem _ hx)
  exact isWord_of_mem_words hsub

section

variable {srv : Server} {table : UsageTable} {txns : List ClientTxn}
  (hfile : Holds srv.world.glusterVolUsage table.entries)
  (htyped : ∀ txn ∈ txns, txn.TypesWords)
include hfile htyped

/-- Entries that are read back are words, and the table is theirs. -/
theorem wordy_of_reads
    (hback : ∀ buf ret, (initVolFsList buf ret (Mealy.final xdrDecodeEncode srv txns).world).2.1 =
      table.entries ++ (Mealy.trace xdrDecodeEncode srv txns).flatMap enteredBy) :
    ∀ node ∈ (table.run txns).entries, node.Wordy := by
  -- any buffers will do; take some that hold words
  let buf : ScanBuffers := ⟨[], [], ⟨['-'], ['-'], ['-']⟩⟩
  have hwordy : ∀ node ∈ table.entries ++
      (Mealy.trace xdrDecodeEncode srv txns).flatMap enteredBy, node.Wordy := by
    intro node hnode
    rw [← hback buf fun _ => 0] at hnode
    exact wordy_of_mem_initVolFsList (by decide) hnode
  have hrun := @holds_run _ _ hfile txns fun txn htxn _ =>
    ⟨(htyped txn htxn).1, (htyped txn htxn).2.1⟩
  rw [(hrun (Or.inl fun node hnode => hwordy node (List.mem_append_right _ hnode))).2]
  exact hwordy

/-- The table has room in the file if its entries and the host line do. -/
theorem fits_final_iff (hwordy : ∀ node ∈ (table.run txns).entries, node.Wordy) :
    FileLimits 20 (words (Mealy.final xdrDecodeEncode srv txns).world.glusterVolUsage) ↔
      (∀ hostIp buPoint, hostWords srv.world.glusterVolUsage txns = [hostIp, buPoint] →
        hostIp.length < 20 ∧ buPoint.length < 100) ∧
      ∀ node ∈ (table.run txns).entries, node.Short := by
  have hhost : ∀ txn ∈ txns, IsWord txn.answers.hostIp ∧ IsWord txn.answers.buPoint :=
    fun txn htxn => ⟨(htyped txn htxn).1, (htyped txn htxn).2.1⟩
  rw [← hostWords_run hfile hhost hwordy]
  obtain ⟨hholds, -⟩ := holds_run hfile (fun txn htxn _ => hhost txn htxn) (Or.inr hwordy)
  rcases hholds.reads with ⟨hwords, hnil⟩ | ⟨hostIp, buPoint, hwords⟩
  · rw [hwords, hnil]
    have hempty : FileLimits 20 [] := by
      refine ⟨?_, ?_, ?_, ?_, ?_⟩
      all_goals rintro _ ⟨⟩
    refine iff_of_true hempty ⟨?_, List.forall_mem_nil _⟩
    rintro _ _ ⟨⟩
  · rw [hwords, fileLimits_fields_iff]
    refine and_congr_left' ⟨?_, fun h => h hostIp buPoint rfl⟩
    rintro h _ _ ⟨⟩
    exact h

/-- **Reading back what was written.** From every file that holds a table, the requests of a run are
handled within memory, and the entries read back after it are those that were there and those that
were appended, if and only if the requests are within their limits, every one that is the first to
use its key comes with a key and a user that are single words, and all words have room. -/
theorem parsesBack_iff : ParsesBack table.entries srv txns ↔ WritesWords table srv txns := by
  constructor
  · rintro ⟨hcontained, hfits, hreads⟩
    have hwordy := wordy_of_reads hfile htyped hreads
    obtain ⟨hhost, hshort⟩ :=
      (fits_final_iff hfile htyped hwordy).1 ((initVolFsList_scans_fit_iff _).1 hfits)
    have hentries : ∀ node ∈ table.entries, node.Short := by
      intro node hnode
      have hrun := @holds_run _ _ hfile txns fun txn htxn _ =>
        ⟨(htyped txn htxn).1, (htyped txn htxn).2.1⟩
      refine hshort node ?_
      rw [(hrun (Or.inr hwordy)).2]
      exact List.mem_append_left _ hnode
    refine ⟨fun e he => (contained_iff _ _).1 (hcontained e he), hhost, hentries, ?_⟩
    rw [FirstUses.and_iff, firstUses_wordy_iff htyped]
    exact ⟨(firstUses_iff hfile.wordy txns).2 hwordy, (firstUses_iff hentries txns).2 hshort⟩
  · rintro ⟨hlimits, hhost, hentries, hfirst⟩
    rw [FirstUses.and_iff, firstUses_wordy_iff htyped] at hfirst
    have hwordy := (firstUses_iff hfile.wordy txns).1 hfirst.1
    have hshort := (firstUses_iff hentries txns).1 hfirst.2
    have hrun := @holds_run _ _ hfile txns fun txn htxn _ =>
      ⟨(htyped txn htxn).1, (htyped txn htxn).2.1⟩
    obtain ⟨hholds, hadded⟩ := hrun (Or.inr hwordy)
    refine ⟨fun e he => (contained_iff _ _).2 (hlimits e he), ?_, fun buf ret => ?_⟩
    · rw [initVolFsList_scans_fit_iff]
      exact (fits_final_iff hfile htyped hwordy).2 ⟨hhost, hshort⟩
    · rw [hholds.initVolFsList_eq, hadded]

end

/-- The backup of `/home`, with all that has to be typed in. -/
def backupHome : List ClientTxn :=
  [.receive 0 4 "10.0.0.2".toList (.dataStartBackup ⟨"dump".toList,
    [⟨"FILESYSTEM".toList, "/home".toList⟩, ⟨"USER".toList, "bob".toList⟩]⟩)
    { (default : Answers) with
      hostIp := "10.0.0.1".toList, buPoint := "/bu".toList, volName := some "vol".toList }]

theorem backupHome_limits :
    ∀ e ∈ Mealy.trace xdrDecodeEncode (Server.start (World.boot [])) backupHome,
      WithinLimits e.before e.input := by
  intro e he
  cases List.mem_singleton.1 he
  exact ⟨"/home".toList, "bob".toList, "10.0.0.1".toList, "/bu".toList, "vol".toList,
    { slots := ⟨by decide, by decide, by decide, by decide, by decide, by decide, by decide⟩
      scanned := ⟨by decide, by decide, by decide, by decide, by decide⟩
      entries := by decide
      typed := by decide
      path_eq := by decide
      user_eq := by decide
      host_eq := by decide
      volName_eq := by decide
      hostIp_lt := by decide
      buPoint_lt := by decide
      volName_lt := by decide
      mount := by decide
      copy := by decide }⟩

/-- It is read back. -/
theorem parsesBack_backupHome :
    ParsesBack [] (Server.start (World.boot [])) backupHome := by
  refine (@parsesBack_iff _ UsageTable.empty _ ⟨endsApart_nil, Or.inl ⟨rfl, rfl⟩⟩
    (by decide)).2 ⟨backupHome_limits, ?_, by decide, ?_⟩
  · rintro hostIp buPoint ⟨⟩
    decide
  · rintro as txn bs hsplit
    have hnil : as = [] := by
      have hlength := congrArg List.length hsplit
      simp only [backupHome, List.length_append, List.length_cons, List.length_nil] at hlength
      exact List.length_eq_zero_iff.1 (by omega)
    subst hnil
    obtain ⟨rfl, -⟩ := List.cons.inj hsplit
    rintro node ⟨⟩ - -
    decide

/-- A path with a blank in it, and another client after it. -/
def backupBlank : List ClientTxn :=
  let answers : Answers := { (default : Answers) with
    hostIp := "10.0.0.1".toList, buPoint := "/bu".toList, volName := some "vol".toList }
  let backup (path : String) : NdmpRequest := .dataStartBackup
    ⟨[], [⟨"FILESYSTEM".toList, path.toList⟩, ⟨"USER".toList, "bob".toList⟩]⟩
  [.receive 0 4 "10.0.0.2".toList (backup "/a b") answers,
    .receive 1 5 "10.0.0.3".toList (backup "/home") answers]

/-- The second entry is read as the end of one entry and the beginning of the next. -/
theorem not_parsesBack_backupBlank :
    ¬ ParsesBack [] (Server.start (World.boot "10.0.0.1 /bu\n".toList)) backupBlank := by
  intro h
  have hread := h.reads default fun _ => 0
  revert hread
  decide

end GlfsNdmp
