import GlfsNdmp.Lib.PathName
import GlfsNdmp.UsageRun

/-!
# The directories of the clients

The key of a client's path and the directory its backup goes to are concatenations of the client's
address and the path as the client sent it. Neither says where the address ends, and the directory
is resolved by the operating system, which follows `..`.

`clientsApart_iff`: two clients are kept apart, by different keys and by different directories on
every backup point and all volumes, if and only if neither path starts with what the other address
has on top of the own one, and the names in the two strings do not meet as walks below a volume.
-/

namespace GlfsNdmp

open PathName

/-! ## Directories -/

/-- The name of the directory above. -/
def dotDot : CString := ['.', '.']

/-- The directory an absolute path leads to. -/
def directory (path : CString) : List CString := resolve dotDot [] (namesOf path)

/-- What the operator is asked for as the backup point: an absolute path, read with `%s`. -/
def IsBackupPoint (buPoint : CString) : Prop := IsWord buPoint ∧ buPoint.head? = some '/'

/-- The name of a directory in an absolute path that is read with `%s`. -/
def IsDirName (n : CString) : Prop := IsWord n ∧ IsName n ∧ n ≠ dotDot

instance (n : CString) : Decidable (IsDirName n) := inferInstanceAs (Decidable (_ ∧ _))

instance (buPoint : CString) : Decidable (IsBackupPoint buPoint) :=
  inferInstanceAs (Decidable (_ ∧ _))

/-- What the names in a string amount to. -/
def walkOf (path : CString) : Walk CString := walk dotDot (namesOf path)

theorem directory_below {volName : CString} (h : IsDirName volName) (buPoint rest : CString) :
    directory (mountPoint buPoint volName ++ "/".toList ++ rest) =
      (walkOf rest).applyTo (directory buPoint ++ [volName]) := by
  have hnames : namesOf (mountPoint buPoint volName ++ "/".toList ++ rest) =
      namesOf buPoint ++ ([volName] ++ namesOf rest) := by
    rw [mountPoint, List.append_assoc, List.append_assoc, List.append_assoc]
    show namesOf (buPoint ++ '/' :: (volName ++ '/' :: rest)) = _
    rw [namesOf_slash, namesOf_slash, namesOf_of_isName h.2.1]
  rw [directory, hnames, resolve_append, resolve_append, resolve_eq_applyTo]
  congr 1
  exact resolve_of_not_mem dotDot (by simpa [eq_comm] using h.2.2) _

/-- Every directory with names of one word is some backup point. -/
theorem exists_backupPoint {dir : List CString} (h : ∀ n ∈ dir, IsDirName n) :
    ∃ buPoint, IsBackupPoint buPoint ∧ directory buPoint = dir := by
  refine ⟨pathOf dir, ⟨⟨List.cons_ne_nil _ _, fun c hc => ?_⟩, rfl⟩, ?_⟩
  · rcases List.mem_cons.1 hc with rfl | hc
    · rfl
    · obtain ⟨n, hn, hc⟩ := List.mem_flatMap.1 hc
      rcases List.mem_append.1 hc with hc | hc
      · exact (h n hn).1.2 c hc
      · rw [List.mem_singleton.1 hc]
        rfl
  · rw [directory, namesOf_pathOf fun n hn => (h n hn).2.1, resolve_of_not_mem]
    · rfl
    · exact fun hmem => (h _ hmem).2.2 rfl

theorem isDirName_of_mem_directory {buPoint n : CString} (h : IsBackupPoint buPoint)
    (hn : n ∈ directory buPoint) : IsDirName n := by
  rw [directory, resolve_eq_applyTo, Walk.applyTo, List.take_nil, List.nil_append] at hn
  have hmem := mem_of_mem_walk_down dotDot hn
  have hname := isName_of_mem_namesOf hmem
  refine ⟨⟨hname.1, fun c hc => h.1.2 c (mem_of_mem_namesOf hmem c hc)⟩, hname, ?_⟩
  exact ne_of_mem_walk_down dotDot hn

/-! ## Two clients -/

/-- A backup for client `a` with path `p` and a recovery for client `b` with path `q` and original
path `o`: the keys differ, and on every backup point and for all volumes the directory that is
written is not the one that is read. -/
structure ClientsApart (a p b q o : CString) : Prop where
  keys : clientIpFs a p ≠ clientIpFs b q
  directories : ∀ buPoint volName volName', IsBackupPoint buPoint → IsDirName volName →
    IsDirName volName' →
    directory (backupLocation (mountPoint buPoint volName) a p) ≠
      directory (recoverSource buPoint volName' b q o)

/-- Neither path starts with what the other address has on top of the own one, and the names in the
two strings do not lead to one directory. -/
structure PathsApart (a p b q o : CString) : Prop where
  left : ∀ r, b = a ++ r → p ≠ r ++ q
  right : ∀ r, a = b ++ r → q ≠ r ++ p
  walks : ¬ (walkOf (a ++ p)).Meets IsDirName (walkOf (b ++ (q ++ o))) ∧
    ¬ (walkOf (b ++ (q ++ o))).Meets IsDirName (walkOf (a ++ p))

theorem clientIpFs_eq_iff (a p b q : CString) :
    clientIpFs a p = clientIpFs b q ↔
      (∃ r, b = a ++ r ∧ p = r ++ q) ∨ ∃ r, a = b ++ r ∧ q = r ++ p :=
  List.append_eq_append_iff

/-- **Apart by key and by directory.** -/
theorem clientsApart_iff (a p b q o : CString) :
    ClientsApart a p b q o ↔ PathsApart a p b q o := by
  have hwrite (buPoint : CString) {volName : CString} (h : IsDirName volName) :
      directory (backupLocation (mountPoint buPoint volName) a p) =
        (walkOf (a ++ p)).applyTo (directory buPoint ++ [volName]) := by
    rw [backupLocation, List.append_assoc]
    exact directory_below h buPoint _
  have hread (buPoint : CString) {volName : CString} (h : IsDirName volName) :
      directory (recoverSource buPoint volName b q o) =
        (walkOf (b ++ (q ++ o))).applyTo (directory buPoint ++ [volName]) := by
    rw [recoverSource, List.append_assoc _ q, List.append_assoc _ b]
    exact directory_below h buPoint _
  have hmeet := @exists_applyTo_eq_iff _ IsDirName ['v'] (by decide)
    (walkOf (a ++ p)) (walkOf (b ++ (q ++ o)))
  constructor
  · rintro ⟨hkeys, hdirs⟩
    rw [ne_eq, clientIpFs_eq_iff, not_or, not_exists, not_exists] at hkeys
    refine ⟨fun r hb hp => hkeys.1 r ⟨hb, hp⟩, fun r ha hq => hkeys.2 r ⟨ha, hq⟩, ?_⟩
    rw [← not_or, ← hmeet]
    rintro ⟨dir, va, vb, hdir, hva, hvb, heq⟩
    obtain ⟨buPoint, hpoint, rfl⟩ := exists_backupPoint hdir
    refine hdirs buPoint va vb hpoint hva hvb ?_
    rw [hwrite buPoint hva, hread buPoint hvb, heq]
  · rintro ⟨hleft, hright, hwalks⟩
    constructor
    · rw [ne_eq, clientIpFs_eq_iff, not_or, not_exists, not_exists]
      exact ⟨fun r h => hleft r h.1 h.2, fun r h => hright r h.1 h.2⟩
    · intro buPoint va vb hpoint hva hvb heq
      rw [hwrite buPoint hva, hread buPoint hvb] at heq
      rw [← not_or, ← hmeet] at hwalks
      exact hwalks ⟨directory buPoint, va, vb,
        fun n hn => isDirName_of_mem_directory hpoint hn, hva, hvb, heq⟩

/-- Two paths that reach across: the first makes up the rest of an address, the second goes up. -/
theorem not_clientsApart_paths :
    ¬ ClientsApart "10.0.0.1".toList "0/home".toList "10.0.0.10".toList "/home".toList [] ∧
      ¬ ClientsApart "10.0.0.1".toList "/../10.0.0.2/home".toList "10.0.0.2".toList
        "/home".toList [] :=
  ⟨fun h => h.keys (by decide),
    fun h => h.directories "/bu".toList "vol".toList "vol".toList (by decide) (by decide)
      (by decide) (by decide)⟩

/-! ## Absolute paths -/

/-- A path that is empty or starts at a slash and never goes up. -/
def StaysBelow (path : CString) : Prop :=
  (path = [] ∨ path.head? = some '/') ∧ dotDot ∉ namesOf path

/-- A slash ends the names before it. -/
theorem namesOf_append (p : CString) {q : CString} (hq : q = [] ∨ q.head? = some '/') :
    namesOf (p ++ q) = namesOf p ++ namesOf q := by
  cases q with
  | nil =>
    rw [List.append_nil]
    exact (List.append_nil _).symm
  | cons c q =>
    obtain hnil | hc := hq
    · cases hnil
    · rw [List.head?_cons, Option.some.injEq] at hc
      subst hc
      rw [namesOf_slash, ← List.nil_append ('/' :: q), namesOf_slash]
      rfl

theorem namesOf_address {a path : CString} (ha : IsDirName a) (h : StaysBelow path) :
    namesOf (a ++ path) = a :: namesOf path := by
  rw [namesOf_append a h.1, namesOf_of_isName ha.2.1]
  rfl

theorem StaysBelow.append {p q : CString} (hp : StaysBelow p) (hq : StaysBelow q) :
    StaysBelow (p ++ q) := by
  constructor
  · rcases hp.1 with rfl | hhead
    · exact hq.1
    · exact Or.inr (by rw [List.head?_append, hhead]; rfl)
  · rw [namesOf_append p hq.1, List.mem_append, not_or]
    exact ⟨hp.2, hq.2⟩

theorem walkOf_address {a path : CString} (ha : IsDirName a) (h : StaysBelow path) :
    walkOf (a ++ path) = ⟨0, a :: namesOf path⟩ := by
  rw [walkOf, namesOf_address ha h, walk_of_not_mem]
  rw [List.mem_cons, not_or]
  exact ⟨fun heq => ha.2.2 heq.symm, h.2⟩

/-- Clients that send absolute paths without `..` are kept apart. -/
theorem clientsApart_of_staysBelow {a p b q o : CString} (ha : IsDirName a) (hb : IsDirName b)
    (hne : a ≠ b) (hp : StaysBelow p) (hq : StaysBelow q) (ho : StaysBelow o) :
    ClientsApart a p b q o := by
  have hstart {a b p q r : CString} (hb : IsDirName b) (hne : a ≠ b) (hp : StaysBelow p)
      (hr : b = a ++ r) : p ≠ r ++ q := by
    rintro rfl
    cases r with
    | nil => exact hne (by rw [hr, List.append_nil])
    | cons c r =>
      rcases hp.1 with hnil | hc
      · cases hnil
      · rw [List.cons_append, List.head?_cons, Option.some.injEq] at hc
        exact hb.2.1.2.2 (by simp [hr, hc])
  have hwalks {a b p q : CString} (ha : IsDirName a) (hb : IsDirName b) (hne : a ≠ b)
      (hp : StaysBelow p) (hq : StaysBelow q) :
      ¬ (walkOf (a ++ p)).Meets IsDirName (walkOf (b ++ q)) := by
    rw [walkOf_address ha hp, walkOf_address hb hq]
    rintro ⟨between, -, hdown, hlength, -⟩
    obtain rfl := List.length_eq_zero_iff.1 (Nat.le_zero.1 hlength)
    exact hne (List.cons.inj hdown).1.symm
  rw [clientsApart_iff]
  exact ⟨fun r hr => hstart hb hne hp hr, fun r hr => hstart ha (Ne.symm hne) hq hr,
    hwalks ha hb hne hp (hq.append ho), hwalks hb ha (Ne.symm hne) (hq.append ho) hp⟩

end GlfsNdmp
