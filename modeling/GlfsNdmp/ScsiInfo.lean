import GlfsNdmp.Config
import GlfsNdmp.Lib.Tokens
import Mathlib.Data.List.Induction

/-!
# What is read from `/proc/scsi/scsi`

`get_scsi_info` reads the file line by line, takes each line apart at its blanks, and stores names
and values in the structures `alloc_scsi_info` has allocated: 32 devices, sixteen properties each,
and 32 bytes a string. A name goes up to the first word that ends in a colon, and its value up to
the next one, or to the first word if it is that of `Type:`.

`scsiSafe_iff`: it does not go wrong if and only if the file is laid out in devices, lines and
fields within these limits.
-/

namespace GlfsNdmp

open Tokens

/-! ## The structures -/

/-- What `get_scsi_info` stops at. -/
inductive ScsiFault
  /-- `fgets` is called before `scsi` is compared with `NULL`. -/
  | nullFile
  /-- A token is used that `strtok_r` has not found. -/
  | nullToken
  /-- A property is stored before the first device, and `device_info` points anywhere. -/
  | noDevice
  | deviceSlot
  | propertySlot
  | string
  /-- The loop over the properties of a line does not end. -/
  | endless
  deriving DecidableEq, Repr

/-- `struct ndmp_device_info` with its only capability, as far as it is set. -/
structure ScsiSlot where
  model : Option CString
  device : Option CString
  attr : Option Nat
  capability : List NdmpPval
  caplistLen : Option Nat
  deriving DecidableEq, Repr

/-- As `alloc_scsi_info` leaves it. -/
def ScsiSlot.unset : ScsiSlot := ⟨none, none, none, [], none⟩

/-- What `get_scsi_info` has stored: the number of devices, the devices with the last in front, and
whether it has taken the last character of an empty string. -/
structure ScsiInfo where
  scsiInfoLen : Option Nat
  devices : List ScsiSlot
  emptyValue : Bool
  deriving DecidableEq, Repr

def allocScsiInfo : ScsiInfo := ⟨none, [], false⟩

/-- The line begins a device. -/
def ScsiInfo.newDevice (st : ScsiInfo) : ScsiInfo :=
  { st with
    scsiInfoLen := some (st.devices.length + 1)
    devices := .unset :: st.devices }

/-! ## The tokens of a line -/

/-- The last character is a colon. -/
def EndsName (word : CString) : Prop := word.getLast? = some ':'

instance (word : CString) : Decidable (EndsName word) := inferInstanceAs (Decidable (_ = _))

/-- `strcpy(text, word)` or `sprintf(text, "%s %s", text, word)`. -/
def appendWord (text word : CString) : CString := if text = [] then word else text ++ ' ' :: word

/-- `get_name`, with the tokens `strtok_r` has yet to find. -/
def getName (name curr : CString) (saveptr : List CString) :
    Except ScsiFault (CString × List CString) :=
  if EndsName curr then .ok (appendWord name curr, saveptr)
  else
    match saveptr with
    | [] => .error .nullToken
    | next :: saveptr => getName (appendWord name curr) next saveptr

/-- The loop of `get_value`. -/
def getWords (value : CString) : List CString → CString × Option CString × List CString
  | [] => (value, none, [])
  | curr :: saveptr =>
    if EndsName curr then (value, some curr, saveptr) else getWords (appendWord value curr) saveptr

/-- `get_value`: the value, the token behind it, and the tokens behind that. -/
def getValue (oneWord : Bool) (saveptr : List CString) :
    Except ScsiFault (CString × Option CString × List CString) :=
  if oneWord then
    match saveptr with
    | [] => .error .nullToken
    | curr :: saveptr => .ok (curr, saveptr.head?, saveptr.tail)
  else .ok (getWords [] saveptr)

/-! ## Storing -/

/-- A newline at the end of a value is cut off. -/
def cutNewline (value : CString) : CString :=
  if value.getLast? = some '\n' then value.dropLast else value

def ScsiSlot.store (d : ScsiSlot) (name value : CString) : ScsiSlot where
  model := if name = "Model:".toList then some value else d.model
  device := if name = "Type:".toList then some value else d.device
  attr := some d.capability.length
  capability := d.capability ++ [⟨name, value⟩]
  caplistLen := some 1

/-- The rest of the loop body, once name and value are there. -/
def storeProperty (st : ScsiInfo) (name value : CString) : Except ScsiFault ScsiInfo :=
  match st.devices with
  | [] => .error .noDevice
  | d :: ds =>
    if 32 ≤ ds.length then .error .deviceSlot
    else if 16 ≤ d.capability.length then .error .propertySlot
    else if 32 ≤ name.length ∨ 32 ≤ (cutNewline value).length then .error .string
    else .ok { st with
      devices := d.store name (cutNewline value) :: ds
      emptyValue := st.emptyValue || value.isEmpty }

/-- The loop over the properties of a line, for so many rounds. -/
def propertyLoop : Nat → ScsiInfo → CString → List CString → Except ScsiFault ScsiInfo
  | 0, _, _, _ => .error .endless
  | fuel + 1, st, s, saveptr => do
    let (name, saveptr) ← getName [] s saveptr
    let (value, s, saveptr) ← getValue (name = "Type:".toList) saveptr
    let st ← storeProperty st name value
    match s with
    | none => .ok st
    | some s => propertyLoop fuel st s saveptr

/-- A line, as its tokens. -/
def readScsiLine (st : ScsiInfo) : List CString → Except ScsiFault ScsiInfo
  | [] => .error .nullToken
  | s :: saveptr =>
    propertyLoop (saveptr.length + 1) (if s = "Host:".toList then st.newDevice else st) s saveptr

/-- The strings `fgets(data, 80, scsi)` reads one after the other. -/
def fgets (file : CString) : List CString :=
  (chunks 79 '\n' file).map (·.takeWhile (· ≠ '\x00'))

/-- The tokens of the lines behind the first. -/
def scsiLines (file : CString) : List (List CString) := (fgets file).tail.map (tokens ' ')

/-- `get_scsi_info`; `none` is a file that cannot be opened. -/
def getScsiInfo : Option CString → Except ScsiFault ScsiInfo
  | none => .error .nullFile
  | some file => (scsiLines file).foldlM readScsiLine allocScsiInfo

/-! ## Steps that may fail -/

section
variable {ε α β : Type} {x : Except ε α} {f : α → Except ε β}

theorem bind_eq_ok {b : β} : (x >>= f) = .ok b ↔ ∃ a, x = .ok a ∧ f a = .ok b := by
  cases x <;> simp [bind, Except.bind]

theorem bind_eq_error {e : ε} :
    (x >>= f) = .error e ↔ x = .error e ∨ ∃ a, x = .ok a ∧ f a = .error e := by
  cases x <;> simp [bind, Except.bind]

end

/-! ## Fields -/

def joinWords (ws : List CString) : CString := ws.foldl appendWord []

/-- The words of a name. -/
structure ScsiName where
  words : List CString
  last : CString
  words_plain : ∀ w ∈ words, ¬ EndsName w
  last_ends : EndsName last

def ScsiName.text (n : ScsiName) : CString := joinWords (n.words ++ [n.last])

/-- The value of this name is one word. -/
def ScsiName.IsType (n : ScsiName) : Prop := n.text = "Type:".toList

instance (n : ScsiName) : Decidable n.IsType := inferInstanceAs (Decidable (_ = _))

/-- A name and its value. -/
structure ScsiField where
  name : ScsiName
  value : List CString
  value_ok : if name.IsType then value.length = 1 else ∀ w ∈ value, ¬ EndsName w

def ScsiField.text (f : ScsiField) : CString := joinWords f.value

def ScsiField.words (f : ScsiField) : List CString := f.name.words ++ f.name.last :: f.value

/-- Behind a value that may have many words, the next name has only one. -/
def ScsiField.Before (f g : ScsiField) : Prop := f.name.IsType ∨ g.name.words = []

/-- The fields of a line. -/
structure ScsiLine where
  fields : List ScsiField
  ne_nil : fields ≠ []
  chain : fields.IsChain ScsiField.Before

def ScsiLine.words (l : ScsiLine) : List CString := l.fields.flatMap ScsiField.words

def storeField (st : ScsiInfo) (f : ScsiField) : Except ScsiFault ScsiInfo :=
  storeProperty st f.name.text f.text

theorem getName_words {words : List CString} (hplain : ∀ w ∈ words, ¬ EndsName w) {last : CString}
    (hlast : EndsName last) {curr : CString} {saveptr rest : List CString}
    (h : curr :: saveptr = words ++ last :: rest) (name : CString) :
    getName name curr saveptr = .ok ((words ++ [last]).foldl appendWord name, rest) := by
  induction words generalizing name curr saveptr with
  | nil =>
    cases h
    rw [getName.eq_def, if_pos hlast]
    rfl
  | cons w words ih =>
    rw [List.forall_mem_cons] at hplain
    cases words with
    | nil =>
      cases h
      rw [getName.eq_def, if_neg hplain.1]
      exact ih hplain.2 rfl _
    | cons v words =>
      cases h
      rw [getName.eq_def, if_neg hplain.1]
      exact ih hplain.2 rfl _

theorem exists_name_of_getName {name curr text : CString} {saveptr rest : List CString}
    (h : getName name curr saveptr = .ok (text, rest)) :
    ∃ n : ScsiName, curr :: saveptr = n.words ++ n.last :: rest ∧
      text = (n.words ++ [n.last]).foldl appendWord name := by
  induction saveptr generalizing name curr with
  | nil =>
    rw [getName.eq_def] at h
    split at h
    · rename_i hends
      cases h
      exact ⟨⟨[], curr, List.forall_mem_nil _, hends⟩, rfl, rfl⟩
    · cases h
  | cons next saveptr ih =>
    rw [getName.eq_def] at h
    split at h
    · rename_i hends
      cases h
      exact ⟨⟨[], curr, List.forall_mem_nil _, hends⟩, rfl, rfl⟩
    · rename_i hplain
      obtain ⟨n, hwords, rfl⟩ := ih h
      refine ⟨⟨curr :: n.words, n.last, List.forall_mem_cons.2 ⟨hplain, n.words_plain⟩,
        n.last_ends⟩, ?_, rfl⟩
      rw [hwords]
      rfl

/-- What is behind a value of many words: nothing, or a word that ends a name. -/
def BehindWords (rest : List CString) : Prop := ∀ w ∈ rest.head?, EndsName w

theorem getWords_append {value rest : List CString} (hplain : ∀ w ∈ value, ¬ EndsName w)
    (hrest : BehindWords rest) (text : CString) :
    getWords text (value ++ rest) = (value.foldl appendWord text, rest.head?, rest.tail) := by
  induction value generalizing text with
  | nil =>
    cases rest with
    | nil => rfl
    | cons w rest =>
      rw [List.nil_append, getWords, if_pos (hrest w rfl)]
      rfl
  | cons w value ih =>
    rw [List.forall_mem_cons] at hplain
    rw [List.cons_append, getWords, if_neg hplain.1, ih hplain.2]
    rfl

theorem exists_words_append (saveptr : List CString) :
    ∃ value rest : List CString, saveptr = value ++ rest ∧ (∀ w ∈ value, ¬ EndsName w) ∧
      BehindWords rest := by
  induction saveptr with
  | nil => exact ⟨[], [], rfl, List.forall_mem_nil _, by rintro _ ⟨⟩⟩
  | cons w saveptr ih =>
    by_cases hends : EndsName w
    · refine ⟨[], w :: saveptr, rfl, List.forall_mem_nil _, ?_⟩
      rintro _ ⟨⟩
      exact hends
    · obtain ⟨value, rest, rfl, hplain, hrest⟩ := ih
      exact ⟨w :: value, rest, rfl, List.forall_mem_cons.2 ⟨hends, hplain⟩, hrest⟩

theorem getValue_field (f : ScsiField) {rest : List CString}
    (hrest : f.name.IsType ∨ BehindWords rest) :
    getValue (f.name.text = "Type:".toList) (f.value ++ rest) =
      .ok (f.text, rest.head?, rest.tail) := by
  have hvalue := f.value_ok
  by_cases htype : f.name.IsType
  · have hone : decide (f.name.text = "Type:".toList) = true := decide_eq_true htype
    rw [if_pos htype] at hvalue
    obtain ⟨v, hv⟩ := List.length_eq_one_iff.1 hvalue
    rw [hone, ScsiField.text, hv]
    rfl
  · have hmany : decide (f.name.text = "Type:".toList) = false := decide_eq_false htype
    rw [if_neg htype] at hvalue
    rw [hmany]
    exact congrArg Except.ok (getWords_append hvalue (hrest.resolve_left htype) [])

/-- What has been read for a name is a field. -/
theorem exists_field_of_getValue {n : ScsiName} {saveptr rest : List CString} {text : CString}
    {next : Option CString}
    (h : getValue (n.text = "Type:".toList) saveptr = .ok (text, next, rest)) :
    ∃ f : ScsiField, f.name = n ∧ saveptr = f.value ++ (next.toList ++ rest) ∧ text = f.text ∧
      (next = none → rest = []) ∧ (n.IsType ∨ ∀ w ∈ next, EndsName w) := by
  have hrest : ∀ behind : List CString, behind.head?.toList ++ behind.tail = behind := by
    intro behind
    cases behind <;> rfl
  have hnone : ∀ behind : List CString, behind.head? = none → behind.tail = [] := by
    intro behind hnone
    cases behind with
    | nil => rfl
    | cons => cases hnone
  by_cases htype : n.IsType
  · have hone : decide (n.text = "Type:".toList) = true := decide_eq_true htype
    rw [hone] at h
    cases saveptr with
    | nil => cases h
    | cons v behind =>
      cases h
      refine ⟨⟨n, [text], by rw [if_pos htype]; rfl⟩, rfl, ?_, rfl, hnone behind, Or.inl htype⟩
      rw [hrest]
      rfl
  · have hmany : decide (n.text = "Type:".toList) = false := decide_eq_false htype
    obtain ⟨value, behind, rfl, hplain, hbehind⟩ := exists_words_append saveptr
    rw [hmany] at h
    replace h : Except.ok (getWords [] (value ++ behind)) = Except.ok (text, next, rest) := h
    rw [getWords_append hplain hbehind] at h
    cases h
    refine ⟨⟨n, value, by rwa [if_neg htype]⟩, rfl, ?_, rfl, hnone behind, Or.inr hbehind⟩
    rw [hrest]

/-! ## Lines -/

theorem propertyLoop_cons (fuel : Nat) (st : ScsiInfo) (f : ScsiField) {s : CString}
    {saveptr rest : List CString} (h : s :: saveptr = f.words ++ rest)
    (hrest : f.name.IsType ∨ BehindWords rest) :
    propertyLoop (fuel + 1) st s saveptr = (do
      let st ← storeField st f
      match rest with
      | [] => .ok st
      | s :: saveptr => propertyLoop fuel st s saveptr) := by
  rw [ScsiField.words, List.append_assoc] at h
  have hname : getName [] s saveptr = .ok (f.name.text, f.value ++ rest) :=
    getName_words f.name.words_plain f.name.last_ends h []
  simp only [propertyLoop, hname, getValue_field f hrest, bind, Except.bind]
  cases rest with
  | nil => rfl
  | cons => rfl

theorem exists_field_of_propertyLoop {fuel : Nat} {st st' : ScsiInfo} {s : CString}
    {saveptr : List CString} (h : propertyLoop (fuel + 1) st s saveptr = .ok st') :
    ∃ (f : ScsiField) (rest : List CString), s :: saveptr = f.words ++ rest ∧
      (f.name.IsType ∨ BehindWords rest) ∧
      ∀ next behind, rest = next :: behind →
        ∃ st, propertyLoop fuel st next behind = .ok st' := by
  simp only [propertyLoop, bind_eq_ok, Prod.exists] at h
  obtain ⟨text, saveptr', hname, text', next, rest, hvalue, st'', -, h⟩ := h
  obtain ⟨n, hwords, rfl⟩ := exists_name_of_getName hname
  obtain ⟨f, rfl, rfl, -, hnone, hends⟩ := exists_field_of_getValue hvalue
  refine ⟨f, next.toList ++ rest, ?_, ?_, ?_⟩
  · rw [hwords, ScsiField.words, List.append_assoc]
    rfl
  · refine hends.imp_right fun hends w hw => ?_
    cases next with
    | none =>
      rw [hnone rfl] at hw
      cases hw
    | some => exact hends w hw
  · intro s behind hrest
    cases next with
    | none =>
      rw [hnone rfl] at hrest
      cases hrest
    | some =>
      cases hrest
      exact ⟨st'', h⟩

/-- The tokens of a field begin with one. -/
theorem ScsiField.exists_words (f : ScsiField) : ∃ s saveptr, f.words = s :: saveptr := by
  cases h : f.words with
  | nil =>
    rw [ScsiField.words, List.append_eq_nil_iff] at h
    exact absurd h.2 (List.cons_ne_nil _ _)
  | cons s saveptr => exact ⟨s, saveptr, rfl⟩

/-- What stands in front of a field ends where the field begins. -/
theorem ScsiField.Before.behind {f g : ScsiField} (h : f.Before g) (rest : List CString) :
    f.name.IsType ∨ BehindWords (g.words ++ rest) := by
  refine h.imp_right fun hwords w hw => ?_
  rw [ScsiField.words, hwords] at hw
  cases hw
  exact g.name.last_ends

/-- A line of fields is read field by field. -/
theorem propertyLoop_fields {f : ScsiField} {fs : List ScsiField}
    (hchain : (f :: fs).IsChain ScsiField.Before) {s : CString} {saveptr : List CString}
    (h : s :: saveptr = (f :: fs).flatMap ScsiField.words) {fuel : Nat}
    (hfuel : saveptr.length < fuel) (st : ScsiInfo) :
    propertyLoop fuel st s saveptr = (f :: fs).foldlM storeField st := by
  induction fs generalizing f s saveptr fuel st with
  | nil =>
    obtain ⟨fuel, rfl⟩ := Nat.exists_eq_add_of_lt (Nat.zero_lt_of_lt hfuel)
    rw [List.flatMap_singleton] at h
    have hwords : s :: saveptr = f.words ++ [] := by rw [h, List.append_nil]
    have hbehind : BehindWords [] := by rintro _ ⟨⟩
    rw [Nat.zero_add, propertyLoop_cons fuel st f hwords (Or.inr hbehind)]
    rfl
  | cons g fs ih =>
    obtain ⟨fuel, rfl⟩ := Nat.exists_eq_add_of_lt (Nat.zero_lt_of_lt hfuel)
    rw [List.isChain_cons_cons] at hchain
    obtain ⟨hbefore, hchain⟩ := hchain
    rw [List.flatMap_cons, List.flatMap_cons] at h
    have hbehind := hbefore.behind (fs.flatMap ScsiField.words)
    rw [Nat.zero_add, propertyLoop_cons fuel st f h hbehind]
    obtain ⟨first, more, hfirst⟩ := f.exists_words
    obtain ⟨next, rest, hnext⟩ := g.exists_words
    have hlength := congrArg List.length h
    rw [hfirst, hnext] at hlength
    simp only [List.length_cons, List.length_append, List.cons_append] at hlength
    rw [hnext, List.foldlM_cons]
    show (do
      let st ← storeField st f
      propertyLoop fuel st next (rest ++ fs.flatMap ScsiField.words)) = _
    congr 1
    funext st
    apply ih hchain
    · rw [List.flatMap_cons, hnext]
      rfl
    · rw [List.length_append]
      omega

/-- A line that is read is a line of fields. -/
theorem exists_fields_of_propertyLoop {fuel : Nat} {st st' : ScsiInfo} {s : CString}
    {saveptr : List CString} (h : propertyLoop fuel st s saveptr = .ok st') :
    ∃ (f : ScsiField) (fs : List ScsiField), (f :: fs).IsChain ScsiField.Before ∧
      s :: saveptr = (f :: fs).flatMap ScsiField.words := by
  induction fuel generalizing st s saveptr with
  | zero => cases h
  | succ fuel ih =>
    obtain ⟨f, rest, hwords, hbehind, hnext⟩ := exists_field_of_propertyLoop h
    cases rest with
    | nil =>
      refine ⟨f, [], .singleton f, ?_⟩
      rw [hwords, List.flatMap_singleton, List.append_nil]
    | cons next behind =>
      obtain ⟨st, hloop⟩ := hnext next behind rfl
      obtain ⟨g, fs, hchain, hline⟩ := ih hloop
      refine ⟨f, g :: fs, List.isChain_cons_cons.2 ⟨?_, hchain⟩, ?_⟩
      · refine hbehind.imp_right fun hends => ?_
        cases hg : g.name.words with
        | nil => rfl
        | cons w ws =>
          rw [List.flatMap_cons, ScsiField.words, hg] at hline
          cases hline
          have hmem : next ∈ g.name.words := by
            rw [hg]
            exact List.mem_cons_self
          exact absurd (hends next rfl) (g.name.words_plain next hmem)
      · rw [hwords, hline]
        rfl

/-- The line begins with `Host:`. -/
def ScsiLine.IsHost (l : ScsiLine) : Prop := l.words.head? = some "Host:".toList

instance (l : ScsiLine) : Decidable l.IsHost := inferInstanceAs (Decidable (_ = _))

/-- A line of fields is read as it is meant. -/
theorem readScsiLine_words (st : ScsiInfo) (l : ScsiLine) :
    readScsiLine st l.words =
      l.fields.foldlM storeField (if l.IsHost then st.newDevice else st) := by
  obtain ⟨f, fs, hfields⟩ := List.exists_cons_of_ne_nil l.ne_nil
  have hchain := l.chain
  cases hwords : l.words with
  | nil =>
    obtain ⟨first, more, hfirst⟩ := f.exists_words
    rw [ScsiLine.words, hfields, List.flatMap_cons, hfirst] at hwords
    cases hwords
  | cons s saveptr =>
    have hhost : (s = "Host:".toList) ↔ l.IsHost := by
      rw [ScsiLine.IsHost, hwords, List.head?_cons, Option.some_inj]
    rw [ScsiLine.words, hfields] at hwords
    rw [hfields] at hchain ⊢
    simp only [readScsiLine, hhost]
    exact propertyLoop_fields hchain hwords.symm (Nat.lt_succ_self _) _

theorem exists_line_of_readScsiLine {st st' : ScsiInfo} {words : List CString}
    (h : readScsiLine st words = .ok st') : ∃ l : ScsiLine, l.words = words := by
  cases words with
  | nil => cases h
  | cons s saveptr =>
    obtain ⟨f, fs, hchain, hwords⟩ := exists_fields_of_propertyLoop h
    exact ⟨⟨f :: fs, List.cons_ne_nil f fs, hchain⟩, hwords.symm⟩

/-! ## The loop ends -/

theorem getName_ne_endless (name curr : CString) (saveptr : List CString) :
    getName name curr saveptr ≠ .error .endless := by
  induction saveptr generalizing name curr with
  | nil =>
    rw [getName.eq_def]
    split <;> simp
  | cons next saveptr ih =>
    rw [getName.eq_def]
    split
    · simp
    · exact ih _ next

theorem getValue_ne_endless (oneWord : Bool) (saveptr : List CString) :
    getValue oneWord saveptr ≠ .error .endless := by
  unfold getValue
  split
  · cases saveptr <;> simp
  · simp

theorem storeProperty_ne_endless (st : ScsiInfo) (name value : CString) :
    storeProperty st name value ≠ .error .endless := by
  unfold storeProperty
  repeat' split
  all_goals simp

/-- Each round takes a token. -/
theorem propertyLoop_ne_endless {fuel : Nat} {saveptr : List CString} (h : saveptr.length < fuel)
    (st : ScsiInfo) (s : CString) : propertyLoop fuel st s saveptr ≠ .error .endless := by
  induction fuel generalizing st s saveptr with
  | zero => cases h
  | succ fuel ih =>
    intro hend
    simp only [propertyLoop, bind_eq_error, Prod.exists] at hend
    obtain hname | ⟨text, rest, hname, hend⟩ := hend
    · exact getName_ne_endless _ _ _ hname
    obtain hvalue | ⟨text', next, behind, hvalue, hend⟩ := hend
    · exact getValue_ne_endless _ _ hvalue
    obtain hstore | ⟨st', -, hend⟩ := hend
    · exact storeProperty_ne_endless _ _ _ hstore
    cases next with
    | none => cases hend
    | some s' =>
      obtain ⟨n, hwords, rfl⟩ := exists_name_of_getName hname
      obtain ⟨f, rfl, rfl, -⟩ := exists_field_of_getValue hvalue
      have hlength := congrArg List.length hwords
      simp only [List.length_cons, List.length_append, Option.toList_some, List.length_nil]
        at hlength
      have hbehind : behind.length < fuel := by omega
      exact ih hbehind st' s' hend

theorem readScsiLine_ne_endless (st : ScsiInfo) (line : List CString) :
    readScsiLine st line ≠ .error .endless := by
  cases line with
  | nil => simp [readScsiLine]
  | cons s saveptr => exact propertyLoop_ne_endless (Nat.lt_succ_self _) _ s

/-- `get_scsi_info` ends, whatever is in the file. -/
theorem getScsiInfo_ne_endless (scsi : Option CString) : getScsiInfo scsi ≠ .error .endless := by
  cases scsi with
  | none => simp [getScsiInfo]
  | some file =>
    rw [getScsiInfo]
    generalize allocScsiInfo = st
    induction scsiLines file generalizing st with
    | nil => rintro ⟨⟩
    | cons line lines ih =>
      intro hend
      rw [List.foldlM_cons, bind_eq_error] at hend
      obtain hline | ⟨st₁, -, hend⟩ := hend
      · exact readScsiLine_ne_endless st line hline
      · exact ih st₁ hend

/-! ## The buffers of a line -/

theorem joinWords_eq {ws : List CString} (h : ∀ w ∈ ws, w ≠ []) :
    joinWords ws = [' '].intercalate ws := by
  induction ws using List.reverseRecOn with
  | nil => rfl
  | append_singleton ws w ih =>
    have hws : ∀ w ∈ ws, w ≠ [] := fun w hw => h w (List.mem_append_left _ hw)
    have hjoin : joinWords (ws ++ [w]) = appendWord (joinWords ws) w := List.foldl_append
    rw [hjoin, ih hws]
    cases ws with
    | nil => exact List.intercalate_singleton.symm
    | cons v vs =>
      have hne : [' '].intercalate (v :: vs) ≠ [] := by
        intro hnil
        have hlength := length_intercalate ' ' (List.cons_ne_nil v vs)
        have hv := List.length_pos_of_ne_nil (hws v List.mem_cons_self)
        rw [hnil, weight, List.map_cons, List.sum_cons] at hlength
        simp only [List.length_nil] at hlength
        omega
      rw [appendWord, if_neg hne, intercalate_concat (List.cons_ne_nil v vs)]

theorem ScsiLine.words_sublist {l : ScsiLine} {f : ScsiField} (hf : f ∈ l.fields) :
    f.words.Sublist l.words :=
  List.sublist_flatten_of_mem (List.mem_map_of_mem hf)

theorem length_lt_of_mem_fgets {file data : CString} (h : data ∈ fgets file) :
    data.length < 80 := by
  obtain ⟨chunk, hchunk, rfl⟩ := List.mem_map.1 h
  have hnil : ([] : CString).length < 79 := by decide
  have hlength := length_le_of_mem_chunksFrom hnil hchunk
  have hcut := (List.takeWhile_sublist (l := chunk) (· ≠ '\x00')).length_le
  omega

/-- The 80 bytes of `name` and `value` are enough for any line. -/
theorem ScsiField.length_lt {file data : CString} (hdata : data ∈ fgets file) {l : ScsiLine}
    (hl : l.words = tokens ' ' data) {f : ScsiField} (hf : f ∈ l.fields) :
    f.name.text.length < 80 ∧ f.text.length < 80 := by
  have hsub := l.words_sublist hf
  have hwords : ∀ w ∈ f.words, w ≠ [] := by
    intro w hw
    have hmem := hsub.subset hw
    rw [hl] at hmem
    exact (isToken_of_mem hmem).1
  have hname : (f.name.words ++ [f.name.last]).Sublist f.words := by
    rw [ScsiField.words]
    exact (List.Sublist.refl _).append (List.singleton_sublist.2 List.mem_cons_self)
  have hvalue : f.value.Sublist f.words :=
    (List.sublist_cons_self _ _).trans (List.sublist_append_right _ _)
  have hlength := length_lt_of_mem_fgets hdata
  rw [hl] at hsub
  constructor
  · rw [ScsiName.text, joinWords_eq fun w hw => hwords w (hname.subset hw)]
    exact (length_intercalate_le (hname.trans hsub)).trans_lt hlength
  · rw [ScsiField.text, joinWords_eq fun w hw => hwords w (hvalue.subset hw)]
    exact (length_intercalate_le (hvalue.trans hsub)).trans_lt hlength

/-! ## Devices -/

/-- Name and value leave room for a zero. -/
def ScsiField.Short (f : ScsiField) : Prop :=
  f.name.text.length < 32 ∧ (cutNewline f.text).length < 32

def ScsiSlot.storeField (d : ScsiSlot) (f : ScsiField) : ScsiSlot :=
  d.store f.name.text (cutNewline f.text)

theorem ScsiSlot.length_capability_storeField (d : ScsiSlot) (f : ScsiField) :
    (d.storeField f).capability.length = d.capability.length + 1 :=
  List.length_append

/-- Some fields have been stored in the last device. -/
def ScsiInfo.addFields (st : ScsiInfo) (d : ScsiSlot) (ds : List ScsiSlot)
    (fields : List ScsiField) : ScsiInfo :=
  { st with
    devices := fields.foldl ScsiSlot.storeField d :: ds
    emptyValue := st.emptyValue || fields.any (·.text.isEmpty) }

theorem storeField_eq_ok_iff {st st' : ScsiInfo} {d : ScsiSlot} {ds : List ScsiSlot}
    (h : st.devices = d :: ds) (f : ScsiField) :
    storeField st f = .ok st' ↔ ds.length < 32 ∧ d.capability.length < 16 ∧ f.Short ∧
      st' = st.addFields d ds [f] := by
  have hshort : ¬ (32 ≤ f.name.text.length ∨ 32 ≤ (cutNewline f.text).length) ↔ f.Short := by
    rw [not_or, Nat.not_le, Nat.not_le]
    rfl
  simp only [storeField, storeProperty, h]
  split
  · exact iff_of_false (by rintro ⟨⟩) (by omega)
  split
  · exact iff_of_false (by rintro ⟨⟩) (by omega)
  rw [← hshort]
  split
  · rename_i hlong
    exact iff_of_false (by rintro ⟨⟩) fun h => h.2.2.1 hlong
  · rename_i hds hd hlong
    rw [Except.ok.injEq]
    constructor
    · rintro rfl
      refine ⟨Nat.not_le.1 hds, Nat.not_le.1 hd, hlong, ?_⟩
      simp [ScsiInfo.addFields, ScsiSlot.storeField]
    · rintro ⟨-, -, -, rfl⟩
      simp [ScsiInfo.addFields, ScsiSlot.storeField]

theorem addFields_addFields (st : ScsiInfo) (d : ScsiSlot) (ds : List ScsiSlot) (f : ScsiField)
    (fs : List ScsiField) :
    (st.addFields d ds [f]).addFields (d.storeField f) ds fs = st.addFields d ds (f :: fs) := by
  simp [ScsiInfo.addFields, Bool.or_assoc]

/-- Fields are stored as long as there are slots for them, and all strings are short. -/
theorem foldlM_storeField_eq_ok_iff {st st' : ScsiInfo} {d : ScsiSlot} {ds : List ScsiSlot}
    (h : st.devices = d :: ds) (hds : ds.length < 32) (hd : d.capability.length ≤ 16)
    (fs : List ScsiField) :
    fs.foldlM storeField st = .ok st' ↔ d.capability.length + fs.length ≤ 16 ∧
      (∀ f ∈ fs, f.Short) ∧ st' = st.addFields d ds fs := by
  induction fs generalizing st d with
  | nil =>
    have hnil : st.addFields d ds [] = st := by simp [ScsiInfo.addFields, ← h]
    rw [List.foldlM_nil, hnil]
    show Except.ok st = _ ↔ _
    rw [Except.ok.injEq]
    simp [hd, eq_comm]
  | cons f fs ih =>
    have hlength := d.length_capability_storeField f
    rw [List.foldlM_cons, bind_eq_ok, List.length_cons, List.forall_mem_cons,
      ← addFields_addFields]
    constructor
    · intro ⟨st₁, hstore, hfold⟩
      obtain ⟨-, hslot, hshort, rfl⟩ := (storeField_eq_ok_iff h f).1 hstore
      obtain ⟨hroom, hall, heq⟩ := (ih (d := d.storeField f) rfl (by omega)).1 hfold
      exact ⟨by omega, ⟨hshort, hall⟩, heq⟩
    · intro ⟨hroom, ⟨hshort, hall⟩, heq⟩
      have hstore : storeField st f = .ok (st.addFields d ds [f]) :=
        (storeField_eq_ok_iff h f).2 ⟨hds, by omega, hshort, rfl⟩
      exact ⟨_, hstore, (ih (d := d.storeField f) rfl (by omega)).2 ⟨by omega, hall, heq⟩⟩

/-- Without a device, or with too many, no field is stored. -/
theorem not_storeField_of_devices {st st' : ScsiInfo}
    (h : st.devices = [] ∨ 32 < st.devices.length) {fs : List ScsiField} (hfs : fs ≠ []) :
    fs.foldlM storeField st ≠ .ok st' := by
  obtain ⟨f, fs, rfl⟩ := List.exists_cons_of_ne_nil hfs
  have hstore : ∀ st₁, storeField st f ≠ .ok st₁ := by
    intro st₁ hstore
    cases hst : st.devices with
    | nil => simp [storeField, storeProperty, hst] at hstore
    | cons d ds =>
      rw [hst, List.length_cons] at h
      obtain ⟨hds, -⟩ := (storeField_eq_ok_iff hst f).1 hstore
      rcases h with h | h
      · cases h
      · omega
  intro hfold
  rw [List.foldlM_cons, bind_eq_ok] at hfold
  obtain ⟨st₁, hst, -⟩ := hfold
  exact hstore st₁ hst

/-- A device in the file: a line that begins with `Host:`, and the lines behind it that do not. -/
structure ScsiEntry where
  first : ScsiLine
  more : List ScsiLine
  first_isHost : first.IsHost
  more_not : ∀ l ∈ more, ¬ l.IsHost

def ScsiEntry.lines (e : ScsiEntry) : List ScsiLine := e.first :: e.more

def ScsiEntry.fields (e : ScsiEntry) : List ScsiField := e.lines.flatMap ScsiLine.fields

theorem ScsiEntry.fields_ne_nil (e : ScsiEntry) : e.fields ≠ [] := by
  rw [fields, lines, List.flatMap_cons]
  exact List.append_ne_nil_of_left_ne_nil e.first.ne_nil _

/-- The lines of a file, as the tokens in them. -/
def listingWords (entries : List ScsiEntry) : List (List CString) :=
  entries.flatMap fun e => e.lines.map ScsiLine.words

/-- The device fits what is allocated for it. -/
def ScsiEntry.Small (e : ScsiEntry) : Prop := e.fields.length ≤ 16 ∧ ∀ f ∈ e.fields, f.Short

/-- What is stored for a device. -/
def ScsiEntry.slot (e : ScsiEntry) : ScsiSlot := e.fields.foldl ScsiSlot.storeField .unset

def ScsiInfo.add (st : ScsiInfo) (e : ScsiEntry) : ScsiInfo :=
  st.newDevice.addFields .unset st.devices e.fields

theorem foldlM_readScsiLine_more {ls : List ScsiLine} (h : ∀ l ∈ ls, ¬ l.IsHost) (st : ScsiInfo) :
    (ls.map ScsiLine.words).foldlM readScsiLine st =
      (ls.flatMap ScsiLine.fields).foldlM storeField st := by
  induction ls generalizing st with
  | nil => rfl
  | cons l ls ih =>
    rw [List.forall_mem_cons] at h
    rw [List.map_cons, List.foldlM_cons, readScsiLine_words, if_neg h.1, List.flatMap_cons,
      List.foldlM_append]
    congr 1
    funext st
    exact ih h.2 st

theorem foldlM_readScsiLine_entry (e : ScsiEntry) (st : ScsiInfo) :
    (e.lines.map ScsiLine.words).foldlM readScsiLine st =
      e.fields.foldlM storeField st.newDevice := by
  rw [ScsiEntry.fields, ScsiEntry.lines, List.map_cons, List.foldlM_cons, readScsiLine_words,
    if_pos e.first_isHost, List.flatMap_cons, List.foldlM_append]
  congr 1
  funext st
  exact foldlM_readScsiLine_more e.more_not st

theorem foldlM_readScsiLine_entry_eq_ok_iff {st st' : ScsiInfo} (e : ScsiEntry) :
    (e.lines.map ScsiLine.words).foldlM readScsiLine st = .ok st' ↔
      st.devices.length < 32 ∧ e.Small ∧ st' = st.add e := by
  rw [foldlM_readScsiLine_entry]
  by_cases hlt : st.devices.length < 32
  · have hdevices : st.newDevice.devices = .unset :: st.devices := rfl
    rw [foldlM_storeField_eq_ok_iff hdevices hlt (Nat.zero_le _), ScsiEntry.Small, and_assoc,
      and_iff_right hlt]
    simp [ScsiSlot.unset, ScsiInfo.add]
  · refine iff_of_false (not_storeField_of_devices (Or.inr ?_) e.fields_ne_nil) fun h => hlt h.1
    show 32 < st.devices.length + 1
    omega

/-- Devices are stored if they are not too many, and each is small. -/
theorem foldlM_readScsiLine_eq_ok_iff {st st' : ScsiInfo} (h : st.devices.length ≤ 32)
    (entries : List ScsiEntry) :
    (listingWords entries).foldlM readScsiLine st = .ok st' ↔
      st.devices.length + entries.length ≤ 32 ∧ (∀ e ∈ entries, e.Small) ∧
        st' = entries.foldl ScsiInfo.add st := by
  induction entries generalizing st with
  | nil =>
    show Except.ok st = _ ↔ _
    rw [Except.ok.injEq]
    simp [h, eq_comm]
  | cons e entries ih =>
    have hlength : (st.add e).devices.length = st.devices.length + 1 := rfl
    rw [listingWords, List.flatMap_cons, List.foldlM_append, bind_eq_ok, List.length_cons,
      List.forall_mem_cons, List.foldl_cons]
    constructor
    · intro ⟨st₁, hentry, hfold⟩
      obtain ⟨hlt, hsmall, rfl⟩ := (foldlM_readScsiLine_entry_eq_ok_iff e).1 hentry
      obtain ⟨hroom, hall, heq⟩ := (ih (by omega)).1 hfold
      exact ⟨by omega, ⟨hsmall, hall⟩, heq⟩
    · intro ⟨hroom, ⟨hsmall, hall⟩, heq⟩
      have hentry : (e.lines.map ScsiLine.words).foldlM readScsiLine st = .ok (st.add e) :=
        (foldlM_readScsiLine_entry_eq_ok_iff e).2 ⟨by omega, hsmall, rfl⟩
      exact ⟨_, hentry, (ih (by omega)).2 ⟨by omega, hall, heq⟩⟩

/-- What has been stored, once all devices have. -/
theorem foldl_add (entries : List ScsiEntry) (st : ScsiInfo) :
    (entries.foldl ScsiInfo.add st).devices = (entries.map ScsiEntry.slot).reverse ++ st.devices ∧
      (entries.foldl ScsiInfo.add st).emptyValue = (st.emptyValue ||
        entries.any fun e => e.fields.any (·.text.isEmpty)) ∧
      (entries.foldl ScsiInfo.add st).scsiInfoLen =
        if entries = [] then st.scsiInfoLen else some (st.devices.length + entries.length) := by
  induction entries generalizing st with
  | nil => simp
  | cons e entries ih =>
    obtain ⟨hdevices, hempty, hlength⟩ := ih (st.add e)
    have hadd : (st.add e).devices = e.slot :: st.devices := rfl
    refine ⟨?_, ?_, ?_⟩
    · rw [List.foldl_cons, hdevices, hadd, List.map_cons, List.reverse_cons, List.append_assoc]
      rfl
    · rw [List.foldl_cons, hempty, List.any_cons, ← Bool.or_assoc]
      rfl
    · rw [List.foldl_cons, hlength, hadd, if_neg (List.cons_ne_nil e entries), List.length_cons,
        List.length_cons]
      split
      · rename_i hnil
        rw [hnil]
        rfl
      · congr 1
        omega

/-! ## Files -/

/-- Lines are those of devices, except for those in front of the first. -/
theorem exists_entries (ls : List ScsiLine) :
    ∃ (pre : List ScsiLine) (entries : List ScsiEntry),
      ls = pre ++ entries.flatMap ScsiEntry.lines ∧ ∀ l ∈ pre, ¬ l.IsHost := by
  induction ls with
  | nil => exact ⟨[], [], rfl, List.forall_mem_nil _⟩
  | cons l ls ih =>
    obtain ⟨pre, entries, rfl, hpre⟩ := ih
    by_cases hhost : l.IsHost
    · exact ⟨[], ⟨l, pre, hhost, hpre⟩ :: entries, rfl, List.forall_mem_nil _⟩
    · exact ⟨l :: pre, entries, rfl, List.forall_mem_cons.2 ⟨hhost, hpre⟩⟩

theorem exists_lines_of_foldlM {lines : List (List CString)} {st st' : ScsiInfo}
    (h : lines.foldlM readScsiLine st = .ok st') :
    ∃ ls : List ScsiLine, ls.map ScsiLine.words = lines := by
  induction lines generalizing st with
  | nil => exact ⟨[], rfl⟩
  | cons line lines ih =>
    rw [List.foldlM_cons, bind_eq_ok] at h
    obtain ⟨st₁, hline, h⟩ := h
    obtain ⟨l, rfl⟩ := exists_line_of_readScsiLine hline
    obtain ⟨ls, rfl⟩ := ih h
    exact ⟨l :: ls, rfl⟩

/-- What a file that is read has behind its first line. -/
theorem exists_listing_of_getScsiInfo {file : CString} {info : ScsiInfo}
    (h : getScsiInfo (some file) = .ok info) :
    ∃ entries : List ScsiEntry, scsiLines file = listingWords entries := by
  obtain ⟨ls, hls⟩ := exists_lines_of_foldlM h
  obtain ⟨pre, entries, rfl, hpre⟩ := exists_entries ls
  cases pre with
  | nil =>
    refine ⟨entries, ?_⟩
    rw [← hls, List.nil_append, listingWords, List.map_flatMap]
  | cons l pre =>
    -- the first field is stored before there is a device
    rw [getScsiInfo, ← hls, List.cons_append, List.map_cons, List.foldlM_cons, readScsiLine_words,
      if_neg (hpre l List.mem_cons_self), bind_eq_ok] at h
    obtain ⟨st, hline, -⟩ := h
    exact absurd hline (not_storeField_of_devices (Or.inl rfl) l.ne_nil)

theorem getScsiInfo_eq_ok_iff {file : CString} {entries : List ScsiEntry}
    (h : scsiLines file = listingWords entries) (info : ScsiInfo) :
    getScsiInfo (some file) = .ok info ↔ entries.length ≤ 32 ∧ (∀ e ∈ entries, e.Small) ∧
      info = entries.foldl ScsiInfo.add allocScsiInfo := by
  rw [getScsiInfo, h, foldlM_readScsiLine_eq_ok_iff (Nat.zero_le _)]
  simp [allocScsiInfo]

/-- Slots and strings that are there. -/
structure ScsiInfo.Inside (info : ScsiInfo) : Prop where
  devices : info.devices.length ≤ 32
  properties : ∀ d ∈ info.devices, d.capability.length ≤ 16
  strings : ∀ d ∈ info.devices, ∀ p ∈ d.capability, p.name.length < 32 ∧ p.value.length < 32

theorem capability_foldl (fields : List ScsiField) (d : ScsiSlot) :
    (fields.foldl ScsiSlot.storeField d).capability =
      d.capability ++ fields.map fun f => ⟨f.name.text, cutNewline f.text⟩ := by
  induction fields generalizing d with
  | nil => simp
  | cons f fields ih =>
    rw [List.foldl_cons, ih, List.map_cons, ScsiSlot.storeField, ScsiSlot.store, List.append_assoc]
    rfl

theorem ScsiEntry.capability_slot (e : ScsiEntry) :
    e.slot.capability = e.fields.map fun f => ⟨f.name.text, cutNewline f.text⟩ :=
  capability_foldl _ _

theorem foldl_add_inside {entries : List ScsiEntry} (hlength : entries.length ≤ 32)
    (hsmall : ∀ e ∈ entries, e.Small) : (entries.foldl ScsiInfo.add allocScsiInfo).Inside := by
  have hdevices : (entries.foldl ScsiInfo.add allocScsiInfo).devices =
      (entries.map ScsiEntry.slot).reverse := by
    rw [(foldl_add entries allocScsiInfo).1]
    exact List.append_nil _
  have hmem : ∀ d ∈ (entries.foldl ScsiInfo.add allocScsiInfo).devices,
      ∃ e ∈ entries, e.slot = d := by
    intro d hd
    rw [hdevices, List.mem_reverse] at hd
    exact List.mem_map.1 hd
  constructor
  · rwa [hdevices, List.length_reverse, List.length_map]
  · intro d hd
    obtain ⟨e, he, rfl⟩ := hmem d hd
    rw [e.capability_slot, List.length_map]
    exact (hsmall e he).1
  · intro d hd p hp
    obtain ⟨e, he, rfl⟩ := hmem d hd
    rw [e.capability_slot] at hp
    obtain ⟨f, hf, rfl⟩ := List.mem_map.1 hp
    exact (hsmall e he).2 f hf

/-- Nothing goes wrong, and the number of devices is set; if there are none, this is the answer. -/
def ScsiSafe (scsi : Option CString) : Prop :=
  ∃ info, getScsiInfo scsi = .ok info ∧ info.Inside ∧ info.emptyValue = false ∧
    ∃ n, info.scsiInfoLen = some n ∧ ∀ os : ConfigAnswers, os.scsiInfo.length = n →
      n = 0 → ndmpConfigGetScsiInfo os = .error .notSupportedErr

/-- The file can be opened, and behind its first line there are one to 32 devices, each with sixteen
fields at most, whose names and values are short and not empty. -/
def ScsiReadable (scsi : Option CString) : Prop :=
  ∃ (file : CString) (entries : List ScsiEntry), scsi = some file ∧
    scsiLines file = listingWords entries ∧ entries ≠ [] ∧ entries.length ≤ 32 ∧
      ∀ e ∈ entries, e.Small ∧ ∀ f ∈ e.fields, f.text ≠ []

/-- **Any file.** Nothing goes wrong if and only if the file is laid out as it should be. -/
theorem scsiSafe_iff (scsi : Option CString) : ScsiSafe scsi ↔ ScsiReadable scsi := by
  cases scsi with
  | none =>
    refine iff_of_false ?_ ?_
    · rintro ⟨info, hinfo, -⟩
      cases hinfo
    · rintro ⟨file, entries, hfile, -⟩
      cases hfile
  | some file =>
    constructor
    · rintro ⟨info, hinfo, -, hempty, n, hlength, -⟩
      obtain ⟨entries, hlines⟩ := exists_listing_of_getScsiInfo hinfo
      obtain ⟨hroom, hsmall, rfl⟩ := (getScsiInfo_eq_ok_iff hlines info).1 hinfo
      obtain ⟨-, hany, hset⟩ := foldl_add entries allocScsiInfo
      refine ⟨file, entries, rfl, hlines, ?_, hroom, ?_⟩
      · rintro rfl
        rw [hset] at hlength
        cases hlength
      · rw [hany] at hempty
        simp [allocScsiInfo] at hempty
        intro e he
        exact ⟨hsmall e he, hempty e he⟩
    · rintro ⟨_, entries, ⟨⟩, hlines, hne, hroom, hentries⟩
      obtain ⟨-, hany, hset⟩ := foldl_add entries allocScsiInfo
      have hsmall : ∀ e ∈ entries, e.Small := fun e he => (hentries e he).1
      refine ⟨_, (getScsiInfo_eq_ok_iff hlines _).2 ⟨hroom, hsmall, rfl⟩,
        foldl_add_inside hroom hsmall, ?_, entries.length, ?_, ?_⟩
      · rw [hany]
        simp only [allocScsiInfo, Bool.false_or, List.any_eq_false]
        simpa using fun e he f hf => (hentries e he).2 f hf
      · rw [hset, if_neg hne]
        simp [allocScsiInfo]
      · intro os hos hzero
        rw [ndmpConfigGetScsiInfo, if_neg (by omega)]

/-- What the kernel writes on a machine without SCSI devices. -/
def attachedDevices : CString := "Attached devices:\n".toList

/-- If the file is missing, `fgets` is called with `NULL`; if it names no device, the number of
devices is never set. -/
theorem not_scsiSafe_noDevice : ¬ ScsiSafe none ∧ ¬ ScsiSafe (some attachedDevices) := by
  constructor
  · rintro ⟨info, hinfo, -⟩
    cases hinfo
  · rintro ⟨info, hinfo, -, -, n, hlength, -⟩
    have hunset : getScsiInfo (some attachedDevices) = .ok allocScsiInfo := by rfl
    cases hunset.symm.trans hinfo
    cases hlength

end GlfsNdmp
