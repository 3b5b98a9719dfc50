import GlfsNdmp.ScsiInfo
import Mathlib.Data.List.TakeWhile

/-!
# What the kernel writes to `/proc/scsi/scsi`

A title, and three lines for each device: its numbers, its vendor, model and revision, and its
type with the level of the standard. The texts are padded with blanks, and those of the types may
be two words.

`parsed_iff`: `get_scsi_info` takes such a file for what it says if and only if there are one to 32
devices, every type is one word, no revision ends in blanks, and no line of numbers is cut in two.
-/

namespace GlfsNdmp

open Tokens

/-! ## The texts of a device -/

/-- Neither the end of a line nor that of a string. -/
def Printable (s : CString) : Prop := ∀ c ∈ s, c ≠ '\n' ∧ c ≠ '\x00'

instance (s : CString) : Decidable (Printable s) := List.decidableBAll _ s

theorem printable_append {s t : CString} : Printable (s ++ t) ↔ Printable s ∧ Printable t :=
  List.forall_mem_append

theorem Printable.newline_not_mem {s : CString} (h : Printable s) : '\n' ∉ s :=
  fun hc => (h _ hc).1 rfl

/-- Neither blanks nor colons. -/
def Solid (s : CString) : Prop := ∀ c ∈ s, c ≠ ' ' ∧ c ≠ ':'

instance (s : CString) : Decidable (Solid s) := List.decidableBAll _ s

theorem Solid.colon_not_mem {s : CString} (h : Solid s) : ':' ∉ s := fun hc => (h _ hc).2 rfl

/-- A text of at most so many characters, without a word that ends in a colon. -/
structure ScsiText (size : Nat) where
  chars : CString
  length_le : chars.length ≤ size
  printable : Printable chars
  words_plain : ∀ w ∈ tokens ' ' chars, ¬ EndsName w

/-- A number of at most so many characters, as it is printed. -/
structure ScsiNumber (size : Nat) where
  chars : CString
  length_le : chars.length ≤ size
  printable : Printable chars
  solid : Solid chars

theorem mem_of_endsName {w : CString} (h : EndsName w) : ':' ∈ w := List.mem_of_getLast? h

theorem words_plain_of_not_mem {s : CString} (h : ':' ∉ s) : ∀ w ∈ tokens ' ' s, ¬ EndsName w :=
  fun _ hw hends => h (mem_of_mem_tokens hw _ (mem_of_endsName hends))

def ScsiNumber.text {size : Nat} (n : ScsiNumber size) : ScsiText size :=
  ⟨n.chars, n.length_le, n.printable, words_plain_of_not_mem n.solid.colon_not_mem⟩

/-- A number with something in front of it or behind it. -/
def ScsiNumber.within {size : Nat} (n : ScsiNumber size) (before behind : CString)
    (hprintable : Printable (before ++ behind)) (hcolon : ':' ∉ before ++ behind) :
    ScsiText (before.length + size + behind.length) where
  chars := before ++ n.chars ++ behind
  length_le := by
    have hlength := n.length_le
    rw [List.length_append, List.length_append]
    omega
  printable := by
    rw [printable_append] at hprintable
    rw [printable_append, printable_append]
    exact ⟨⟨hprintable.1, n.printable⟩, hprintable.2⟩
  words_plain := by
    apply words_plain_of_not_mem
    rw [List.mem_append, not_or] at hcolon
    rw [List.mem_append, List.mem_append, not_or, not_or]
    exact ⟨⟨hcolon.1, n.solid.colon_not_mem⟩, hcolon.2⟩

/-- What the kernel says about a device. -/
structure KernelDevice where
  hostNo : ScsiNumber 11
  channel : ScsiNumber 11
  id : ScsiNumber 11
  lun : ScsiNumber 20
  vendor : ScsiText 8
  model : ScsiText 16
  rev : ScsiText 4
  type : ScsiText 17
  level : ScsiNumber 8
  ccs : Bool

namespace KernelDevice

def host (d : KernelDevice) : ScsiText 15 :=
  d.hostNo.within "scsi".toList [] (by decide) (by decide)

/-- The level of the standard; what was there before the second one is marked. -/
def ansi (d : KernelDevice) : ScsiText 12 :=
  if d.ccs then d.level.within [] " CCS".toList (by decide) (by decide)
  else { d.level.text with length_le := d.level.length_le.trans (by decide) }

def hostLine (d : KernelDevice) : CString :=
  "Host: ".toList ++ d.host.chars ++ " Channel: ".toList ++ d.channel.chars ++ " Id: ".toList ++
    d.id.chars ++ " Lun: ".toList ++ d.lun.chars

def vendorLine (d : KernelDevice) : CString :=
  "  Vendor: ".toList ++ d.vendor.chars ++ " Model: ".toList ++ d.model.chars ++ " Rev: ".toList ++
    d.rev.chars

def typeLine (d : KernelDevice) : CString :=
  "  Type:   ".toList ++ d.type.chars ++ "                ANSI  SCSI revision: ".toList ++
    d.ansi.chars

end KernelDevice

/-- The file. -/
def kernelListing (devices : List KernelDevice) : CString :=
  "Attached devices:\n".toList ++ devices.flatMap fun d =>
    d.hostLine ++ '\n' :: (d.vendorLine ++ '\n' :: (d.typeLine ++ ['\n']))

/-! ## What is said -/

namespace KernelDevice

/-- The names and values in the lines of a device. -/
def properties (d : KernelDevice) : List NdmpPval :=
  [⟨"Host:".toList, squeeze ' ' d.host.chars⟩,
    ⟨"Channel:".toList, squeeze ' ' d.channel.chars⟩,
    ⟨"Id:".toList, squeeze ' ' d.id.chars⟩,
    ⟨"Lun:".toList, squeeze ' ' d.lun.chars⟩,
    ⟨"Vendor:".toList, squeeze ' ' d.vendor.chars⟩,
    ⟨"Model:".toList, squeeze ' ' d.model.chars⟩,
    ⟨"Rev:".toList, squeeze ' ' d.rev.chars⟩,
    ⟨"Type:".toList, squeeze ' ' d.type.chars⟩,
    ⟨"ANSI SCSI revision:".toList, squeeze ' ' d.ansi.chars⟩]

/-- The device has been understood. -/
structure ShownBy (d : KernelDevice) (slot : ScsiSlot) : Prop where
  capability : slot.capability = d.properties
  model : slot.model = some (squeeze ' ' d.model.chars)
  device : slot.device = some (squeeze ' ' d.type.chars)

end KernelDevice

/-- All devices have been understood, in their order. -/
def Parsed (devices : List KernelDevice) : Prop :=
  ∃ info, getScsiInfo (some (kernelListing devices)) = .ok info ∧
    info.scsiInfoLen = some devices.length ∧
      List.Forall₂ KernelDevice.ShownBy devices info.devices.reverse

/-- What can be understood: a line of numbers that is read at once, a type of one word, and a
revision that is blank or does not end in a blank. -/
structure KernelDevice.Plain (d : KernelDevice) : Prop where
  host : d.hostLine.length < 79
  type : (tokens ' ' d.type.chars).length = 1
  rev : tokens ' ' d.rev.chars = [] ∨ d.rev.chars.getLast? ≠ some ' '

/-! ## Values at the end of a line -/

/-- A value with the newline behind it, as it is stored. -/
def lastValue (s : CString) : CString := cutNewline (squeeze ' ' (s ++ ['\n']))

theorem cutNewline_of_not_mem {s : CString} (h : '\n' ∉ s) : cutNewline s = s :=
  if_neg fun hlast => h (List.mem_of_getLast? hlast)

theorem cutNewline_concat (s : CString) : cutNewline (s ++ ['\n']) = s := by
  rw [cutNewline, if_pos List.getLast?_concat, List.dropLast_concat]

theorem cutNewline_squeeze {s : CString} (h : '\n' ∉ s) :
    cutNewline (squeeze ' ' s) = squeeze ' ' s := by
  apply cutNewline_of_not_mem
  intro hmem
  rcases mem_squeeze hmem with hmem | heq
  · exact h hmem
  · exact absurd heq (by decide)

theorem lastValue_of_getLast {s : CString} (h : s.getLast? ≠ some ' ') :
    lastValue s = squeeze ' ' s := by
  rw [lastValue, squeeze_concat h (by decide), cutNewline_concat]

/-- Blanks behind a value are one blank that stays. -/
theorem lastValue_eq_iff (s : CString) :
    lastValue s = squeeze ' ' s ↔ tokens ' ' s = [] ∨ s.getLast? ≠ some ' ' := by
  by_cases hlast : s.getLast? = some ' '
  · by_cases hnil : tokens ' ' s = []
    · refine iff_of_true ?_ (Or.inl hnil)
      rw [lastValue, squeeze_concat_of_tokens_eq_nil hnil (by decide), squeeze_eq_nil_iff.2 hnil]
      rfl
    · refine iff_of_false ?_ (by simp [hnil, hlast])
      obtain ⟨p, rfl⟩ := List.getLast?_eq_some_iff.1 hlast
      have htokens : tokens ' ' (p ++ [' ']) = tokens ' ' p := by
        rw [tokens_append, tokens_nil, List.append_nil]
      have hvalue : lastValue (p ++ [' ']) = squeeze ' ' p ++ [' '] := by
        rw [lastValue, List.append_assoc]
        show cutNewline (squeeze ' ' (p ++ [' ', '\n'])) = _
        have hcut := cutNewline_concat (squeeze ' ' p ++ [' '])
        rw [List.append_assoc] at hcut
        rw [squeeze_concat_sep (by rwa [← htokens]) (by decide)]
        exact hcut
      rw [hvalue, squeeze, squeeze, htokens]
      intro heq
      have hlength := congrArg List.length heq
      rw [List.length_append] at hlength
      exact absurd hlength (by simp)
  · exact iff_of_true (lastValue_of_getLast hlast) (Or.inr hlast)

/-! ## The fields of a device -/

theorem joinWords_tokens (s : CString) : joinWords (tokens ' ' s) = squeeze ' ' s :=
  joinWords_eq fun _ hw => (isToken_of_mem hw).1

/-- The words of a text with the newline behind it end no name either. -/
theorem ScsiText.words_plain_newline {size : Nat} (t : ScsiText size) :
    ∀ w ∈ tokens ' ' (t.chars ++ ['\n']), ¬ EndsName w := by
  intro w hw hends
  rcases mem_tokens_concat (by decide) hw with hmem | hlast
  · exact t.words_plain w hmem hends
  · exact absurd (hlast.symm.trans hends) (by decide)

/-- The names of the lines that are one word. -/
inductive OneWordName
  | host | channel | id | lun | vendor | model | rev

def OneWordName.word : OneWordName → CString
  | host => "Host:".toList
  | channel => "Channel:".toList
  | id => "Id:".toList
  | lun => "Lun:".toList
  | vendor => "Vendor:".toList
  | model => "Model:".toList
  | rev => "Rev:".toList

def OneWordName.name (n : OneWordName) : ScsiName :=
  ⟨[], n.word, List.forall_mem_nil _, by cases n <;> decide⟩

theorem OneWordName.not_isType (n : OneWordName) : ¬ n.name.IsType := by
  cases n <;> decide

/-- A name of one word, and a value that ends no name. -/
def OneWordName.field (n : OneWordName) (value : List CString)
    (h : ∀ w ∈ value, ¬ EndsName w) : ScsiField :=
  ⟨n.name, value, by rwa [if_neg n.not_isType]⟩

namespace KernelDevice

/-- The words between `Type:` and `revision:`. -/
def typeWords (d : KernelDevice) : List CString :=
  tokens ' ' d.type.chars ++ ["ANSI".toList, "SCSI".toList]

theorem typeWords_plain (d : KernelDevice) : ∀ w ∈ d.typeWords, ¬ EndsName w := by
  rw [typeWords, List.forall_mem_append]
  exact ⟨d.type.words_plain, by decide⟩

theorem typeWords_isToken (d : KernelDevice) : ∀ w ∈ d.typeWords, IsToken ' ' w := by
  rw [typeWords, List.forall_mem_append]
  refine ⟨fun w hw => isToken_of_mem hw, ?_⟩
  simp [IsToken]

theorem typeWords_ne_nil (d : KernelDevice) : d.typeWords ≠ [] := by
  simp [typeWords]

def typeName : ScsiName := ⟨[], "Type:".toList, List.forall_mem_nil _, by decide⟩

/-- The value of `Type:` is the first word behind it, -/
def typeField (d : KernelDevice) : ScsiField :=
  ⟨typeName, [d.typeWords.head d.typeWords_ne_nil], by rw [if_pos (by decide)]; rfl⟩

/-- and the others belong to the name of the revision. -/
def revisionName (d : KernelDevice) : ScsiName :=
  ⟨d.typeWords.tail, "revision:".toList,
    fun w hw => d.typeWords_plain w (List.mem_of_mem_tail hw), by decide⟩

theorem tokens_revisionName (d : KernelDevice) :
    tokens ' ' d.revisionName.text = d.typeWords.tail ++ ["revision:".toList] := by
  have htokens : ∀ w ∈ d.typeWords.tail ++ ["revision:".toList], IsToken ' ' w := by
    rw [List.forall_mem_append]
    refine ⟨fun w hw => d.typeWords_isToken w (List.mem_of_mem_tail hw), ?_⟩
    simp [IsToken]
  show tokens ' ' (joinWords (d.typeWords.tail ++ ["revision:".toList])) = _
  rw [joinWords_eq fun w hw => (htokens w hw).1]
  exact tokens_intercalate htokens

theorem length_tail_typeWords (d : KernelDevice) :
    d.typeWords.tail.length = (tokens ' ' d.type.chars).length + 1 := by
  rw [List.length_tail, typeWords, List.length_append]
  rfl

theorem revisionName_not_isType (d : KernelDevice) : ¬ d.revisionName.IsType := by
  intro htype
  have hwords := d.tokens_revisionName
  rw [htype] at hwords
  have hlength := congrArg List.length hwords
  rw [List.length_append, length_tail_typeWords] at hlength
  have hone : (tokens ' ' "Type:".toList).length = 1 := by decide
  rw [hone, List.length_singleton] at hlength
  omega

def revisionField (d : KernelDevice) : ScsiField :=
  ⟨d.revisionName, tokens ' ' (d.ansi.chars ++ ['\n']), by
    rw [if_neg d.revisionName_not_isType]
    exact d.ansi.words_plain_newline⟩

def hostFields (d : KernelDevice) : List ScsiField :=
  [OneWordName.host.field (tokens ' ' d.host.chars) d.host.words_plain,
    OneWordName.channel.field (tokens ' ' d.channel.chars) d.channel.text.words_plain,
    OneWordName.id.field (tokens ' ' d.id.chars) d.id.text.words_plain,
    OneWordName.lun.field (tokens ' ' (d.lun.chars ++ ['\n'])) d.lun.text.words_plain_newline]

def vendorFields (d : KernelDevice) : List ScsiField :=
  [OneWordName.vendor.field (tokens ' ' d.vendor.chars) d.vendor.words_plain,
    OneWordName.model.field (tokens ' ' d.model.chars) d.model.words_plain,
    OneWordName.rev.field (tokens ' ' (d.rev.chars ++ ['\n'])) d.rev.words_plain_newline]

/-- The device, as it is read. -/
def entry (d : KernelDevice) : ScsiEntry where
  first := ⟨d.hostFields, List.cons_ne_nil _ _, by
    simp [hostFields, ScsiField.Before, OneWordName.field, OneWordName.name]⟩
  more :=
    [⟨d.vendorFields, List.cons_ne_nil _ _, by
        simp [vendorFields, ScsiField.Before, OneWordName.field, OneWordName.name]⟩,
      ⟨[d.typeField, d.revisionField], List.cons_ne_nil _ _, by
        simp [ScsiField.Before, typeField, typeName, ScsiName.IsType, ScsiName.text, joinWords,
          appendWord]⟩]
  first_isHost := rfl
  more_not := by
    have hvendor : "Vendor:".toList ≠ "Host:".toList := by decide
    have htype : "Type:".toList ≠ "Host:".toList := by decide
    rw [List.forall_mem_cons, List.forall_mem_singleton]
    exact ⟨fun h => hvendor (Option.some.inj h), fun h => htype (Option.some.inj h)⟩

/-- What is stored for it. -/
def found (d : KernelDevice) : List NdmpPval :=
  [⟨"Host:".toList, squeeze ' ' d.host.chars⟩,
    ⟨"Channel:".toList, squeeze ' ' d.channel.chars⟩,
    ⟨"Id:".toList, squeeze ' ' d.id.chars⟩,
    ⟨"Lun:".toList, lastValue d.lun.chars⟩,
    ⟨"Vendor:".toList, squeeze ' ' d.vendor.chars⟩,
    ⟨"Model:".toList, squeeze ' ' d.model.chars⟩,
    ⟨"Rev:".toList, lastValue d.rev.chars⟩,
    ⟨"Type:".toList, cutNewline (d.typeWords.head d.typeWords_ne_nil)⟩,
    ⟨d.revisionName.text, lastValue d.ansi.chars⟩]

theorem text_tokens {size : Nat} (t : ScsiText size) :
    cutNewline (joinWords (tokens ' ' t.chars)) = squeeze ' ' t.chars := by
  rw [joinWords_tokens, cutNewline_squeeze t.printable.newline_not_mem]

theorem capability_slot (d : KernelDevice) : d.entry.slot.capability = d.found := by
  have hlast : ∀ s : CString, cutNewline (joinWords (tokens ' ' (s ++ ['\n']))) = lastValue s := by
    intro s
    rw [joinWords_tokens]
    rfl
  have hchannel :
      cutNewline (joinWords (tokens ' ' d.channel.chars)) = squeeze ' ' d.channel.chars :=
    text_tokens d.channel.text
  have hid : cutNewline (joinWords (tokens ' ' d.id.chars)) = squeeze ' ' d.id.chars :=
    text_tokens d.id.text
  rw [ScsiEntry.capability_slot, found, ← text_tokens d.host, ← hchannel, ← hid,
    ← text_tokens d.vendor, ← text_tokens d.model, ← hlast, ← hlast, ← hlast]
  rfl

theorem ansi_getLast (d : KernelDevice) : d.ansi.chars.getLast? ≠ some ' ' := by
  intro hlast
  have hmem : ∀ {s : CString}, (∀ c ∈ s, c ≠ ' ') → s.getLast? ≠ some ' ' :=
    fun hs hlast => hs _ (List.mem_of_getLast? hlast) rfl
  unfold ansi at hlast
  split at hlast
  · replace hlast : (d.level.chars ++ " CCS".toList).getLast? = some ' ' := hlast
    have hmark : " CCS".toList.getLast? = some 'S' := by decide
    rw [List.getLast?_append, hmark] at hlast
    exact absurd hlast (by simp)
  · exact hmem (fun c hc => (d.level.solid c hc).1) hlast

theorem revisionName_text_iff (d : KernelDevice) :
    d.revisionName.text = "ANSI SCSI revision:".toList ↔ (tokens ' ' d.type.chars).length = 1 := by
  constructor
  · intro htext
    have hwords := d.tokens_revisionName
    rw [htext] at hwords
    have hlength := congrArg List.length hwords
    have hthree : (tokens ' ' "ANSI SCSI revision:".toList).length = 3 := by decide
    rw [List.length_append, length_tail_typeWords, hthree, List.length_singleton] at hlength
    omega
  · intro hone
    obtain ⟨t, ht⟩ := List.length_eq_one_iff.1 hone
    show joinWords (d.typeWords.tail ++ ["revision:".toList]) = _
    rw [typeWords, ht]
    rfl

/-- The only word of a type is its value. -/
theorem head_typeWords (d : KernelDevice) (h : (tokens ' ' d.type.chars).length = 1) :
    cutNewline (d.typeWords.head d.typeWords_ne_nil) = squeeze ' ' d.type.chars := by
  obtain ⟨t, ht⟩ := List.length_eq_one_iff.1 h
  have hwords : d.typeWords = [t, "ANSI".toList, "SCSI".toList] := by
    rw [typeWords, ht]
    rfl
  have hmem : t ∈ tokens ' ' d.type.chars := by
    rw [ht]
    exact List.mem_singleton_self t
  have hnewline : '\n' ∉ t :=
    fun hc => d.type.printable.newline_not_mem (mem_of_mem_tokens hmem _ hc)
  simp only [hwords, List.head_cons, squeeze, ht, List.intercalate_singleton]
  exact cutNewline_of_not_mem hnewline

theorem found_eq_properties_iff (d : KernelDevice) :
    d.found = d.properties ↔ (tokens ' ' d.type.chars).length = 1 ∧
      (tokens ' ' d.rev.chars = [] ∨ d.rev.chars.getLast? ≠ some ' ') := by
  have hlun : lastValue d.lun.chars = squeeze ' ' d.lun.chars :=
    lastValue_of_getLast fun hlast => (d.lun.solid _ (List.mem_of_getLast? hlast)).1 rfl
  have hansi := lastValue_of_getLast d.ansi_getLast
  simp only [found, properties, List.cons.injEq, NdmpPval.mk.injEq, true_and, and_true, hlun, hansi,
    lastValue_eq_iff, revisionName_text_iff]
  constructor
  · intro ⟨hrev, _, htype⟩
    exact ⟨htype, hrev⟩
  · intro ⟨htype, hrev⟩
    exact ⟨hrev, d.head_typeWords htype, htype⟩

theorem shownBy_slot_iff (d : KernelDevice) :
    d.ShownBy d.entry.slot ↔ (tokens ' ' d.type.chars).length = 1 ∧
      (tokens ' ' d.rev.chars = [] ∨ d.rev.chars.getLast? ≠ some ' ') := by
  rw [← found_eq_properties_iff, ← capability_slot]
  constructor
  · intro h
    exact h.capability
  · intro h
    have hslot : d.entry.slot =
        d.properties.foldl (fun slot p => slot.store p.name p.value) .unset := by
      rw [← h, ScsiEntry.capability_slot, List.foldl_map]
      rfl
    exact ⟨h, by rw [hslot]; rfl, by rw [hslot]; rfl⟩

end KernelDevice

/-! ## The lines of the file -/

namespace KernelDevice

theorem hostLine_printable (d : KernelDevice) : Printable d.hostLine := by
  unfold hostLine
  simp only [printable_append]
  exact ⟨⟨⟨⟨⟨⟨⟨by decide, d.host.printable⟩, by decide⟩, d.channel.printable⟩, by decide⟩,
    d.id.printable⟩, by decide⟩, d.lun.printable⟩

theorem vendorLine_printable (d : KernelDevice) : Printable d.vendorLine := by
  unfold vendorLine
  simp only [printable_append]
  exact ⟨⟨⟨⟨⟨by decide, d.vendor.printable⟩, by decide⟩, d.model.printable⟩, by decide⟩,
    d.rev.printable⟩

theorem typeLine_printable (d : KernelDevice) : Printable d.typeLine := by
  unfold typeLine
  simp only [printable_append]
  exact ⟨⟨⟨by decide, d.type.printable⟩, by decide⟩, d.ansi.printable⟩

theorem length_vendorLine (d : KernelDevice) : d.vendorLine.length < 79 := by
  have hvendor := d.vendor.length_le
  have hmodel := d.model.length_le
  have hrev := d.rev.length_le
  have hlength : d.vendorLine.length =
      10 + d.vendor.chars.length + 8 + d.model.chars.length + 6 + d.rev.chars.length := by
    unfold vendorLine
    simp only [List.length_append]
    rfl
  omega

theorem length_typeLine (d : KernelDevice) : d.typeLine.length < 79 := by
  have htype := d.type.length_le
  have hansi := d.ansi.length_le
  have hlength : d.typeLine.length = 10 + d.type.chars.length + 37 + d.ansi.chars.length := by
    unfold typeLine
    simp only [List.length_append]
    rfl
  omega

/-- What stands in front of the last number. -/
def beforeLun (d : KernelDevice) : CString :=
  "Host: ".toList ++ d.host.chars ++ " Channel: ".toList ++ d.channel.chars ++ " Id: ".toList ++
    d.id.chars ++ " Lun: ".toList

theorem length_beforeLun (d : KernelDevice) : d.beforeLun.length ≤ 79 := by
  have hhost := d.host.length_le
  have hchannel := d.channel.length_le
  have hid := d.id.length_le
  have hlength : d.beforeLun.length =
      6 + d.host.chars.length + 10 + d.channel.chars.length + 5 + d.id.chars.length + 6 := by
    unfold beforeLun
    simp only [List.length_append]
    rfl
  omega

/-- A line of numbers that is too long is cut in its last number. -/
theorem drop_hostLine (d : KernelDevice) :
    d.hostLine.drop 79 = d.lun.chars.drop (79 - d.beforeLun.length) := by
  show (d.beforeLun ++ d.lun.chars).drop 79 = _
  rw [List.drop_append, List.drop_eq_nil_of_le d.length_beforeLun, List.nil_append]

/-- The line of numbers, as `fgets` reads it. -/
def hostChunks (d : KernelDevice) : List CString :=
  if d.hostLine.length < 79 then [d.hostLine ++ ['\n']]
  else [d.hostLine.take 79, d.hostLine.drop 79 ++ ['\n']]

def chunks (d : KernelDevice) : List CString :=
  d.hostChunks ++ [d.vendorLine ++ ['\n'], d.typeLine ++ ['\n']]

theorem chunks_hostLine (d : KernelDevice) (rest : CString) :
    Tokens.chunks 79 '\n' (d.hostLine ++ '\n' :: rest) =
      d.hostChunks ++ Tokens.chunks 79 '\n' rest := by
  have hnewline := d.hostLine_printable.newline_not_mem
  unfold hostChunks
  split
  · rename_i hshort
    rw [chunks_line hnewline hshort]
    rfl
  · rename_i hlong
    have hlength : (d.hostLine.take 79).length = 79 := by
      rw [List.length_take]
      omega
    have htake : '\n' ∉ d.hostLine.take 79 := fun hc => hnewline (List.mem_of_mem_take hc)
    have hdrop : '\n' ∉ d.hostLine.drop 79 := fun hc => hnewline (List.mem_of_mem_drop hc)
    have hrest : (d.hostLine.drop 79).length < 79 := by
      rw [drop_hostLine, List.length_drop]
      have hlun := d.lun.length_le
      omega
    have hsplit : d.hostLine ++ '\n' :: rest =
        d.hostLine.take 79 ++ (d.hostLine.drop 79 ++ '\n' :: rest) := by
      rw [← List.append_assoc, List.take_append_drop]
    rw [hsplit, chunks_full htake hlength (List.ne_nil_of_length_pos (by omega)),
      chunks_line hdrop hrest]
    rfl

end KernelDevice

theorem chunks_devices (devices : List KernelDevice) :
    chunks 79 '\n' (devices.flatMap fun d =>
      d.hostLine ++ '\n' :: (d.vendorLine ++ '\n' :: (d.typeLine ++ ['\n']))) =
      devices.flatMap KernelDevice.chunks := by
  induction devices with
  | nil => rfl
  | cons d devices ih =>
    rw [List.flatMap_cons, List.flatMap_cons, ← ih]
    simp only [List.append_assoc, List.cons_append, List.nil_append]
    rw [d.chunks_hostLine, chunks_line d.vendorLine_printable.newline_not_mem d.length_vendorLine,
      chunks_line d.typeLine_printable.newline_not_mem d.length_typeLine, KernelDevice.chunks,
      List.append_assoc]
    rfl

/-- There is no zero in the file. -/
theorem zero_not_mem_kernelListing (devices : List KernelDevice) :
    '\x00' ∉ kernelListing devices := by
  have hline : ∀ {s : CString}, Printable s → '\x00' ∉ s := fun hs hc => (hs _ hc).2 rfl
  have htitle : '\x00' ∉ "Attached devices:\n".toList := by decide
  have hnewline : '\x00' ≠ '\n' := by decide
  unfold kernelListing
  simp only [List.mem_append, List.mem_flatMap, List.mem_cons, List.not_mem_nil,
    or_false, not_or, not_exists, not_and]
  exact ⟨htitle, fun d _ => ⟨hline d.hostLine_printable, hnewline, hline d.vendorLine_printable,
    hnewline, hline d.typeLine_printable, hnewline⟩⟩

theorem scsiLines_kernelListing (devices : List KernelDevice) :
    scsiLines (kernelListing devices) =
      devices.flatMap fun d => d.chunks.map (tokens ' ') := by
  have hstrings : fgets (kernelListing devices) = chunks 79 '\n' (kernelListing devices) := by
    refine (List.map_congr_left fun chunk hchunk => ?_).trans (List.map_id _)
    apply List.takeWhile_eq_self_iff.2
    intro c hc
    rcases mem_of_mem_chunksFrom hchunk hc with hmem | hmem
    · cases hmem
    · exact decide_eq_true fun hzero => zero_not_mem_kernelListing devices (hzero ▸ hmem)
  have htitle : '\n' ∉ "Attached devices:".toList := by decide
  have hlines : chunks 79 '\n' (kernelListing devices) =
      ("Attached devices:".toList ++ ['\n']) :: devices.flatMap KernelDevice.chunks := by
    rw [← chunks_devices, ← chunks_line htitle (by decide)]
    rfl
  rw [scsiLines, hstrings, hlines, List.tail_cons, List.map_flatMap]

/-! ## Reading the file -/

namespace KernelDevice

theorem tokens_hostLine (d : KernelDevice) :
    tokens ' ' (d.hostLine ++ ['\n']) = d.hostFields.flatMap ScsiField.words := by
  have hline : d.hostLine ++ ['\n'] = "Host:".toList ++ ' ' :: (d.host.chars ++
      ' ' :: ("Channel:".toList ++ ' ' :: (d.channel.chars ++ ' ' :: ("Id:".toList ++
        ' ' :: (d.id.chars ++ ' ' :: ("Lun:".toList ++ ' ' :: (d.lun.chars ++ ['\n']))))))) := by
    unfold hostLine
    simp only [List.append_assoc]
    rfl
  rw [hline, hostFields, List.flatMap_cons, List.flatMap_cons, List.flatMap_cons,
    List.flatMap_singleton]
  simp only [tokens_append]
  rfl

theorem tokens_vendorLine (d : KernelDevice) :
    tokens ' ' (d.vendorLine ++ ['\n']) = d.vendorFields.flatMap ScsiField.words := by
  have hline : d.vendorLine ++ ['\n'] = "  Vendor:".toList ++ ' ' :: (d.vendor.chars ++
      ' ' :: ("Model:".toList ++ ' ' :: (d.model.chars ++ ' ' :: ("Rev:".toList ++
        ' ' :: (d.rev.chars ++ ['\n']))))) := by
    unfold vendorLine
    simp only [List.append_assoc]
    rfl
  rw [hline, vendorFields, List.flatMap_cons, List.flatMap_cons, List.flatMap_singleton]
  simp only [tokens_append]
  rfl

theorem tokens_typeLine (d : KernelDevice) :
    tokens ' ' (d.typeLine ++ ['\n']) = [d.typeField, d.revisionField].flatMap ScsiField.words := by
  have hline : d.typeLine ++ ['\n'] = "  Type:  ".toList ++ ' ' :: (d.type.chars ++
      ' ' :: ("               ANSI  SCSI revision:".toList ++ ' ' :: (d.ansi.chars ++ ['\n']))) := by
    unfold typeLine
    simp only [List.append_assoc]
    rfl
  have hwords : tokens ' ' d.type.chars ++ ["ANSI".toList, "SCSI".toList] =
      d.typeWords.head d.typeWords_ne_nil :: d.typeWords.tail :=
    (List.cons_head_tail d.typeWords_ne_nil).symm
  rw [hline]
  simp only [tokens_append]
  show "Type:".toList :: (tokens ' ' d.type.chars ++ (["ANSI".toList, "SCSI".toList] ++
    "revision:".toList :: tokens ' ' (d.ansi.chars ++ ['\n']))) = _
  rw [← List.append_assoc, hwords, List.cons_append, List.flatMap_cons, List.flatMap_singleton]
  rfl

/-- The lines of a device are its fields, if the first of them is not too long. -/
theorem tokens_chunks {d : KernelDevice} (h : d.hostLine.length < 79) :
    d.chunks.map (tokens ' ') = d.entry.lines.map ScsiLine.words := by
  rw [chunks, hostChunks, if_pos h]
  show [_, _, _] = [_, _, _]
  rw [tokens_hostLine, tokens_vendorLine, tokens_typeLine]
  rfl

/-- What is cut off from a line that is too long ends no name. -/
theorem exists_chunk_of_long {d : KernelDevice} (h : ¬ d.hostLine.length < 79) :
    ∃ chunk ∈ d.chunks, ∀ w ∈ tokens ' ' chunk, ¬ EndsName w := by
  refine ⟨d.hostLine.drop 79 ++ ['\n'], ?_, ?_⟩
  · rw [chunks, hostChunks, if_neg h]
    simp
  · rw [drop_hostLine]
    apply words_plain_of_not_mem
    rw [List.mem_append, not_or]
    exact ⟨fun hc => d.lun.solid.colon_not_mem (List.mem_of_mem_drop hc), by decide⟩

end KernelDevice

/-- In every line that is read, a name ends. -/
theorem ScsiLine.exists_endsName (l : ScsiLine) : ∃ w ∈ l.words, EndsName w := by
  obtain ⟨f, fs, hfields⟩ := List.exists_cons_of_ne_nil l.ne_nil
  have hf : f ∈ l.fields := by
    rw [hfields]
    exact List.mem_cons_self
  refine ⟨f.name.last, (l.words_sublist hf).subset ?_, f.name.last_ends⟩
  exact List.mem_append_right _ List.mem_cons_self

theorem hostLine_lt_of_getScsiInfo {devices : List KernelDevice} {info : ScsiInfo}
    (h : getScsiInfo (some (kernelListing devices)) = .ok info) :
    ∀ d ∈ devices, d.hostLine.length < 79 := by
  intro d hd
  by_contra hlong
  obtain ⟨chunk, hchunk, hplain⟩ := KernelDevice.exists_chunk_of_long hlong
  obtain ⟨entries, hlines⟩ := exists_listing_of_getScsiInfo h
  have hmem : tokens ' ' chunk ∈ scsiLines (kernelListing devices) := by
    rw [scsiLines_kernelListing]
    exact List.mem_flatMap.2 ⟨d, hd, List.mem_map_of_mem hchunk⟩
  rw [hlines, listingWords, List.mem_flatMap] at hmem
  obtain ⟨e, -, hmem⟩ := hmem
  obtain ⟨l, -, hl⟩ := List.mem_map.1 hmem
  obtain ⟨w, hw, hends⟩ := l.exists_endsName
  rw [hl] at hw
  exact hplain w hw hends

theorem scsiLines_eq_listingWords {devices : List KernelDevice}
    (h : ∀ d ∈ devices, d.hostLine.length < 79) :
    scsiLines (kernelListing devices) = listingWords (devices.map KernelDevice.entry) := by
  rw [scsiLines_kernelListing, listingWords, List.flatMap_map]
  exact List.flatMap_congr fun d hd => KernelDevice.tokens_chunks (h d hd)

/-- What has been stored for the devices, in their order. -/
theorem reverse_devices (devices : List KernelDevice) :
    ((devices.map KernelDevice.entry).foldl ScsiInfo.add allocScsiInfo).devices.reverse =
      devices.map fun d => d.entry.slot := by
  rw [(foldl_add _ _).1, allocScsiInfo, List.append_nil, List.reverse_reverse, List.map_map,
    Function.comp_def]

theorem ScsiEntry.small_iff (e : ScsiEntry) :
    e.Small ↔ e.slot.capability.length ≤ 16 ∧
      ∀ p ∈ e.slot.capability, p.name.length < 32 ∧ p.value.length < 32 := by
  rw [e.capability_slot, List.length_map, List.forall_mem_map]
  rfl

/-- The names and values of a device are short. -/
theorem KernelDevice.Plain.small {d : KernelDevice} (h : d.Plain) : d.entry.Small := by
  have hproperties := d.found_eq_properties_iff.2 ⟨h.type, h.rev⟩
  have hshort : ∀ {size : Nat} (t : ScsiText size), size < 32 →
      (squeeze ' ' t.chars).length < 32 :=
    fun t hsize => ((length_squeeze_le ' ' _).trans t.length_le).trans_lt hsize
  rw [ScsiEntry.small_iff, KernelDevice.capability_slot, hproperties]
  refine ⟨show 9 ≤ 16 by decide, ?_⟩
  simp only [KernelDevice.properties, List.forall_mem_cons]
  exact ⟨⟨by decide, hshort d.host (by decide)⟩, ⟨by decide, hshort d.channel.text (by decide)⟩,
    ⟨by decide, hshort d.id.text (by decide)⟩, ⟨by decide, hshort d.lun.text (by decide)⟩,
    ⟨by decide, hshort d.vendor (by decide)⟩, ⟨by decide, hshort d.model (by decide)⟩,
    ⟨by decide, hshort d.rev (by decide)⟩, ⟨by decide, hshort d.type (by decide)⟩,
    ⟨by decide, hshort d.ansi (by decide)⟩, List.forall_mem_nil _⟩

/-- What is understood is plain. -/
theorem Parsed.plain {devices : List KernelDevice} (h : Parsed devices) :
    devices ≠ [] ∧ devices.length ≤ 32 ∧ ∀ d ∈ devices, d.Plain := by
  obtain ⟨info, hinfo, hlength, hshown⟩ := h
  have hhost := hostLine_lt_of_getScsiInfo hinfo
  obtain ⟨hroom, -, rfl⟩ :=
    (getScsiInfo_eq_ok_iff (scsiLines_eq_listingWords hhost) info).1 hinfo
  rw [List.length_map] at hroom
  rw [reverse_devices, List.forall₂_map_right_iff, List.forall₂_same] at hshown
  refine ⟨?_, hroom, fun d hd => ?_⟩
  · rintro rfl
    cases hlength
  · obtain ⟨htype, hrev⟩ := d.shownBy_slot_iff.1 (hshown d hd)
    exact ⟨hhost d hd, htype, hrev⟩

theorem parsed_of_plain {devices : List KernelDevice} (hne : devices ≠ [])
    (hroom : devices.length ≤ 32) (h : ∀ d ∈ devices, d.Plain) : Parsed devices := by
  have hlines := scsiLines_eq_listingWords fun d hd => (h d hd).host
  have hsmall : ∀ e ∈ devices.map KernelDevice.entry, e.Small :=
    List.forall_mem_map.2 fun d hd => (h d hd).small
  refine ⟨_, (getScsiInfo_eq_ok_iff hlines _).2 ⟨by rwa [List.length_map], hsmall, rfl⟩, ?_, ?_⟩
  · rw [(foldl_add _ _).2.2, if_neg (by simpa using hne), List.length_map]
    simp [allocScsiInfo]
  · rw [reverse_devices, List.forall₂_map_right_iff, List.forall₂_same]
    exact fun d hd => d.shownBy_slot_iff.2 ⟨(h d hd).type, (h d hd).rev⟩

/-- **The file of the kernel.** For any devices, it is taken for what it says if and only if there
are one to 32 of them and each is plain. -/
theorem parsed_iff (devices : List KernelDevice) :
    Parsed devices ↔ devices ≠ [] ∧ devices.length ≤ 32 ∧ ∀ d ∈ devices, d.Plain := by
  constructor
  · intro h
    exact h.plain
  · intro ⟨hne, hroom, h⟩
    exact parsed_of_plain hne hroom h

/-- A drive whose type is two words. -/
def opticalDrive : KernelDevice where
  hostNo := ⟨"0".toList, by decide, by decide, by decide⟩
  channel := ⟨"00".toList, by decide, by decide, by decide⟩
  id := ⟨"01".toList, by decide, by decide, by decide⟩
  lun := ⟨"00".toList, by decide, by decide, by decide⟩
  vendor := ⟨"SONY    ".toList, by decide, by decide, by decide⟩
  model := ⟨"SMO-F551        ".toList, by decide, by decide, by decide⟩
  rev := ⟨"2.05".toList, by decide, by decide, by decide⟩
  type := ⟨"Optical Device   ".toList, by decide, by decide, by decide⟩
  level := ⟨"02".toList, by decide, by decide, by decide⟩
  ccs := false

/-- Its type is taken to be `Optical`, and `Device` to begin the next name. -/
theorem not_parsed_opticalDrive : ¬ Parsed [opticalDrive] := by
  intro h
  have hplain : opticalDrive.Plain := h.plain.2.2 _ List.mem_cons_self
  exact absurd hplain.type (by decide)

end GlfsNdmp
