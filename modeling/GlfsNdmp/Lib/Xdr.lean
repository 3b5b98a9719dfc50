import Mathlib.Algebra.Group.Int.Defs
import Mathlib.Algebra.Group.Nat.Defs
import Mathlib.Algebra.Order.Ring.Nat
import Mathlib.Data.List.Basic
import Mathlib.Logic.Equiv.Prod

/-!
# XDR

Encodings of RFC 4506: everything takes a multiple of four bytes, integers are big-endian, and
variable-length data starts with its length. A decoder fails when the bytes run out.

A `Codec` puts an encoder and a decoder of one type together. Decoding undoes encoding, whatever
follows in the stream, and takes exactly as many bytes as the value takes encoded. The converse
does not hold byte for byte: a decoder skips padding without looking at it.
-/

namespace Xdr

abbrev Bytes := List UInt8

/-- A decoder returns the value and the rest of the stream, or fails. -/
abbrev Decoder (α : Type) := Bytes → Option (α × Bytes)

/-! ## Words -/

/-- A word of four bytes, the high one first. -/
def putLong (n : Nat) : Bytes :=
  [UInt8.ofNat (n / 2 ^ 24), UInt8.ofNat (n / 2 ^ 16), UInt8.ofNat (n / 2 ^ 8), UInt8.ofNat n]

def getLong : Decoder Nat
  | b₃ :: b₂ :: b₁ :: b₀ :: rest =>
    some (b₃.toNat * 2 ^ 24 + b₂.toNat * 2 ^ 16 + b₁.toNat * 2 ^ 8 + b₀.toNat, rest)
  | _ => none

@[simp] theorem length_putLong (n : Nat) : (putLong n).length = 4 := rfl

/-- Of a longer number, the low word is taken. -/
theorem putLong_mod (n : Nat) : putLong (n % 2 ^ 32) = putLong n := by
  have hbyte (k : Nat) (hk : n % 2 ^ 32 / k % 2 ^ 8 = n / k % 2 ^ 8) :
      UInt8.ofNat (n % 2 ^ 32 / k) = UInt8.ofNat (n / k) := by
    apply UInt8.toNat_inj.1
    rw [UInt8.toNat_ofNat', UInt8.toNat_ofNat', hk]
  have hlow := hbyte 1 (by omega)
  rw [Nat.div_one, Nat.div_one] at hlow
  rw [putLong, putLong, hbyte (2 ^ 24) (by omega), hbyte (2 ^ 16) (by omega),
    hbyte (2 ^ 8) (by omega), hlow]

theorem getLong_putLong (n : Nat) (rest : Bytes) :
    getLong (putLong n ++ rest) = some (n % 2 ^ 32, rest) := by
  have hword : n / 2 ^ 24 % 2 ^ 8 * 2 ^ 24 + n / 2 ^ 16 % 2 ^ 8 * 2 ^ 16 +
      n / 2 ^ 8 % 2 ^ 8 * 2 ^ 8 + n % 2 ^ 8 = n % 2 ^ 32 := by omega
  simp only [putLong, List.cons_append, List.nil_append, getLong, UInt8.toNat_ofNat', hword]

/-- A word is there if and only if four bytes are. -/
theorem getLong_eq_none {bytes : Bytes} : getLong bytes = none ↔ bytes.length < 4 := by
  rcases bytes with _ | ⟨a, _ | ⟨b, _ | ⟨c, _ | ⟨d, rest⟩⟩⟩⟩ <;> simp [getLong]

theorem getLong_lt {bytes rest : Bytes} {n : Nat} (h : getLong bytes = some (n, rest)) :
    n < 2 ^ 32 := by
  rcases bytes with _ | ⟨a, _ | ⟨b, _ | ⟨c, _ | ⟨d, bytes⟩⟩⟩⟩ <;>
    simp only [getLong, Option.some.injEq, Prod.mk.injEq, reduceCtorEq] at h
  have ha := a.toNat_lt
  have hb := b.toNat_lt
  have hc := c.toNat_lt
  have hd := d.toNat_lt
  omega

theorem getLong_rest {bytes rest : Bytes} {n : Nat} (h : getLong bytes = some (n, rest)) :
    ∃ used : Bytes, bytes = used ++ rest ∧ used.length = 4 := by
  rcases bytes with _ | ⟨a, _ | ⟨b, _ | ⟨c, _ | ⟨d, bytes⟩⟩⟩⟩ <;>
    simp only [getLong, Option.some.injEq, Prod.mk.injEq, reduceCtorEq] at h
  exact ⟨[a, b, c, d], by rw [← h.2]; rfl, rfl⟩

theorem getLong_cases (bytes : Bytes) :
    bytes.length < 4 ∧ getLong bytes = none ∨
      4 ≤ bytes.length ∧ ∃ n, getLong bytes = some (n, bytes.drop 4) := by
  rcases bytes with _ | ⟨a, _ | ⟨b, _ | ⟨c, _ | ⟨d, rest⟩⟩⟩⟩ <;> simp [getLong]

/-- A structure whose fields are all words, decoded into a variable: the fields are set one after
the other, until a word is missing. Whether all have been set, and the rest of the stream. -/
def fill {α : Type} : List (Nat → α → α) → α → Bytes → α × Bool × Bytes
  | [], a, bytes => (a, true, bytes)
  | field :: fields, a, bytes =>
    match getLong bytes with
    | none => (a, false, bytes)
    | some (n, rest) => fill fields (field n a) rest

theorem fill_of_none {α : Type} (field : Nat → α → α) (fields : List (Nat → α → α)) (a : α)
    {bytes : Bytes} (h : getLong bytes = none) :
    fill (field :: fields) a bytes = (a, false, bytes) := by
  rw [fill, h]

theorem fill_of_some {α : Type} (field : Nat → α → α) (fields : List (Nat → α → α)) (a : α)
    {bytes rest : Bytes} {n : Nat} (h : getLong bytes = some (n, rest)) :
    fill (field :: fields) a bytes = fill fields (field n a) rest := by
  rw [fill, h]

/-- Less than a word is left where not all fields have been set. -/
theorem length_of_fill_eq_false {α : Type} {fields : List (Nat → α → α)} {a : α} {bytes : Bytes}
    (h : (fill fields a bytes).2.1 = false) : (fill fields a bytes).2.2.length < 4 := by
  induction fields generalizing a bytes with
  | nil => cases h
  | cons field fields ih =>
    rcases getLong_cases bytes with ⟨hlength, hnone⟩ | ⟨-, n, hsome⟩
    · rw [fill_of_none _ _ _ hnone]
      exact hlength
    · rw [fill_of_some _ _ _ hsome] at h ⊢
      exact ih h

/-- Enough words: all fields are set. -/
theorem fill_of_le {α : Type} (fields : List (Nat → α → α)) (a : α) {bytes : Bytes}
    (h : 4 * fields.length ≤ bytes.length) :
    (fill fields a bytes).2 = (true, bytes.drop (4 * fields.length)) := by
  induction fields generalizing a bytes with
  | nil => rfl
  | cons field fields ih =>
    rw [List.length_cons] at h
    rcases getLong_cases bytes with ⟨hlength, -⟩ | ⟨-, n, hsome⟩
    · omega
    · rw [fill_of_some _ _ _ hsome, ih _ (by rw [List.length_drop]; omega), List.drop_drop,
        List.length_cons, Nat.mul_succ, Nat.add_comm]

/-- Too few: not all are. -/
theorem fill_of_lt {α : Type} (fields : List (Nat → α → α)) (a : α) {bytes : Bytes}
    (h : bytes.length < 4 * fields.length) : (fill fields a bytes).2.1 = false := by
  induction fields generalizing a bytes with
  | nil => cases h
  | cons field fields ih =>
    rw [List.length_cons] at h
    rcases getLong_cases bytes with ⟨-, hnone⟩ | ⟨hlength, n, hsome⟩
    · rw [fill_of_none _ _ _ hnone]
    · rw [fill_of_some _ _ _ hsome]
      exact ih _ (by rw [List.length_drop]; omega)

/-- With enough words for the first fields, the others are filled from what is left. -/
theorem fill_append_of_le {α : Type} (fields fields' : List (Nat → α → α)) (a : α) {bytes : Bytes}
    (h : 4 * fields.length ≤ bytes.length) :
    fill (fields ++ fields') a bytes =
      fill fields' (fill fields a bytes).1 (bytes.drop (4 * fields.length)) := by
  induction fields generalizing a bytes with
  | nil => rfl
  | cons field fields ih =>
    rw [List.length_cons] at h
    rcases getLong_cases bytes with ⟨hlength, -⟩ | ⟨-, n, hsome⟩
    · omega
    · rw [List.cons_append, fill_of_some _ _ _ hsome, fill_of_some _ _ _ hsome,
        ih _ (by rw [List.length_drop]; omega), List.drop_drop, List.length_cons, Nat.mul_succ,
        Nat.add_comm]

/-- With too few, the others are not looked at. -/
theorem fill_append_of_lt {α : Type} (fields fields' : List (Nat → α → α)) (a : α) {bytes : Bytes}
    (h : bytes.length < 4 * fields.length) :
    fill (fields ++ fields') a bytes = fill fields a bytes := by
  induction fields generalizing a bytes with
  | nil => cases h
  | cons field fields ih =>
    rw [List.length_cons] at h
    rcases getLong_cases bytes with ⟨-, hnone⟩ | ⟨hlength, n, hsome⟩
    · rw [List.cons_append, fill_of_none _ _ _ hnone, fill_of_none _ _ _ hnone]
    · rw [List.cons_append, fill_of_some _ _ _ hsome, fill_of_some _ _ _ hsome]
      exact ih _ (by rw [List.length_drop]; omega)

/-- What no field changes is as before. -/
theorem fill_frame {α β : Type} (p : α → β) {fields : List (Nat → α → α)}
    (h : ∀ field ∈ fields, ∀ n a, p (field n a) = p a) (a : α) (bytes : Bytes) :
    p (fill fields a bytes).1 = p a := by
  induction fields generalizing a bytes with
  | nil => rfl
  | cons field fields ih =>
    rw [List.forall_mem_cons] at h
    rcases getLong_cases bytes with ⟨-, hnone⟩ | ⟨-, n, hsome⟩
    · rw [fill_of_none _ _ _ hnone]
    · rw [fill_of_some _ _ _ hsome, ih h.2, h.1]

theorem length_fill_le {α : Type} (fields : List (Nat → α → α)) (a : α) (bytes : Bytes) :
    (fill fields a bytes).2.2.length ≤ bytes.length := by
  induction fields generalizing a bytes with
  | nil => exact Nat.le_refl _
  | cons field fields ih =>
    rcases getLong_cases bytes with ⟨-, hnone⟩ | ⟨-, n, hsome⟩
    · exact Nat.le_of_eq (congrArg (·.2.2.length) (fill_of_none field fields a hnone))
    · rw [fill_of_some _ _ _ hsome]
      have hrest := ih (field n a) (bytes.drop 4)
      rw [List.length_drop] at hrest
      omega

/-! ## Codecs -/

/-- An encoder and a decoder of the same values. -/
structure Codec (α : Type) where
  /-- The values that can be encoded. -/
  Valid : α → Prop
  encode : α → Bytes
  decode : Decoder α
  decode_encode : ∀ {a}, Valid a → ∀ rest, decode (encode a ++ rest) = some (a, rest)
  valid_of_decode : ∀ {bytes a rest}, decode bytes = some (a, rest) → Valid a
  rest_of_decode : ∀ {bytes a rest}, decode bytes = some (a, rest) →
    ∃ used : Bytes, bytes = used ++ rest ∧ used.length = (encode a).length

namespace Codec

variable {α β : Type}

/-- Nothing. -/
def void : Codec Unit where
  Valid _ := True
  encode _ := []
  decode bytes := some ((), bytes)
  decode_encode _ _ := rfl
  valid_of_decode _ := trivial
  rest_of_decode h := by
    cases h
    exact ⟨[], rfl, rfl⟩

/-- `u_long`. -/
def ulong : Codec Nat where
  Valid n := n < 2 ^ 32
  encode := putLong
  decode := getLong
  decode_encode h rest := by rw [getLong_putLong, Nat.mod_eq_of_lt h]
  valid_of_decode := getLong_lt
  rest_of_decode := getLong_rest

/-- A word read as something smaller or signed. -/
def ofLong (ofNat : Nat → α) (toNat : α → Nat) (Valid : α → Prop)
    (ofNat_toNat : ∀ {a}, Valid a → ofNat (toNat a % 2 ^ 32) = a)
    (valid_ofNat : ∀ {n}, n < 2 ^ 32 → Valid (ofNat n)) : Codec α where
  Valid := Valid
  encode a := putLong (toNat a)
  decode bytes := (getLong bytes).map fun r => (ofNat r.1, r.2)
  decode_encode h rest := by
    rw [getLong_putLong]
    show some (ofNat _, rest) = _
    rw [ofNat_toNat h]
  valid_of_decode h := by
    obtain ⟨⟨n, rest⟩, hlong, heq⟩ := Option.map_eq_some_iff.1 h
    cases heq
    exact valid_ofNat (getLong_lt hlong)
  rest_of_decode h := by
    obtain ⟨⟨n, rest⟩, hlong, heq⟩ := Option.map_eq_some_iff.1 h
    cases heq
    exact getLong_rest hlong

/-- `int`, and enumerations: any word is accepted. -/
def int : Codec Int :=
  ofLong (fun n => (n : Int).bmod (2 ^ 32)) (fun i => (i % 2 ^ 32).toNat)
    (fun i => -2 ^ 31 ≤ i ∧ i < 2 ^ 31)
    (by
      intro i hi
      have hmod : (((i % 2 ^ 32).toNat % 2 ^ 32 : Nat) : Int) = i % 2 ^ 32 := by omega
      rw [hmod]
      show (i % ((2 ^ 32 : Nat) : Int)).bmod (2 ^ 32) = i
      rw [Int.emod_bmod]
      exact Int.bmod_eq_of_le_mul_two (by omega) (by omega))
    (by
      intro n _
      have hle := @Int.le_bmod n (2 ^ 32) (by decide)
      have hlt := @Int.bmod_lt n (2 ^ 32) (by decide)
      omega)

theorem int_decode {bytes rest : Bytes} {n : Nat} (h : getLong bytes = some (n, rest)) :
    int.decode bytes = some ((n : Int).bmod (2 ^ 32), rest) := by
  show (getLong bytes).map _ = _
  rw [h]
  rfl

theorem int_decode_eq_none {bytes : Bytes} : int.decode bytes = none ↔ bytes.length < 4 := by
  show (getLong bytes).map _ = none ↔ _
  rw [Option.map_eq_none_iff, getLong_eq_none]

/-- `u_short`: a word as well, of which the decoder keeps the low half. -/
def ushort : Codec Nat :=
  ofLong (· % 2 ^ 16) id (· < 2 ^ 16)
    (by
      intro n hn
      show n % 2 ^ 32 % 2 ^ 16 = n
      omega)
    (by
      intro n _
      exact Nat.mod_lt _ (by decide))

/-- One after the other. -/
def prod (c : Codec α) (d : Codec β) : Codec (α × β) where
  Valid p := c.Valid p.1 ∧ d.Valid p.2
  encode p := c.encode p.1 ++ d.encode p.2
  decode bytes := do
    let (a, bytes) ← c.decode bytes
    let (b, bytes) ← d.decode bytes
    some ((a, b), bytes)
  decode_encode h rest := by
    rw [List.append_assoc, c.decode_encode h.1]
    simp [d.decode_encode h.2]
  valid_of_decode h := by
    simp only [Option.bind_eq_bind, Option.bind_eq_some_iff, Option.some_inj, Prod.exists] at h
    obtain ⟨a, bytes₁, ha, b, bytes₂, hb, heq⟩ := h
    cases heq
    exact ⟨c.valid_of_decode ha, d.valid_of_decode hb⟩
  rest_of_decode h := by
    simp only [Option.bind_eq_bind, Option.bind_eq_some_iff, Option.some_inj, Prod.exists] at h
    obtain ⟨a, bytes₁, ha, b, bytes₂, hb, heq⟩ := h
    cases heq
    obtain ⟨used, rfl, hused⟩ := c.rest_of_decode ha
    obtain ⟨used', rfl, hused'⟩ := d.rest_of_decode hb
    exact ⟨used ++ used', (List.append_assoc ..).symm, by simp [hused, hused']⟩

theorem prod_decode {c : Codec α} {d : Codec β} {bytes bytes₁ bytes₂ : Bytes} {a : α} {b : β}
    (ha : c.decode bytes = some (a, bytes₁)) (hb : d.decode bytes₁ = some (b, bytes₂)) :
    (c.prod d).decode bytes = some ((a, b), bytes₂) := by
  show (c.decode bytes).bind _ = _
  rw [ha]
  show (d.decode bytes₁).bind _ = _
  rw [hb]
  rfl

/-- The same values under other names. -/
def congr (e : α ≃ β) (c : Codec α) : Codec β where
  Valid b := c.Valid (e.symm b)
  encode b := c.encode (e.symm b)
  decode bytes := (c.decode bytes).map fun r => (e r.1, r.2)
  decode_encode h rest := by
    rw [c.decode_encode h]
    show some (e _, rest) = _
    rw [e.apply_symm_apply]
  valid_of_decode h := by
    obtain ⟨⟨a, rest⟩, ha, heq⟩ := Option.map_eq_some_iff.1 h
    cases heq
    rw [e.symm_apply_apply]
    exact c.valid_of_decode ha
  rest_of_decode h := by
    obtain ⟨⟨a, rest⟩, ha, heq⟩ := Option.map_eq_some_iff.1 h
    cases heq
    rw [e.symm_apply_apply]
    exact c.rest_of_decode ha

theorem congr_decode (e : α ≃ β) {c : Codec α} {bytes rest : Bytes} {a : α}
    (h : c.decode bytes = some (a, rest)) : (c.congr e).decode bytes = some (e a, rest) := by
  show (c.decode bytes).map _ = _
  rw [h]
  rfl

/-- Values that another type represents, some of them perhaps not exactly. -/
def retract (c : Codec α) (f : α → β) (g : β → α) (hgf : ∀ a, g (f a) = a) : Codec β where
  Valid b := c.Valid (g b) ∧ f (g b) = b
  encode b := c.encode (g b)
  decode bytes := (c.decode bytes).map fun r => (f r.1, r.2)
  decode_encode h rest := by
    rw [c.decode_encode h.1]
    show some (f _, rest) = _
    rw [h.2]
  valid_of_decode h := by
    obtain ⟨⟨a, rest⟩, ha, heq⟩ := Option.map_eq_some_iff.1 h
    cases heq
    rw [hgf]
    exact ⟨c.valid_of_decode ha, rfl⟩
  rest_of_decode h := by
    obtain ⟨⟨a, rest⟩, ha, heq⟩ := Option.map_eq_some_iff.1 h
    cases heq
    rw [hgf]
    exact c.rest_of_decode ha

/-! ### Variable length -/

/-- The zeros that fill up the last word. -/
def padding (n : Nat) : Nat := (4 - n % 4) % 4

/-- A length with its padding. -/
def padded (n : Nat) : Nat := n + padding n

theorem padded_mono {n k : Nat} (h : n ≤ k) : padded n ≤ padded k := by
  unfold padded padding
  omega

/-- `opaque<>` and `string<>`: the length, the bytes, and padding the decoder skips. -/
def string : Codec Bytes where
  Valid s := s.length < 2 ^ 32
  encode s := putLong s.length ++ s ++ List.replicate (padding s.length) 0
  decode bytes := do
    let (n, bytes) ← getLong bytes
    if n + padding n ≤ bytes.length then some (bytes.take n, bytes.drop (n + padding n)) else none
  decode_encode {s} h rest := by
    have hlength : s.length + padding s.length ≤
        (s ++ (List.replicate (padding s.length) 0 ++ rest)).length := by
      simp only [List.length_append, List.length_replicate]
      omega
    have htake : (s ++ (List.replicate (padding s.length) 0 ++ rest)).take s.length = s :=
      List.take_left
    have hdrop : (s ++ (List.replicate (padding s.length) 0 ++ rest)).drop
        (s.length + padding s.length) = rest := by
      rw [List.drop_append, List.drop_eq_nil_of_le (Nat.le_add_right _ _), List.nil_append,
        Nat.add_sub_cancel_left]
      exact List.drop_left' List.length_replicate
    rw [List.append_assoc, List.append_assoc, getLong_putLong, Nat.mod_eq_of_lt h]
    simp only [Option.bind_eq_bind, Option.bind_some]
    rw [if_pos hlength, htake, hdrop]
  valid_of_decode h := by
    simp only [Option.bind_eq_bind, Option.bind_eq_some_iff, Prod.exists] at h
    obtain ⟨n, bytes, hlong, h⟩ := h
    split at h
    · cases h
      exact Nat.lt_of_le_of_lt (List.length_take_le _ _) (getLong_lt hlong)
    · cases h
  rest_of_decode h := by
    simp only [Option.bind_eq_bind, Option.bind_eq_some_iff, Prod.exists] at h
    obtain ⟨n, bytes, hlong, h⟩ := h
    obtain ⟨used, rfl, hused⟩ := getLong_rest hlong
    split at h
    · rename_i hle
      cases h
      have hn : (bytes.take n).length = n := List.length_take_of_le (by omega)
      refine ⟨used ++ bytes.take (n + padding n), ?_, ?_⟩
      · rw [List.append_assoc, List.take_append_drop]
      · simp only [List.length_append, List.length_replicate, length_putLong, hn, hused,
          List.length_take_of_le hle]
        omega
    · cases h

/-- So many elements, one after the other. -/
def decodeMany (c : Codec α) : Nat → Decoder (List α)
  | 0, bytes => some ([], bytes)
  | n + 1, bytes => do
    let (a, bytes) ← c.decode bytes
    let (as, bytes) ← c.decodeMany n bytes
    some (a :: as, bytes)

theorem decodeMany_encode (c : Codec α) {as : List α} (h : ∀ a ∈ as, c.Valid a) (rest : Bytes) :
    c.decodeMany as.length (as.flatMap c.encode ++ rest) = some (as, rest) := by
  induction as with
  | nil => rfl
  | cons a as ih =>
    rw [List.forall_mem_cons] at h
    rw [List.flatMap_cons, List.append_assoc, List.length_cons, decodeMany, c.decode_encode h.1]
    simp [ih h.2]

theorem of_decodeMany (c : Codec α) {n : Nat} {bytes rest : Bytes} {as : List α}
    (h : c.decodeMany n bytes = some (as, rest)) :
    as.length = n ∧ (∀ a ∈ as, c.Valid a) ∧
      ∃ used : Bytes, bytes = used ++ rest ∧ used.length = (as.flatMap c.encode).length := by
  induction n generalizing bytes as with
  | zero =>
    cases h
    exact ⟨rfl, by simp, [], rfl, rfl⟩
  | succ n ih =>
    simp only [decodeMany, Option.bind_eq_bind, Option.bind_eq_some_iff, Option.some_inj,
      Prod.exists] at h
    obtain ⟨a, bytes₁, ha, as', bytes₂, has, heq⟩ := h
    cases heq
    obtain ⟨hlength, hvalid, used', rfl, hused'⟩ := ih has
    obtain ⟨used, rfl, hused⟩ := c.rest_of_decode ha
    refine ⟨by simp [hlength], ?_, used ++ used', (List.append_assoc ..).symm, ?_⟩
    · rw [List.forall_mem_cons]
      exact ⟨c.valid_of_decode ha, hvalid⟩
    · simp [hused, hused']

/-- `x<>`: the number of the elements, and the elements. -/
def array (c : Codec α) : Codec (List α) where
  Valid as := as.length < 2 ^ 32 ∧ ∀ a ∈ as, c.Valid a
  encode as := putLong as.length ++ as.flatMap c.encode
  decode bytes := do
    let (n, bytes) ← getLong bytes
    c.decodeMany n bytes
  decode_encode h rest := by
    rw [List.append_assoc, getLong_putLong, Nat.mod_eq_of_lt h.1]
    exact c.decodeMany_encode h.2 rest
  valid_of_decode h := by
    simp only [Option.bind_eq_bind, Option.bind_eq_some_iff, Prod.exists] at h
    obtain ⟨n, bytes, hlong, h⟩ := h
    obtain ⟨hlength, hvalid, -⟩ := c.of_decodeMany h
    exact ⟨hlength ▸ getLong_lt hlong, hvalid⟩
  rest_of_decode h := by
    simp only [Option.bind_eq_bind, Option.bind_eq_some_iff, Prod.exists] at h
    obtain ⟨n, bytes, hlong, h⟩ := h
    obtain ⟨used, rfl, hused⟩ := getLong_rest hlong
    obtain ⟨-, -, used', rfl, hused'⟩ := c.of_decodeMany h
    exact ⟨used ++ used', (List.append_assoc ..).symm, by simp [hused, hused']⟩

/-! ### Unions -/

/-- Values of one type among those of another. -/
def embed (c : Codec α) (f : α → β) (g : β → Option α) (hgf : ∀ a, g (f a) = some a) : Codec β where
  Valid b := ∃ a, c.Valid a ∧ f a = b
  encode b := ((g b).map c.encode).getD []
  decode bytes := (c.decode bytes).map fun r => (f r.1, r.2)
  decode_encode h rest := by
    obtain ⟨a, ha, rfl⟩ := h
    rw [hgf]
    show (c.decode (c.encode a ++ rest)).map _ = _
    rw [c.decode_encode ha]
    rfl
  valid_of_decode h := by
    obtain ⟨⟨a, rest⟩, ha, heq⟩ := Option.map_eq_some_iff.1 h
    cases heq
    exact ⟨a, c.valid_of_decode ha, rfl⟩
  rest_of_decode h := by
    obtain ⟨⟨a, rest⟩, ha, heq⟩ := Option.map_eq_some_iff.1 h
    cases heq
    rw [hgf]
    exact c.rest_of_decode ha

/-- A discriminated union: the discriminant, and the arm it selects. -/
def union (tag : β → Int) (arm : Int → Option (Codec β))
    (htag : ∀ {t c}, arm t = some c → ∀ {b}, c.Valid b → tag b = t) : Codec β where
  Valid b := int.Valid (tag b) ∧ ∃ c, arm (tag b) = some c ∧ c.Valid b
  encode b := int.encode (tag b) ++ ((arm (tag b)).map fun c => c.encode b).getD []
  decode bytes := do
    let (t, bytes) ← int.decode bytes
    let c ← arm t
    c.decode bytes
  decode_encode h rest := by
    obtain ⟨hint, c, harm, hvalid⟩ := h
    rw [List.append_assoc, int.decode_encode hint]
    simp only [Option.bind_eq_bind, Option.bind_some, harm, Option.map_some, Option.getD_some]
    exact c.decode_encode hvalid rest
  valid_of_decode h := by
    simp only [Option.bind_eq_bind, Option.bind_eq_some_iff, Prod.exists] at h
    obtain ⟨t, bytes, hint, c, harm, h⟩ := h
    have hvalid := c.valid_of_decode h
    rw [htag harm hvalid]
    exact ⟨int.valid_of_decode hint, c, harm, hvalid⟩
  rest_of_decode h := by
    simp only [Option.bind_eq_bind, Option.bind_eq_some_iff, Prod.exists] at h
    obtain ⟨t, bytes, hint, c, harm, h⟩ := h
    obtain ⟨used, rfl, hused⟩ := int.rest_of_decode hint
    obtain ⟨used', rfl, hused'⟩ := c.rest_of_decode h
    rw [htag harm (c.valid_of_decode h), harm]
    exact ⟨used ++ used', (List.append_assoc ..).symm, by simp [hused, hused']⟩

/-- What is decoded takes no more bytes than there are. -/
theorem length_of_decode (c : Codec α) {bytes rest : Bytes} {a : α}
    (h : c.decode bytes = some (a, rest)) :
    bytes.length = (c.encode a).length + rest.length := by
  obtain ⟨used, rfl, hused⟩ := c.rest_of_decode h
  rw [List.length_append, hused]

theorem length_prod (c : Codec α) (d : Codec β) (p : α × β) :
    ((c.prod d).encode p).length = (c.encode p.1).length + (d.encode p.2).length :=
  List.length_append

/-- The length, the bytes, and the padding. -/
theorem length_string (s : Bytes) :
    (string.encode s).length = 4 + padded s.length := by
  show (putLong _ ++ s ++ List.replicate _ 0).length = _
  rw [List.length_append, List.length_append, List.length_replicate, length_putLong, padded,
    Nat.add_assoc]

/-- The number of the elements, and the elements. -/
theorem length_array (c : Codec α) (as : List α) :
    (c.array.encode as).length = 4 + (as.map fun a => (c.encode a).length).sum := by
  show (putLong _ ++ as.flatMap c.encode).length = _
  rw [List.length_append, List.length_flatMap, length_putLong]

/-- What is too short for every value cannot be decoded. -/
theorem decode_eq_none (c : Codec α) {n : Nat} (hn : ∀ a, n ≤ (c.encode a).length) {bytes : Bytes}
    (h : bytes.length < n) : c.decode bytes = none := by
  rw [Option.eq_none_iff_forall_not_mem]
  intro r hdecode
  have hlength := c.length_of_decode hdecode
  have hle := hn r.1
  omega

theorem four_le_length_string (s : Bytes) : 4 ≤ (string.encode s).length := by
  show 4 ≤ (putLong _ ++ _ ++ _).length
  rw [List.append_assoc, List.length_append]
  exact Nat.le_add_right _ _

theorem four_le_length_array (c : Codec α) (as : List α) : 4 ≤ (c.array.encode as).length := by
  show 4 ≤ (putLong _ ++ _).length
  rw [List.length_append]
  exact Nat.le_add_right _ _

theorem le_length_prod {c : Codec α} {n : Nat} (hn : ∀ a, n ≤ (c.encode a).length) (d : Codec β)
    (p : α × β) : n ≤ ((c.prod d).encode p).length := by
  show n ≤ (c.encode p.1 ++ d.encode p.2).length
  rw [List.length_append]
  exact Nat.le_trans (hn p.1) (Nat.le_add_right _ _)

end Codec

/-! ## The end of a stream -/

/-- An encoder and a decoder of what comes last. -/
structure Tail (α : Type) where
  Valid : α → Prop
  encode : α → Bytes
  decode : Decoder α
  decode_encode : ∀ {a}, Valid a → decode (encode a) = some (a, [])
  rest_of_decode : ∀ {bytes a rest}, decode bytes = some (a, rest) →
    ∃ used : Bytes, bytes = used ++ rest ∧ used.length = (encode a).length

namespace Tail

variable {α : Type}

/-- Whatever bytes there are. -/
def raw : Tail Bytes where
  Valid _ := True
  encode := id
  decode bytes := some (bytes, [])
  decode_encode _ := rfl
  rest_of_decode h := by
    cases h
    exact ⟨_, (List.append_nil _).symm, rfl⟩

def ofCodec (c : Codec α) : Tail α where
  Valid := c.Valid
  encode := c.encode
  decode := c.decode
  decode_encode {a} h := by rw [← List.append_nil (c.encode a), c.decode_encode h]
  rest_of_decode := c.rest_of_decode

theorem length_of_decode (c : Tail α) {bytes rest : Bytes} {a : α}
    (h : c.decode bytes = some (a, rest)) :
    bytes.length = (c.encode a).length + rest.length := by
  obtain ⟨used, rfl, hused⟩ := c.rest_of_decode h
  rw [List.length_append, hused]

end Tail

end Xdr
