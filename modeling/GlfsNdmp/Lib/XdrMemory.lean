import GlfsNdmp.Lib.Xdr

/-!
# Encoding into memory

`xdr_sizeof` runs an encoder on a stream that only counts, and `xdrmem_create` makes one that writes
into memory until its room is used up. Both take what the variables hold: an encoder that meets a
null string or an unknown discriminant refuses, and one that meets a pointer to nowhere is lost.
-/

namespace Xdr

/-! ## Counting -/

/-- What an encoder does on a stream that counts. -/
inductive Measured
  /-- It has put so many bytes. -/
  | size (n : Nat)
  /-- It has returned `FALSE`. -/
  | refused
  /-- It has read memory that is not there. -/
  | lost

namespace Measured

/-- A word. -/
def word : Measured := .size 4

/-- One field after the other, as long as the encoder goes on. -/
def andThen : Measured → Measured → Measured
  | .size n, .size k => .size (n + k)
  | .size _, m => m
  | m, _ => m

/-- `xdr_sizeof`: the counter has 32 bits, and is not looked at if the encoder refuses. -/
def xdrSizeof : Measured → Option Nat
  | .size n => some (n % 2 ^ 32)
  | .refused => some 0
  | .lost => none

theorem xdrSizeof_lt {m : Measured} {n : Nat} (h : m.xdrSizeof = some n) : n < 2 ^ 32 := by
  cases m with
  | size k =>
    cases h
    exact Nat.mod_lt _ (Nat.two_pow_pos 32)
  | refused =>
    cases h
    exact Nat.two_pow_pos 32
  | lost => cases h

end Measured

/-! ## Variables that were not set -/

/-- What a pointer leads to. -/
inductive Pointer (α : Type)
  | null
  | wild
  | target (a : α)

/-- `xdr_string`, for a string of `length` bytes. -/
def Pointer.measure {α : Type} (length : α → Nat) : Pointer α → Measured
  | .null => .refused
  | .wild => .lost
  | .target a => Measured.word.andThen (.size (Codec.padded (length a % 2 ^ 32)))

/-- The length and the pointer of an array, and what is behind the pointer, where it can be read. -/
structure MemoryArray (α : Type) where
  len : UInt32
  val : Nat → Option α

/-- `xdr_array`: an array that cannot be that long is refused. -/
def MemoryArray.measure {α : Type} (elsize : Nat) (element : α → Measured) (a : MemoryArray α) :
    Measured :=
  if (2 ^ 32 - 1) / elsize < a.len.toNat then .refused
  else (List.range a.len.toNat).foldl
    (fun m i => m.andThen ((a.val i).elim .lost element)) Measured.word

/-! ## Memory -/

/-- Bytes put at an offset. -/
def store (memory : Nat → UInt8) (offset : Nat) (bytes : Bytes) : Nat → UInt8 := fun i =>
  if i < offset then memory i else (bytes[i - offset]?).getD (memory i)

/-- The first bytes. -/
def load (memory : Nat → UInt8) (n : Nat) : Bytes := (List.range n).map memory

@[simp] theorem length_load (memory : Nat → UInt8) (n : Nat) : (load memory n).length = n := by
  simp [load]

theorem store_of_lt {memory : Nat → UInt8} {offset : Nat} {bytes : Bytes} {i : Nat}
    (h : i < offset) : store memory offset bytes i = memory i := if_pos h

theorem store_of_le {memory : Nat → UInt8} {offset : Nat} {bytes : Bytes} {i : Nat}
    (h : offset + bytes.length ≤ i) : store memory offset bytes i = memory i := by
  rw [store, if_neg (by omega), List.getElem?_eq_none (by omega)]
  rfl

/-- What was stored behind what is there already is read after it. -/
theorem load_store (memory : Nat → UInt8) (offset : Nat) (bytes : Bytes) :
    load (store memory offset bytes) (offset + bytes.length) = load memory offset ++ bytes := by
  apply List.ext_getElem
  · simp
  · intro i hi hi'
    rw [length_load] at hi
    by_cases hlt : i < offset
    · rw [List.getElem_append_left (by simpa using hlt)]
      simp [load, store_of_lt hlt]
    · rw [List.getElem_append_right (by simpa using hlt)]
      simp only [load, List.getElem_map, List.getElem_range, List.length_map, List.length_range]
      rw [store, if_neg hlt, List.getElem?_eq_getElem (by omega)]
      rfl

/-- `xdrmem_create(.., XDR_ENCODE)`: where the stream is in the memory, and its room. -/
structure MemStream where
  memory : Nat → UInt8
  offset : Nat
  handy : Nat

namespace MemStream

/-- `x_putlong` and `x_putbytes`: what does not fit is not put. -/
def put (s : MemStream) (bytes : Bytes) : MemStream × Bool :=
  if bytes.length ≤ s.handy
  then (⟨store s.memory s.offset bytes, s.offset + bytes.length, s.handy - bytes.length⟩, true)
  else (s, false)

/-- The pieces of an encoding, up to the first that does not fit. -/
def putAll (s : MemStream) : List Bytes → MemStream × Bool
  | [] => (s, true)
  | piece :: pieces =>
    match s.put piece with
    | (s, true) => s.putAll pieces
    | (s, false) => (s, false)

theorem put_of_le {s : MemStream} {bytes : Bytes} (h : bytes.length ≤ s.handy) :
    s.put bytes =
      (⟨store s.memory s.offset bytes, s.offset + bytes.length, s.handy - bytes.length⟩, true) :=
  if_pos h

/-- With room for all pieces, they are read as they were put. -/
theorem putAll_of_le {s : MemStream} {pieces : List Bytes} (h : pieces.flatten.length ≤ s.handy) :
    ∃ memory, s.putAll pieces =
        (⟨memory, s.offset + pieces.flatten.length, s.handy - pieces.flatten.length⟩, true) ∧
      load memory (s.offset + pieces.flatten.length) = load s.memory s.offset ++ pieces.flatten := by
  induction pieces generalizing s with
  | nil => exact ⟨s.memory, rfl, by simp⟩
  | cons piece pieces ih =>
    rw [List.flatten_cons, List.length_append] at h
    have hpiece : piece.length ≤ s.handy := by omega
    have hrest : pieces.flatten.length ≤ s.handy - piece.length := by omega
    obtain ⟨memory, hput, hload⟩ := @ih ⟨store s.memory s.offset piece, s.offset + piece.length,
      s.handy - piece.length⟩ hrest
    refine ⟨memory, ?_, ?_⟩
    · rw [putAll, put_of_le hpiece]
      simp only [hput, List.flatten_cons, List.length_append, Nat.add_assoc, Nat.sub_sub]
    · rw [List.flatten_cons, List.length_append, ← Nat.add_assoc, hload]
      simp only [load_store, List.append_assoc]

/-- Behind the room, nothing is put. -/
theorem putAll_frame (s : MemStream) (pieces : List Bytes) {i : Nat} (h : s.offset + s.handy ≤ i) :
    (s.putAll pieces).1.memory i = s.memory i := by
  induction pieces generalizing s with
  | nil => rfl
  | cons piece pieces ih =>
    rw [putAll, put]
    by_cases hpiece : piece.length ≤ s.handy
    · rw [if_pos hpiece]
      refine (ih _ ?_).trans (store_of_le ?_)
      · show s.offset + piece.length + (s.handy - piece.length) ≤ i
        omega
      · omega
    · rw [if_neg hpiece]

end MemStream

end Xdr
