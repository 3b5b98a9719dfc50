import Mathlib.Logic.Function.Basic

/-!
# Memory in blocks

`malloc` makes a block at an address of its choice, where none is. A block is for a string, with so
many bytes of room, or for an object; nothing is in it until something is written there, and a
string that is longer than the room is not written. `Kept A m m'` says that between two memories
nothing has changed but the blocks in `A`; whatever is said of the other blocks of `m` still holds
of `m'`.
-/

namespace Blocks

variable {α : Type}

/-- What lies at an address that is allocated. -/
inductive Block (α : Type)
  | text (size : Nat) (s : Option (List Char))
  | object (o : Option α)

/-- What lies at an address, if anything does, and how many blocks have been allocated. From some
address on there is nothing. -/
structure Memory (α : Type) where
  block : Nat → Option (Block α)
  limit : Nat
  limit_le : ∀ a, limit ≤ a → block a = none
  mallocs : Nat

namespace Memory

/-- The string a pointer leads to. -/
def text (m : Memory α) (a : Nat) : Option (List Char) :=
  match m.block a with
  | some (.text _ s) => s
  | _ => none

/-- The object a pointer leads to. -/
def object (m : Memory α) (a : Nat) : Option α :=
  match m.block a with
  | some (.object o) => o
  | _ => none

def write (m : Memory α) (a : Nat) (b : Block α) : Memory α where
  block := Function.update m.block a (some b)
  limit := max m.limit (a + 1)
  limit_le a' h := by
    rw [Function.update_of_ne (by omega)]
    exact m.limit_le a' (by omega)
  mallocs := m.mallocs

/-- A block, at an address `malloc` chooses. -/
def alloc (malloc : Memory α → Nat) (b : Block α) (m : Memory α) : Nat × Memory α :=
  (malloc m, { m.write (malloc m) b with mallocs := m.mallocs + 1 })

/-- A string and its zero are written to where there is room for them. -/
def putText (m : Memory α) (a : Nat) (s : List Char) : Option (Memory α) :=
  match m.block a with
  | some (.text size _) => if s.length < size then some (m.write a (.text size (some s))) else none
  | _ => none

/-- An object is written to where there is one. -/
def putObject (m : Memory α) (a : Nat) (o : α) : Option (Memory α) :=
  match m.block a with
  | some (.object _) => some (m.write a (.object (some o)))
  | _ => none

/-- `strcpy`. -/
def strcpy (m : Memory α) (dst src : Nat) : Option (Memory α) := do
  let s ← m.text src
  m.putText dst s

end Memory

/-- `malloc` chooses an address where nothing is allocated. -/
def Fresh (malloc : Memory α → Nat) : Prop := ∀ m : Memory α, m.block (malloc m) = none

/-- Behind everything there is always room. -/
theorem fresh_limit : Fresh (Memory.limit : Memory α → Nat) := fun m => m.limit_le _ (Nat.le_refl _)

/-- Of the blocks of `m`, none but those in `A` have changed. -/
def Kept (A : List Nat) (m m' : Memory α) : Prop :=
  ∀ a b, a ∉ A → m.block a = some b → m'.block a = some b

section
variable {A B : List Nat} {m m' m'' : Memory α} {a : Nat} {malloc : Memory α → Nat}

/-! ## Reading -/

theorem text_of_block {size : Nat} {s : List Char}
    (h : m.block a = some (.text size (some s))) : m.text a = some s := by
  rw [Memory.text, h]

theorem block_of_text {s : List Char} (h : m.text a = some s) :
    ∃ size, m.block a = some (.text size (some s)) := by
  unfold Memory.text at h
  split at h
  · rename_i size _ hblock
    exact ⟨size, by rw [hblock, h]⟩
  · cases h

theorem block_of_object {o : α} (h : m.object a = some o) :
    m.block a = some (.object (some o)) := by
  unfold Memory.object at h
  split at h
  · rename_i hblock
    rw [hblock, h]
  · cases h

/-! ## Frames -/

theorem Kept.refl (A : List Nat) (m : Memory α) : Kept A m m := fun _ _ _ h => h

theorem Kept.trans (h : Kept A m m') (h' : Kept A m' m'') : Kept A m m'' :=
  fun a b ha hb => h' a b ha (h a b ha hb)

theorem Kept.mono (h : Kept A m m') (hAB : A ⊆ B) : Kept B m m' :=
  fun a b ha hb => h a b (fun hmem => ha (hAB hmem)) hb

/-- What was not there before may change as it likes. -/
theorem Kept.of_fresh (h : Kept A m m') (hA : ∀ a ∈ A, a ∉ B → m.block a = none) :
    Kept B m m' := by
  intro a b ha hb
  by_cases hmem : a ∈ A
  · rw [hA a hmem ha] at hb
    cases hb
  · exact h a b hmem hb

/-- Where nothing is, nothing was. -/
theorem Kept.eq_none (h : Kept A m m') (hA : a ∉ A) (ha : m'.block a = none) :
    m.block a = none := by
  by_contra hne
  obtain ⟨b, hb⟩ := Option.ne_none_iff_exists'.1 hne
  rw [h a b hA hb] at ha
  cases ha

theorem Kept.text (h : Kept A m m') (ha : a ∉ A) {s : List Char} (hs : m.text a = some s) :
    m'.text a = some s := by
  unfold Memory.text at hs ⊢
  split at hs
  · rename_i hblock
    rw [h a _ ha hblock]
    exact hs
  · cases hs

theorem Kept.object (h : Kept A m m') (ha : a ∉ A) {o : α} (ho : m.object a = some o) :
    m'.object a = some o := by
  unfold Memory.object at ho ⊢
  split at ho
  · rename_i hblock
    rw [h a _ ha hblock]
    exact ho
  · cases ho

/-- Where no text was, none is lost. -/
theorem Kept.text_of_not_text (h : Kept A m m')
    (hA : ∀ a ∈ A, ∀ size s, m.block a ≠ some (.text size s)) {s : List Char}
    (hs : m.text a = some s) : m'.text a = some s := by
  refine h.text (fun ha => ?_) hs
  obtain ⟨size, hblock⟩ := block_of_text hs
  exact hA a ha _ _ hblock

/-! ## Writing -/

theorem write_self (m : Memory α) (a : Nat) (b : Block α) : (m.write a b).block a = some b :=
  Function.update_self ..

theorem write_of_ne {a' : Nat} (h : a' ≠ a) (b : Block α) :
    (m.write a b).block a' = m.block a' := Function.update_of_ne h ..

theorem kept_write (m : Memory α) (a : Nat) (b : Block α) : Kept [a] m (m.write a b) := by
  intro a' b' ha hb
  rw [write_of_ne (by simpa using ha)]
  exact hb

/-- A new block is beside all others. -/
theorem alloc_spec (h : Fresh malloc) (b : Block α) (m : Memory α) :
    ∃ a m', m.alloc malloc b = (a, m') ∧ m.block a = none ∧ m'.block a = some b ∧ Kept [] m m' ∧
      m'.mallocs = m.mallocs + 1 := by
  have hkept : Kept [malloc m] m (m.alloc malloc b).2 := kept_write m (malloc m) b
  refine ⟨_, _, rfl, h m, write_self m _ b, hkept.of_fresh fun a ha _ => ?_, rfl⟩
  rw [List.mem_singleton.1 ha]
  exact h m

/-- A string that fits is written. -/
theorem putText_of_lt {size : Nat} {s' : Option (List Char)} {s : List Char}
    (hblock : m.block a = some (.text size s')) (hs : s.length < size) :
    ∃ m', m.putText a s = some m' ∧ m'.block a = some (.text size (some s)) ∧ Kept [a] m m' ∧
      m'.mallocs = m.mallocs := by
  refine ⟨m.write a (.text size (some s)), ?_, write_self _ _ _, kept_write _ _ _, rfl⟩
  rw [Memory.putText, hblock]
  exact if_pos hs

/-- A string that is too long is not. -/
theorem putText_of_le {size : Nat} {s' : Option (List Char)} {s : List Char}
    (hblock : m.block a = some (.text size s')) (hs : size ≤ s.length) : m.putText a s = none := by
  rw [Memory.putText, hblock]
  exact if_neg (Nat.not_lt.2 hs)

/-- An address with something is not one without. -/
theorem ne_of_block {a' : Nat} {b : Block α} (h : m.block a = some b) (h' : m.block a' = none) :
    a ≠ a' := by
  rintro rfl
  rw [h] at h'
  cases h'

/-- A copy of a string, where there is room for it. -/
theorem strcpy_of_lt {src size : Nat} {s : List Char} {s' : Option (List Char)}
    (hsrc : m.text src = some s) (hblock : m.block a = some (.text size s'))
    (hs : s.length < size) :
    ∃ m', m.strcpy a src = some m' ∧ m'.block a = some (.text size (some s)) ∧ Kept [a] m m' ∧
      m'.mallocs = m.mallocs := by
  rw [Memory.strcpy, hsrc]
  exact putText_of_lt hblock hs

theorem putObject_eq {o' : Option α} (hblock : m.block a = some (.object o')) (o : α) :
    m.putObject a o = some (m.write a (.object (some o))) := by
  rw [Memory.putObject, hblock]

theorem object_write (m : Memory α) (a : Nat) (o : α) :
    (m.write a (.object (some o))).object a = some o := by
  rw [Memory.object, write_self]

/-- The objects, after one has been written. -/
theorem objects_write (m : Memory α) (a : Nat) (o : α) :
    (m.write a (.object (some o))).object = Function.update m.object a (some o) := by
  funext a'
  by_cases h : a' = a
  · rw [h, object_write, Function.update_self]
  · rw [Function.update_of_ne h, Memory.object, Memory.object, write_of_ne h]

end

end Blocks
