import Mathlib.Data.List.Basic

/-!
# How the shell splits a command

The token recognition of the POSIX shell on one command string: blanks separate words, operators
and newlines are tokens of their own, quoting takes away the meaning of what it covers and is
removed, `#` at the start of a word begins a comment, and an unquoted dollar or grave accent begins
an expansion. Patterns and tildes, whose meaning depends on the file system, are ordinary.

`tokens_join_iff`: words written with a blank between them are read back as these words, if and only
if none of them is empty, contains a character with a meaning, or starts with `#`.
-/

namespace Shell

/-! ## Characters and tokens -/

/-- What a character means outside quotes. -/
inductive Kind
  | ordinary | hash | blank | operator | expansion | escape | singleQuote | doubleQuote
  deriving DecidableEq, Repr

def kind (c : Char) : Kind :=
  match c with
  | ' ' | '\t' => .blank
  | '\n' | ';' | '&' | '|' | '<' | '>' | '(' | ')' => .operator
  | '$' | '\x60' => .expansion
  | '\\' => .escape
  | '\x27' => .singleQuote
  | '\x22' => .doubleQuote
  | '#' => .hash
  | _ => .ordinary

/-- What a command string consists of. -/
inductive Token
  | word (w : List Char)
  | operator (c : Char)
  /-- An expansion, at the character that begins it. -/
  | expansion (c : Char)
  /-- The end of the string inside quotes or after a backslash. -/
  | unterminated
  deriving DecidableEq, Repr

/-- Where in a command the scanner is. -/
inductive Mode
  | plain | escaped | single | double | doubleEscaped | comment
  deriving DecidableEq, Repr

/-- The end of a word, if one has begun. -/
def flush : Option (List Char) → List Token
  | none => []
  | some w => [.word w]

/-- The word that has begun, or the one that begins here. -/
def begun (cur : Option (List Char)) : List Char := cur.getD []

@[simp] theorem begun_none : begun none = [] := rfl

@[simp] theorem begun_some (w : List Char) : begun (some w) = w := rfl

/-- The tokens of a command string, from a place where the word `cur` has begun. -/
def scan : Mode → Option (List Char) → List Char → List Token
  | .plain, cur, [] => flush cur
  | .comment, cur, [] => flush cur
  | _, cur, [] => flush cur ++ [.unterminated]
  | .plain, cur, c :: cs =>
    match kind c with
    | .blank => flush cur ++ scan .plain none cs
    | .operator => flush cur ++ .operator c :: scan .plain none cs
    | .expansion => .expansion c :: scan .plain (some (begun cur)) cs
    | .escape => scan .escaped (some (begun cur)) cs
    | .singleQuote => scan .single (some (begun cur)) cs
    | .doubleQuote => scan .double (some (begun cur)) cs
    | .hash => if cur = none then scan .comment none cs else scan .plain (some (begun cur ++ [c])) cs
    | .ordinary => scan .plain (some (begun cur ++ [c])) cs
  | .escaped, cur, c :: cs =>
    if c = '\n' then scan .plain cur cs else scan .plain (some (begun cur ++ [c])) cs
  | .single, cur, c :: cs =>
    if kind c = .singleQuote then scan .plain cur cs
    else scan .single (some (begun cur ++ [c])) cs
  | .double, cur, c :: cs =>
    match kind c with
    | .doubleQuote => scan .plain cur cs
    | .escape => scan .doubleEscaped cur cs
    | .expansion => .expansion c :: scan .double cur cs
    | _ => scan .double (some (begun cur ++ [c])) cs
  | .doubleEscaped, cur, c :: cs =>
    if c = '\n' then scan .double cur cs
    else if kind c = .expansion ∨ kind c = .escape ∨ kind c = .doubleQuote then
      scan .double (some (begun cur ++ [c])) cs
    else scan .double (some (begun cur ++ ['\\', c])) cs
  | .comment, cur, c :: cs =>
    if c = '\n' then .operator c :: scan .plain none cs else scan .comment cur cs

/-- The tokens of a command. -/
def tokens (command : List Char) : List Token := scan .plain none command

example : tokens "mkdir -p /bu/vol; sync # done".toList =
    [.word "mkdir".toList, .word "-p".toList, .word "/bu/vol".toList, .operator ';',
      .word "sync".toList] := by
  decide

/-- A word that is read as it is written. -/
def Plain (w : List Char) : Prop :=
  w ≠ [] ∧ (∀ c ∈ w, kind c = .ordinary ∨ kind c = .hash) ∧ w.head?.map kind ≠ some .hash

instance (w : List Char) : Decidable (Plain w) :=
  @instDecidableAnd _ _ inferInstance (@instDecidableAnd _ _ (List.decidableBAll _ w) inferInstance)

/-! ## Plain words are read as they are -/

theorem scan_append_of_begun {w : List Char}
    (hw : ∀ c ∈ w, kind c = .ordinary ∨ kind c = .hash) (u rest : List Char) :
    scan .plain (some u) (w ++ rest) = scan .plain (some (u ++ w)) rest := by
  induction w generalizing u with
  | nil => rw [List.nil_append, List.append_nil]
  | cons c w ih =>
    have hstep : scan .plain (some u) (c :: (w ++ rest)) =
        scan .plain (some (u ++ [c])) (w ++ rest) := by
      rcases hw c List.mem_cons_self with h | h <;> simp [scan, h, begun]
    rw [List.cons_append, hstep, ih fun d hd => hw d (List.mem_cons_of_mem c hd),
      List.append_assoc]
    rfl

theorem Plain.scan_append {w : List Char} (h : Plain w) (rest : List Char) :
    scan .plain none (w ++ rest) = scan .plain (some w) rest := by
  obtain ⟨hne, hall, hhead⟩ := h
  cases w with
  | nil => exact absurd rfl hne
  | cons c w =>
    have hc : kind c = .ordinary := (hall c List.mem_cons_self).resolve_right fun heq =>
      hhead (by rw [List.head?_cons, Option.map_some, heq])
    have hstep : scan .plain none (c :: (w ++ rest)) = scan .plain (some [c]) (w ++ rest) := by
      simp [scan, hc, begun]
    rw [List.cons_append, hstep, scan_append_of_begun fun d hd => hall d (List.mem_cons_of_mem c hd)]
    rfl

/-! ## Nothing is lost on plain words only

Every character of a command adds at most one to the length of its words, counting one more for
each word. A character with a meaning adds nothing, or makes a token that is no word. -/

/-- What a token weighs. -/
def Token.weight : Token → Nat
  | .word w => w.length + 1
  | _ => 0

def weight (ts : List Token) : Nat := ts.foldr (fun t n => t.weight + n) 0

/-- What the word that has begun may weigh in the end, if nothing is added. A backslash in double
quotes is kept when it means nothing, with the character after it. -/
def room (mode : Mode) (cur : Option (List Char)) : Nat :=
  (begun cur).length + if mode = .doubleEscaped then 2 else 1

@[simp] theorem weight_nil : weight [] = 0 := rfl

@[simp] theorem weight_cons (t : Token) (ts : List Token) :
    weight (t :: ts) = t.weight + weight ts := rfl

@[simp] theorem weight_append (as bs : List Token) :
    weight (as ++ bs) = weight as + weight bs := by
  induction as with
  | nil => rw [List.nil_append, weight_nil, Nat.zero_add]
  | cons t ts ih => rw [List.cons_append, weight_cons, weight_cons, ih, Nat.add_assoc]

theorem weight_flush_le (cur : Option (List Char)) :
    weight (flush cur) ≤ (begun cur).length + 1 := by
  cases cur <;> simp [flush, Token.weight]

theorem room_append (mode : Mode) (cur : Option (List Char)) (w : List Char) :
    room mode (some (begun cur ++ w)) = room mode cur + w.length := by
  simp only [room, begun_some, List.length_append]
  omega

theorem room_of_ne {mode : Mode} (h : mode ≠ .doubleEscaped) (cur : Option (List Char)) :
    room mode cur = (begun cur).length + 1 := by
  rw [room, if_neg h]

theorem room_doubleEscaped (cur : Option (List Char)) :
    room .doubleEscaped cur = (begun cur).length + 2 := rfl

/-- Outside quotes a character that means something adds nothing. -/
theorem weight_scan_le (mode : Mode) (cur : Option (List Char)) (cs : List Char) :
    weight (scan mode cur cs) ≤ room mode cur + cs.length := by
  induction cs generalizing mode cur with
  | nil =>
    have hflush := weight_flush_le cur
    cases mode <;> simp [scan, room, Token.weight] <;> omega
  | cons c cs ih =>
    have hflush := weight_flush_le cur
    have hgo {m : Mode} (hm : m ≠ .doubleEscaped) (u : Option (List Char)) :
        weight (scan m u cs) ≤ (begun u).length + 1 + cs.length := by
      rw [← room_of_ne hm]
      exact ih m u
    have hadd {m : Mode} (hm : m ≠ .doubleEscaped) :
        weight (scan m (some (begun cur ++ [c])) cs) ≤ (begun cur).length + 2 + cs.length := by
      have h := hgo hm (some (begun cur ++ [c]))
      rwa [begun_some, List.length_append] at h
    rw [List.length_cons]
    cases mode with
    | plain =>
      have hfresh := hgo (m := .plain) (by decide) none
      have hcomment := hgo (m := .comment) (by decide) none
      have hplain := hadd (m := .plain) (by decide)
      have hlead {m : Mode} (hm : m ≠ .doubleEscaped) := hgo hm (some (begun cur))
      rw [begun_none, List.length_nil] at hfresh hcomment
      rw [scan, room_of_ne (by decide)]
      cases kind c with
      | ordinary => exact Nat.le_trans hplain (by omega)
      | hash =>
        simp only
        split <;> omega
      | blank =>
        simp only [weight_append]
        omega
      | operator =>
        simp only [weight_append, weight_cons, Token.weight]
        omega
      | expansion =>
        simp only [weight_cons, Token.weight, Nat.zero_add]
        exact Nat.le_trans (hlead (by decide)) (Nat.le_succ _)
      | escape => exact Nat.le_trans (hlead (by decide)) (Nat.le_succ _)
      | singleQuote => exact Nat.le_trans (hlead (by decide)) (Nat.le_succ _)
      | doubleQuote => exact Nat.le_trans (hlead (by decide)) (Nat.le_succ _)
    | escaped =>
      have hplain := hadd (m := .plain) (by decide)
      have hskip := hgo (m := .plain) (by decide) cur
      rw [scan, room_of_ne (by decide)]
      split <;> omega
    | single =>
      have hstay := hadd (m := .single) (by decide)
      have hleave := hgo (m := .plain) (by decide) cur
      rw [scan, room_of_ne (by decide)]
      split <;> omega
    | double =>
      have hstay := hadd (m := .double) (by decide)
      have hleave := hgo (m := .plain) (by decide) cur
      have hexpand := hgo (m := .double) (by decide) cur
      have hescape := ih .doubleEscaped cur
      rw [room_doubleEscaped] at hescape
      rw [scan, room_of_ne (by decide)]
      split
      · omega
      · omega
      · simp only [weight_cons, Token.weight]
        omega
      · omega
    | doubleEscaped =>
      have hone := hadd (m := .double) (by decide)
      have hskip := hgo (m := .double) (by decide) cur
      have hboth := hgo (m := .double) (by decide) (some (begun cur ++ ['\\', c]))
      rw [begun_some, List.length_append] at hboth
      rw [scan, room_doubleEscaped]
      split
      · omega
      · split
        · omega
        · exact Nat.le_trans hboth (by simp only [List.length_cons, List.length_nil]; omega)
    | comment =>
      have hstay := hgo (m := .comment) (by decide) cur
      rw [scan, room_of_ne (by decide)]
      split
      · have hfresh := hgo (m := .plain) (by decide) none
        rw [begun_none, List.length_nil] at hfresh
        simp only [weight_cons, Token.weight]
        omega
      · omega

/-- Where only words are read and nothing is lost, every word is plain. -/
theorem plain_of_tight {cur : Option (List Char)} (hcur : ∀ w ∈ cur, Plain w) {cs : List Char}
    (hwords : ∀ t ∈ scan .plain cur cs, ∃ w, t = .word w)
    (htight : weight (scan .plain cur cs) = room .plain cur + cs.length) :
    ∀ w, .word w ∈ scan .plain cur cs → Plain w := by
  induction cs generalizing cur with
  | nil =>
    intro w hw
    cases cur with
    | none => cases hw
    | some u =>
      obtain rfl := Token.word.inj (List.mem_singleton.1 hw)
      exact hcur w rfl
  | cons c cs ih =>
    have hadd (hc : kind c = .ordinary ∨ kind c = .hash ∧ cur ≠ none) :
        ∀ w ∈ some (begun cur ++ [c]), Plain w := by
      rintro w ⟨⟩
      cases cur with
      | none =>
        rcases hc with hc | ⟨-, hne⟩
        · exact ⟨by simp [begun], by simp [begun, hc], by simp [begun, hc]⟩
        · exact absurd rfl hne
      | some u =>
        obtain ⟨hne, hall, hhead⟩ := hcur u rfl
        refine ⟨by simp [begun], fun d hd => ?_, ?_⟩
        · rcases List.mem_append.1 hd with hd | hd
          · exact hall d hd
          · rw [List.mem_singleton.1 hd]
            exact hc.imp_right And.left
        · rwa [begun, Option.getD_some, List.head?_append_of_ne_nil _ hne]
    have hroom : room .plain (some (begun cur ++ [c])) = room .plain cur + 1 :=
      room_append .plain cur [c]
    -- a character that leads elsewhere without a token would lose weight
    have hlost {m : Mode} {u : Option (List Char)}
        (hw : weight (scan m u cs) = room .plain cur + (cs.length + 1))
        (hm : room m u ≤ room .plain cur) : False := by
      have hle := weight_scan_le m u cs
      omega
    rw [scan] at hwords htight ⊢
    rw [List.length_cons] at htight
    cases hkind : kind c with
    | ordinary =>
      simp only [hkind] at hwords htight ⊢
      exact ih (hadd (Or.inl hkind)) hwords (by omega)
    | hash =>
      simp only [hkind] at hwords htight ⊢
      by_cases hnone : cur = none
      · rw [if_pos hnone] at htight
        exact (hlost htight (by rw [hnone]; exact Nat.le_refl 1)).elim
      · rw [if_neg hnone] at hwords htight ⊢
        exact ih (hadd (Or.inr ⟨hkind, hnone⟩)) hwords (by omega)
    | blank =>
      simp only [hkind] at hwords htight ⊢
      have hle : weight (scan .plain none cs) ≤ 1 + cs.length := weight_scan_le .plain none cs
      have hflush := weight_flush_le cur
      rw [weight_append, room_of_ne (by decide)] at htight
      have hrest : weight (scan .plain none cs) = room .plain none + cs.length := by
        show _ = 1 + cs.length
        omega
      intro w hw
      rcases List.mem_append.1 hw with hw | hw
      · cases cur with
        | none => cases hw
        | some u =>
          obtain rfl := Token.word.inj (List.mem_singleton.1 hw)
          exact hcur w rfl
      · exact ih (by rintro w ⟨⟩) (fun t ht => hwords t (List.mem_append_right _ ht)) hrest w hw
    | operator =>
      simp only [hkind] at hwords
      obtain ⟨w, hw⟩ := hwords (.operator c) (by simp)
      cases hw
    | expansion =>
      simp only [hkind] at hwords
      obtain ⟨w, hw⟩ := hwords (.expansion c) (by simp)
      cases hw
    | escape =>
      simp only [hkind] at htight
      exact (hlost htight (Nat.le_refl _)).elim
    | singleQuote =>
      simp only [hkind] at htight
      exact (hlost htight (Nat.le_refl _)).elim
    | doubleQuote =>
      simp only [hkind] at htight
      exact (hlost htight (Nat.le_refl _)).elim

/-! ## Words with a blank between them -/

/-- Words as they are written into a command. -/
def join : List (List Char) → List Char
  | [] => []
  | [w] => w
  | w :: v :: ws => w ++ ' ' :: join (v :: ws)

theorem weight_map_word (ws : List (List Char)) (hne : ws ≠ []) :
    weight (ws.map Token.word) = (join ws).length + 1 := by
  induction ws with
  | nil => exact absurd rfl hne
  | cons w ws ih =>
    cases ws with
    | nil => simp [join, Token.weight]
    | cons v ws =>
      rw [List.map_cons, weight_cons, ih (List.cons_ne_nil v ws), join, Token.weight,
        List.length_append, List.length_cons]
      omega

/-- **Words are read as written.** -/
theorem tokens_join_iff (ws : List (List Char)) :
    tokens (join ws) = ws.map .word ↔ ∀ w ∈ ws, Plain w := by
  constructor
  · intro h w hw
    have hne : ws ≠ [] := List.ne_nil_of_mem hw
    refine @plain_of_tight none (by rintro w ⟨⟩) (join ws) ?_ ?_ w ?_
    · intro t ht
      rw [← tokens, h] at ht
      obtain ⟨v, -, rfl⟩ := List.mem_map.1 ht
      exact ⟨v, rfl⟩
    · rw [← tokens, h, weight_map_word ws hne]
      simp [room, Nat.add_comm]
    · rw [← tokens, h]
      exact List.mem_map_of_mem hw
  · intro h
    induction ws with
    | nil => rfl
    | cons w ws ih =>
      have hplain := h w List.mem_cons_self
      cases ws with
      | nil =>
        have hscan := hplain.scan_append []
        rw [List.append_nil] at hscan
        rw [tokens, join, hscan]
        rfl
      | cons v ws =>
        have hrest := ih fun u hu => h u (List.mem_cons_of_mem w hu)
        rw [tokens, join, hplain.scan_append]
        show .word w :: tokens (join (v :: ws)) = _
        rw [hrest]
        rfl

end Shell
