import GlfsNdmp.Lib.Blocks
import GlfsNdmp.Lib.LinkedList
import GlfsNdmp.UsageReaders
import Mathlib.Data.List.Forall2

/-!
# The list of volumes in memory

`init_vol_fs_list` scans entry after entry into the same three buffers, and makes a list of nodes
out of them. A node has strings of its own, copied twice: once by the loop, and once more by
`insert_node`, which walks to the end of the list for each of them.

**Theorem (`volFsList_iff`).** The buffers hold what is scanned if and only if all words are short
enough. In this case, and wherever `malloc` puts things, what lies in memory behind the head is the
list of `GlfsNdmp.initVolFsList`: it prints as this list, `find` returns the node that is found in
it, and nothing else in memory has changed but the buffers.

What a step writes is said by the blocks it does not keep; the nodes so far are beside them.
-/

namespace GlfsNdmp

open Blocks LinkedList

/-! ## Memory -/

/-- The strings a `struct vol_fs_node` points to. -/
structure VolFsStrings where
  volName : Nat
  filesystem : Nat
  user : Nat

def VolFsStrings.addresses (p : VolFsStrings) : List Nat := [p.volName, p.filesystem, p.user]

/-- Blocks of strings and of nodes. -/
abbrev VolFsMemory := Memory (Node VolFsStrings)

namespace VolFsMemory

variable (malloc : VolFsMemory → Nat)

/-- `while (iter->next != NULL) iter = iter->next`. No list is longer than there are blocks. -/
def lastNode (m : VolFsMemory) : Nat → Nat → Option Nat
  | 0, _ => none
  | fuel + 1, iter => do
    let node ← m.object iter
    match node.next with
    | none => some iter
    | some next => lastNode m fuel next

/-- `strlen` and `malloc` for each string, and then the copies. -/
def copyStrings (src : VolFsStrings) (m : VolFsMemory) : Option (VolFsStrings × VolFsMemory) := do
  let volName ← m.text src.volName
  let (p, m) := m.alloc malloc (.text (volName.length + 1) none)
  let filesystem ← m.text src.filesystem
  let (q, m) := m.alloc malloc (.text (filesystem.length + 1) none)
  let user ← m.text src.user
  let (r, m) := m.alloc malloc (.text (user.length + 1) none)
  let m ← m.strcpy p src.volName
  let m ← m.strcpy q src.filesystem
  let m ← m.strcpy r src.user
  some (⟨p, q, r⟩, m)

/-- `insert_node`. -/
def insertNode (head : Nat) (src : VolFsStrings) (m : VolFsMemory) : Option VolFsMemory := do
  let iter ← lastNode m m.mallocs head
  let (temp, m) := m.alloc malloc (.object none)
  let (strings, m) ← copyStrings malloc src m
  let last ← m.object iter
  let m ← m.putObject iter { last with next := some temp }
  m.putObject temp ⟨strings, none⟩

/-- What `init_vol_fs_list` does with an entry it has scanned: the first becomes the head of the
list, and the others are copied and inserted. -/
def addEntry (buf : VolFsStrings) : Option Nat → VolFsMemory → Option (Nat × VolFsMemory)
  | none, m => do
    let (node, m) := m.alloc malloc (.object none)
    let (strings, m) ← copyStrings malloc buf m
    let m ← m.putObject node ⟨strings, none⟩
    some (node, m)
  | some head, m => do
    let (strings, m) ← copyStrings malloc buf m
    let m ← insertNode malloc head strings m
    some (head, m)

/-- A conversion of `fscanf`, unless the input has ended. -/
def scanWord (m : VolFsMemory) (buf : Nat) : Option CString → Option VolFsMemory
  | none => some m
  | some word => m.putText buf word

/-- `fscanf(fp_vol_fs, "%s %s %s", ..)`. -/
def scanEntry (buf : VolFsStrings) (ws : List CString) (m : VolFsMemory) : Option VolFsMemory := do
  let m ← scanWord m buf.volName ws[0]?
  let m ← scanWord m buf.filesystem ws[1]?
  scanWord m buf.user ws[2]?

/-- The loop over the entries. -/
def scanEntries (buf : VolFsStrings) :
    List CString → Option Nat → VolFsMemory → Option (Option Nat × VolFsMemory)
  | a :: b :: c :: ws, head, m => do
    let m ← scanEntry buf [a, b, c] m
    let (head, m) ← addEntry malloc buf head m
    scanEntries buf ws (some head) m
  | [a, b], head, m => do
    let m ← scanEntry buf [a, b] m
    let (head, m) ← addEntry malloc buf head m
    some (some head, m)
  | [a], head, m => do
    let m ← scanEntry buf [a] m
    let (head, m) ← addEntry malloc buf head m
    some (some head, m)
  | [], head, m => some (head, m)

/-- The buffers of `init_vol_fs_list`. -/
structure InitBuffers where
  hostIp : Nat
  buPoint : Nat
  entry : VolFsStrings

def InitBuffers.addresses (buf : InitBuffers) : List Nat :=
  buf.hostIp :: buf.buPoint :: buf.entry.addresses

/-- `fscanf(fp_vol_fs, "%s %s", host_ip, bu_point)`. -/
def scanHostLine (buf : InitBuffers) (ws : List CString) (m : VolFsMemory) :
    Option VolFsMemory := do
  let m ← scanWord m buf.hostIp ws[0]?
  scanWord m buf.buPoint ws[1]?

/-- `init_vol_fs_list`, without its mounts: what it leaves in `*head_ref`. -/
def initVolFsList (buf : InitBuffers) (file : CString) (m : VolFsMemory) :
    Option (Option Nat × VolFsMemory) := do
  let ws := words file
  let m ← scanHostLine buf ws m
  scanEntries malloc buf.entry (ws.drop 2) none m

/-- `find`. -/
def find (m : VolFsMemory) (filesystem : Nat) : Nat → Option Nat → Option (Option Nat)
  | _, none => some none
  | 0, some _ => none
  | fuel + 1, some iter => do
    let node ← m.object iter
    let s ← m.text node.elem.filesystem
    let t ← m.text filesystem
    if s = t then some (some iter) else find m filesystem fuel node.next

/-- The strings of a node. -/
def volFsNode (m : VolFsMemory) (p : VolFsStrings) : Option VolFsNode := do
  let volName ← m.text p.volName
  let filesystem ← m.text p.filesystem
  let user ← m.text p.user
  some ⟨volName, filesystem, user⟩

/-- The node a result of `find` points to. -/
def nodeAt (m : VolFsMemory) (r : Option Nat) : Option VolFsNode := do
  let a ← r
  let node ← m.object a
  m.volFsNode node.elem

/-- `print_vol_fs_info`: the nodes it prints, each on its line. -/
def printVolFsInfo (m : VolFsMemory) : Nat → Option Nat → Option (List VolFsNode)
  | _, none => some []
  | 0, some _ => none
  | fuel + 1, some iter => do
    let node ← m.object iter
    let printed ← m.volFsNode node.elem
    let rest ← printVolFsInfo m fuel node.next
    some (printed :: rest)

/-! ## Copies -/

theorem volFsNode_eq_some {m : VolFsMemory} {p : VolFsStrings} {node : VolFsNode} :
    m.volFsNode p = some node ↔ m.text p.volName = some node.volName ∧
      m.text p.filesystem = some node.filesystem ∧ m.text p.user = some node.user := by
  simp only [volFsNode, Option.bind_eq_bind, Option.bind_eq_some_iff, Option.some_inj]
  constructor
  · rintro ⟨volName, hvolName, filesystem, hfilesystem, user, huser, rfl⟩
    exact ⟨hvolName, hfilesystem, huser⟩
  · rintro ⟨hvolName, hfilesystem, huser⟩
    exact ⟨_, hvolName, _, hfilesystem, _, huser, rfl⟩

/-- The strings of a node are kept where its blocks are. -/
theorem volFsNode_of_kept {A : List Nat} {m m' : VolFsMemory} (h : Kept A m m') {p : VolFsStrings}
    (hp : ∀ a ∈ p.addresses, a ∉ A) {node : VolFsNode} (hnode : m.volFsNode p = some node) :
    m'.volFsNode p = some node := by
  simp only [VolFsStrings.addresses, List.forall_mem_cons] at hp
  obtain ⟨hvolName, hfilesystem, huser⟩ := volFsNode_eq_some.1 hnode
  exact volFsNode_eq_some.2
    ⟨h.text hp.1 hvolName, h.text hp.2.1 hfilesystem, h.text hp.2.2.1 huser⟩

section
variable {malloc} (hfresh : Fresh malloc) {m : VolFsMemory}
include hfresh

/-- The copies are new blocks with the same strings. -/
theorem copyStrings_spec {src : VolFsStrings} {node : VolFsNode}
    (hsrc : m.volFsNode src = some node) :
    ∃ p m', copyStrings malloc src m = some (p, m') ∧ m'.volFsNode p = some node ∧ Kept [] m m' ∧
      (∀ a ∈ p.addresses, m.block a = none) ∧ m'.mallocs = m.mallocs + 3 := by
  obtain ⟨hvolName, hfilesystem, huser⟩ := volFsNode_eq_some.1 hsrc
  have hnil (a : Nat) : a ∉ ([] : List Nat) := List.not_mem_nil
  obtain ⟨p, m₁, halloc₁, hp, hp₁, hkept₁, hcount₁⟩ :=
    alloc_spec hfresh (.text (node.volName.length + 1) none) m
  have hfilesystem₁ := hkept₁.text (hnil _) hfilesystem
  obtain ⟨q, m₂, halloc₂, hq, hq₂, hkept₂, hcount₂⟩ :=
    alloc_spec hfresh (.text (node.filesystem.length + 1) none) m₁
  have huser₂ := hkept₂.text (hnil _) (hkept₁.text (hnil _) huser)
  obtain ⟨r, m₃, halloc₃, hr, hr₃, hkept₃, hcount₃⟩ :=
    alloc_spec hfresh (.text (node.user.length + 1) none) m₂
  have hkept : Kept [] m m₃ := (hkept₁.trans hkept₂).trans hkept₃
  have hp₂ := hkept₂ p _ (hnil _) hp₁
  have hq' := hkept₁.eq_none (hnil _) hq
  have hr' := (hkept₁.trans hkept₂).eq_none (hnil _) hr
  -- what was there before is beside what is new
  have hold {a b : Nat} {s : CString} (hs : m.text a = some s) (hb : m.block b = none) :
      a ∉ [b] := by
    obtain ⟨size, hblock⟩ := block_of_text hs
    simpa using ne_of_block hblock hb
  have hpq : p ≠ q := ne_of_block hp₁ hq
  have hpr : p ≠ r := ne_of_block hp₂ hr
  have hqr : q ≠ r := ne_of_block hq₂ hr
  -- the three copies
  obtain ⟨m₄, hcopy₄, hp₄, hkept₄, hcount₄⟩ := strcpy_of_lt (hkept.text (hnil _) hvolName)
    (hkept₃ p _ (hnil _) hp₂) (Nat.lt_succ_self _)
  have hfilesystem₄ := hkept₄.text (hold hfilesystem hp) (hkept.text (hnil _) hfilesystem)
  obtain ⟨m₅, hcopy₅, hq₅, hkept₅, hcount₅⟩ := strcpy_of_lt hfilesystem₄
    (hkept₄ q _ (by simpa using hpq.symm) (hkept₃ q _ (hnil _) hq₂)) (Nat.lt_succ_self _)
  have huser₅ := hkept₅.text (hold huser hq') <| hkept₄.text (hold huser hp) <|
    hkept.text (hnil _) huser
  obtain ⟨m₆, hcopy₆, hr₆, hkept₆, hcount₆⟩ := strcpy_of_lt huser₅
    (hkept₅ r _ (by simpa using hqr.symm) (hkept₄ r _ (by simpa using hpr.symm) hr₃))
    (Nat.lt_succ_self _)
  have hp₆ := hkept₆ p _ (by simpa using hpr) (hkept₅ p _ (by simpa using hpq) hp₄)
  have hq₆ := hkept₆ q _ (by simpa using hqr) hq₅
  have hnew : ∀ a ∈ VolFsStrings.addresses ⟨p, q, r⟩, m.block a = none := by
    simp only [VolFsStrings.addresses, List.forall_mem_cons]
    exact ⟨hp, hq', hr', by simp⟩
  refine ⟨⟨p, q, r⟩, m₆, ?_, ?_, ?_, hnew, by omega⟩
  · simp only [copyStrings, Option.bind_eq_bind, hvolName, Option.bind_some, halloc₁, hfilesystem₁,
      halloc₂, huser₂, halloc₃, hcopy₄, hcopy₅, hcopy₆]
  · exact volFsNode_eq_some.2 ⟨text_of_block hp₆, text_of_block hq₆, text_of_block hr₆⟩
  · have hcopies : Kept [p, q, r] m₃ m₆ :=
      ((hkept₄.mono (by simp)).trans (hkept₅.mono (by simp))).trans (hkept₆.mono (by simp))
    refine Kept.of_fresh ((hkept.mono (List.nil_subset _)).trans hcopies) ?_
    exact fun a ha _ => hnew a ha

end

/-! ## The list -/

/-- The addresses of the nodes and of their strings. -/
def footprint (cells : List (Nat × VolFsStrings)) : List Nat :=
  cells.flatMap fun c => c.1 :: c.2.addresses

/-- In memory, the cells are a list of these nodes. -/
structure VolFsList (m : VolFsMemory) (cells : List (Nat × VolFsStrings)) (nodes : List VolFsNode) :
    Prop where
  segment : Segment m.object none cells
  nodup : (addresses cells).Nodup
  strings : List.Forall₂ (fun c node => m.volFsNode c.2 = some node) cells nodes
  length_le : cells.length ≤ m.mallocs

theorem mem_footprint_of_address {cells : List (Nat × VolFsStrings)} {a : Nat}
    (h : a ∈ addresses cells) : a ∈ footprint cells := by
  obtain ⟨c, hc, rfl⟩ := List.mem_map.1 h
  exact List.mem_flatMap.2 ⟨c, hc, List.mem_cons_self⟩

/-- The strings of all nodes are kept. -/
theorem strings_of_kept {m m' : VolFsMemory} {cells : List (Nat × VolFsStrings)}
    {nodes : List VolFsNode}
    (h : List.Forall₂ (fun c node => m.volFsNode c.2 = some node) cells nodes)
    (hkept : ∀ c ∈ cells, ∀ node, m.volFsNode c.2 = some node → m'.volFsNode c.2 = some node) :
    List.Forall₂ (fun c node => m'.volFsNode c.2 = some node) cells nodes := by
  induction h with
  | nil => exact .nil
  | cons hnode _ ih =>
    rw [List.forall_mem_cons] at hkept
    exact .cons (hkept.1 _ hnode) (ih hkept.2)

namespace VolFsList

variable {m m' : VolFsMemory} {cells : List (Nat × VolFsStrings)} {nodes : List VolFsNode}

/-- Where a node is, its object is. -/
theorem object_of_mem (h : VolFsList m cells nodes) {a : Nat} (ha : a ∈ addresses cells) :
    ∃ o, m.object a = some o :=
  Option.ne_none_iff_exists'.1 (h.segment.ne_none ha)

/-- A list is kept where its blocks are. -/
theorem of_kept {A : List Nat} (h : VolFsList m cells nodes) (hkept : Kept A m m')
    (hA : ∀ a ∈ footprint cells, a ∉ A) (hle : m.mallocs ≤ m'.mallocs) :
    VolFsList m' cells nodes where
  segment := by
    refine h.segment.congr fun a ha => ?_
    obtain ⟨o, ho⟩ := h.object_of_mem ha
    rw [ho]
    exact hkept.object (hA a (mem_footprint_of_address ha)) ho
  nodup := h.nodup
  strings := by
    refine strings_of_kept h.strings fun c hc node hnode => ?_
    refine volFsNode_of_kept hkept (fun a ha => hA a ?_) hnode
    exact List.mem_flatMap.2 ⟨c, hc, List.mem_cons_of_mem _ ha⟩
  length_le := Nat.le_trans h.length_le hle

end VolFsList

/-- The walk to the end. -/
theorem lastNode_eq {m : VolFsMemory} {cs : List (Nat × VolFsStrings)} {c : Nat × VolFsStrings}
    (h : Segment m.object none (cs ++ [c])) {a : Nat} (ha : LinkedList.head (cs ++ [c]) = some a)
    {fuel : Nat} (hfuel : (cs ++ [c]).length ≤ fuel) : lastNode m fuel a = some c.1 := by
  induction cs generalizing a fuel with
  | nil =>
    cases fuel with
    | zero => cases hfuel
    | succ fuel =>
      cases ha
      have hobject := h.1
      simp only [lastNode, hobject, Option.bind_eq_bind, Option.bind_some]
      rfl
  | cons d cs ih =>
    cases fuel with
    | zero => cases hfuel
    | succ fuel =>
      cases ha
      obtain ⟨b, hb⟩ : ∃ b, LinkedList.head (cs ++ [c]) = some b := by
        cases cs <;> exact ⟨_, rfl⟩
      have hobject : m.object d.1 = some ⟨d.2, (LinkedList.head (cs ++ [c])).or none⟩ := h.1
      rw [hb] at hobject
      simp only [lastNode, hobject, Option.bind_eq_bind, Option.bind_some]
      exact ih h.2 hb (Nat.le_of_succ_le_succ hfuel)

/-! ## Insertion -/

/-- The strings of a node are kept where no text changes. -/
theorem volFsNode_of_not_text {A : List Nat} {m m' : VolFsMemory} (h : Kept A m m')
    (hA : ∀ a ∈ A, ∀ size s, m.block a ≠ some (.text size s)) {p : VolFsStrings} {node : VolFsNode}
    (hnode : m.volFsNode p = some node) : m'.volFsNode p = some node := by
  obtain ⟨hvolName, hfilesystem, huser⟩ := volFsNode_eq_some.1 hnode
  exact volFsNode_eq_some.2 ⟨h.text_of_not_text hA hvolName, h.text_of_not_text hA hfilesystem,
    h.text_of_not_text hA huser⟩

section
variable {malloc} (hfresh : Fresh malloc) {m : VolFsMemory} {nodes : List VolFsNode}
  {node : VolFsNode}
include hfresh

/-- A node of its own, with copies of the strings: what both branches begin with. -/
theorem allocCopy_spec {src : VolFsStrings} (hsrc : m.volFsNode src = some node) :
    ∃ temp m₁ p m', m.alloc malloc (.object none) = (temp, m₁) ∧
      copyStrings malloc src m₁ = some (p, m') ∧ m'.volFsNode p = some node ∧ Kept [] m m' ∧
      m'.block temp = some (.object none) ∧ (∀ a ∈ temp :: p.addresses, m.block a = none) ∧
      m'.mallocs = m.mallocs + 4 := by
  obtain ⟨temp, m₁, halloc, htemp, htemp₁, hkept₁, hcount₁⟩ := alloc_spec hfresh (.object none) m
  obtain ⟨p, m', hcopy, hnode, hkept, hnew, hcount⟩ := copyStrings_spec hfresh
    (volFsNode_of_kept hkept₁ (fun _ _ => List.not_mem_nil) hsrc)
  refine ⟨temp, m₁, p, m', halloc, hcopy, hnode, hkept₁.trans hkept,
    hkept temp _ List.not_mem_nil htemp₁, ?_, by omega⟩
  exact List.forall_mem_cons.2 ⟨htemp, fun a ha => hkept₁.eq_none List.not_mem_nil (hnew a ha)⟩

/-- `insert_node` appends a node, and changes nothing but the last one. -/
theorem insertNode_spec {cs : List (Nat × VolFsStrings)} {c : Nat × VolFsStrings}
    (h : VolFsList m (cs ++ [c]) nodes) {src : VolFsStrings} (hsrc : m.volFsNode src = some node)
    {a : Nat} (ha : LinkedList.head (cs ++ [c]) = some a) :
    ∃ d m', insertNode malloc a src m = some m' ∧
      VolFsList m' (cs ++ [c] ++ [d]) (nodes ++ [node]) ∧ Kept [c.1] m m' ∧
      ∀ b ∈ d.1 :: d.2.addresses, m.block b = none := by
  obtain ⟨temp, m₁, p, m₂, halloc, hcopy, hnode, hkept, htemp, hnew, hcount⟩ :=
    allocCopy_spec hfresh hsrc
  have hlast := lastNode_eq h.segment ha h.length_le
  have htempNew : m.block temp = none := hnew temp List.mem_cons_self
  have hc : m.object c.1 = some ⟨c.2, none⟩ := h.segment.lookup
  have hc₂ := hkept.object List.not_mem_nil hc
  have hne : temp ≠ c.1 := (ne_of_block (block_of_object hc) htempNew).symm
  let m₃ := Memory.write m₂ c.1 (.object (some ⟨c.2, some temp⟩))
  have htemp₃ : m₃.block temp = some (.object none) := by rw [write_of_ne hne, htemp]
  let m₄ := Memory.write m₃ temp (.object (some ⟨p, none⟩))
  have hkept₄ : Kept [c.1, temp] m₂ m₄ :=
    ((kept_write _ _ _).mono (by simp)).trans ((kept_write _ _ _).mono (by simp))
  have hobjects : ∀ b ∈ [c.1, temp], ∀ size s, m₂.block b ≠ some (.text size s) := by
    simp [block_of_object hc₂, htemp]
  have htempNot : temp ∉ addresses (cs ++ [c]) := by
    intro hmem
    obtain ⟨o, ho⟩ := h.object_of_mem hmem
    rw [block_of_object ho] at htempNew
    cases htempNew
  refine ⟨(temp, p), m₄, ?_, ⟨?_, ?_, ?_, ?_⟩, ?_, hnew⟩
  · simp only [insertNode, Option.bind_eq_bind, hlast, Option.bind_some, halloc, hcopy, hc₂]
    rw [putObject_eq (block_of_object hc₂), Option.bind_some]
    exact putObject_eq htemp₃ _
  · have hwrites : m₄.object = Function.update (Function.update (Memory.object m₂) c.1
        (some ⟨c.2, some temp⟩)) temp (some ⟨p, none⟩) := by
      rw [objects_write, objects_write]
    have hold := h.of_kept hkept (fun _ _ => List.not_mem_nil) (by omega)
    have hcs : c.1 ∉ addresses cs := by
      have hnodup := h.nodup
      rw [addresses_append, List.nodup_append] at hnodup
      exact fun hmem => hnodup.2.2 _ hmem _ (List.mem_singleton_self _) rfl
    rw [segment_append, hwrites]
    refine ⟨(segment_update htempNot _).2 (hold.segment.relink hcs), ?_, trivial⟩
    exact Function.update_self ..
  · rw [addresses_append, List.nodup_append]
    refine ⟨h.nodup, by simp, fun b hb b' hb' heq => htempNot ?_⟩
    have hb'' : b' = temp := List.mem_singleton.1 hb'
    rwa [← hb'', ← heq]
  · refine List.rel_append (strings_of_kept h.strings fun b _ node' hb => ?_) (.cons ?_ .nil)
    · exact volFsNode_of_not_text hkept₄ hobjects
        (volFsNode_of_kept hkept (fun _ _ => List.not_mem_nil) hb)
    · exact volFsNode_of_not_text hkept₄ hobjects hnode
  · have hlength := h.length_le
    rw [List.length_append]
    show (cs ++ [c]).length + 1 ≤ m₂.mallocs
    omega
  · refine Kept.of_fresh ((hkept.mono (List.nil_subset _)).trans hkept₄) fun b hb hb' => ?_
    simp only [List.mem_cons, List.not_mem_nil, or_false] at hb hb'
    rw [hb.resolve_left hb']
    exact htempNew

/-- An entry in the buffers becomes the last of the list. -/
theorem addEntry_spec {cells : List (Nat × VolFsStrings)} (h : VolFsList m cells nodes)
    {buf : VolFsStrings} (hbuf : m.volFsNode buf = some node) :
    ∃ a c m', addEntry malloc buf (LinkedList.head cells) m = some (a, m') ∧
      LinkedList.head (cells ++ [c]) = some a ∧ VolFsList m' (cells ++ [c]) (nodes ++ [node]) ∧
      Kept (addresses cells) m m' ∧ ∀ b ∈ c.1 :: c.2.addresses, m.block b = none := by
  rcases List.eq_nil_or_concat cells with rfl | ⟨cs, c, rfl⟩
  · obtain ⟨temp, m₁, p, m₂, halloc, hcopy, hnode, hkept, htemp, hnew, hcount⟩ :=
      allocCopy_spec hfresh hbuf
    obtain rfl : nodes = [] := List.forall₂_nil_left_iff.1 h.strings
    let m₃ := Memory.write m₂ temp (.object (some ⟨p, none⟩))
    have hkept₃ : Kept [temp] m₂ m₃ := kept_write _ _ _
    have hobjects : ∀ b ∈ [temp], ∀ size s, m₂.block b ≠ some (.text size s) := by simp [htemp]
    refine ⟨temp, (temp, p), m₃, ?_, rfl, ⟨⟨?_, trivial⟩, ?_, .cons ?_ .nil, ?_⟩, ?_, hnew⟩
    · show addEntry malloc buf none m = _
      simp only [addEntry, Option.bind_eq_bind, halloc, hcopy, Option.bind_some]
      rw [putObject_eq htemp, Option.bind_some]
    · exact object_write _ _ _
    · simp
    · exact volFsNode_of_not_text hkept₃ hobjects hnode
    · show 1 ≤ m₂.mallocs
      omega
    · refine Kept.of_fresh ((hkept.mono (List.nil_subset _)).trans hkept₃) fun b hb _ => ?_
      rw [List.mem_singleton.1 hb]
      exact hnew temp List.mem_cons_self
  · rw [List.concat_eq_append] at h ⊢
    obtain ⟨a, ha⟩ : ∃ a, LinkedList.head (cs ++ [c]) = some a := by
      cases cs <;> exact ⟨_, rfl⟩
    obtain ⟨p, m₁, hcopy, hnode, hkept₁, -, hcount⟩ := copyStrings_spec hfresh hbuf
    have h₁ := h.of_kept hkept₁ (fun _ _ => List.not_mem_nil) (by omega)
    obtain ⟨d, m', hinsert, hlist, hkept, hnew⟩ := insertNode_spec hfresh h₁ hnode ha
    refine ⟨a, d, m', ?_, ?_, hlist, ?_, ?_⟩
    · simp only [ha, addEntry, Option.bind_eq_bind, hcopy, Option.bind_some, hinsert]
    · rw [head_append, ha]
      rfl
    · exact (hkept₁.mono (List.nil_subset _)).trans (hkept.mono (by simp))
    · exact fun b hb => hkept₁.eq_none List.not_mem_nil (hnew b hb)

end

/-! ## Scanning -/

/-- The buffers of an entry, with the words of a node in them. -/
structure Scanned (m : VolFsMemory) (buf : VolFsStrings) (node : VolFsNode) : Prop where
  volName : m.block buf.volName = some (.text 20 (some node.volName))
  filesystem : m.block buf.filesystem = some (.text 100 (some node.filesystem))
  user : m.block buf.user = some (.text 30 (some node.user))
  nodup : buf.addresses.Nodup

/-- The words of an entry, of which there are three at most, fit the buffers. -/
def EntryFits (ws : List CString) : Prop :=
  (∀ w ∈ ws[0]?, w.length < 20) ∧ (∀ w ∈ ws[1]?, w.length < 100) ∧ ∀ w ∈ ws[2]?, w.length < 30

/-- What is in the buffers behind an entry. -/
def scannedNode (node : VolFsNode) (ws : List CString) : VolFsNode :=
  ⟨ws[0]?.getD node.volName, ws[1]?.getD node.filesystem, ws[2]?.getD node.user⟩

section
variable {m m' : VolFsMemory} {buf : VolFsStrings} {node : VolFsNode}

theorem Scanned.volFsNode (h : Scanned m buf node) : m.volFsNode buf = some node :=
  volFsNode_eq_some.2 ⟨text_of_block h.volName, text_of_block h.filesystem, text_of_block h.user⟩

theorem Scanned.of_kept {A : List Nat} (h : Scanned m buf node) (hkept : Kept A m m')
    (hA : ∀ a ∈ buf.addresses, a ∉ A) : Scanned m' buf node := by
  simp only [VolFsStrings.addresses, List.forall_mem_cons] at hA
  exact ⟨hkept _ _ hA.1 h.volName, hkept _ _ hA.2.1 h.filesystem, hkept _ _ hA.2.2.1 h.user,
    h.nodup⟩

/-- A word that fits goes into its buffer. -/
theorem scanWord_of_lt {a size : Nat} {s : CString} {word : Option CString}
    (hblock : m.block a = some (.text size (some s))) (hlt : ∀ w ∈ word, w.length < size) :
    ∃ m', scanWord m a word = some m' ∧ m'.block a = some (.text size (some (word.getD s))) ∧
      Kept [a] m m' ∧ m'.mallocs = m.mallocs := by
  cases word with
  | none => exact ⟨m, rfl, hblock, Kept.refl _ _, rfl⟩
  | some w => exact putText_of_lt hblock (hlt w rfl)

theorem scanWord_of_not {a size : Nat} {s : CString} {word : Option CString}
    (hblock : m.block a = some (.text size (some s))) (hnot : ¬ ∀ w ∈ word, w.length < size) :
    scanWord m a word = none := by
  cases word with
  | none => exact absurd (by rintro w ⟨⟩) hnot
  | some w =>
    refine putText_of_le hblock (Nat.not_lt.1 fun hlt => hnot ?_)
    rintro w ⟨⟩
    exact hlt

/-- An entry that fits goes into the buffers, and one that does not goes beside them. -/
theorem scanEntry_spec (h : Scanned m buf node) (ws : List CString) :
    (EntryFits ws → ∃ m', scanEntry buf ws m = some m' ∧ Scanned m' buf (scannedNode node ws) ∧
      Kept buf.addresses m m' ∧ m'.mallocs = m.mallocs) ∧
    (¬ EntryFits ws → scanEntry buf ws m = none) := by
  have hnodup := h.nodup
  simp only [VolFsStrings.addresses, List.nodup_cons, List.mem_cons, List.not_mem_nil, or_false,
    not_or] at hnodup
  obtain ⟨⟨hvf, hvu⟩, hfu, -⟩ := hnodup
  by_cases hvol : ∀ w ∈ ws[0]?, w.length < 20
  · obtain ⟨m₁, hscan₁, hvol₁, hkept₁, hcount₁⟩ := scanWord_of_lt h.volName hvol
    have hfilesystem₁ := hkept₁ _ _ (by simpa using Ne.symm hvf) h.filesystem
    have huser₁ := hkept₁ _ _ (by simpa using Ne.symm hvu) h.user
    by_cases hfs : ∀ w ∈ ws[1]?, w.length < 100
    · obtain ⟨m₂, hscan₂, hfilesystem₂, hkept₂, hcount₂⟩ := scanWord_of_lt hfilesystem₁ hfs
      have hvol₂ := hkept₂ _ _ (by simpa using hvf) hvol₁
      have huser₂ := hkept₂ _ _ (by simpa using Ne.symm hfu) huser₁
      by_cases hus : ∀ w ∈ ws[2]?, w.length < 30
      · obtain ⟨m₃, hscan₃, huser₃, hkept₃, hcount₃⟩ := scanWord_of_lt huser₂ hus
        have hvol₃ := hkept₃ _ _ (by simpa using hvu) hvol₂
        have hfilesystem₃ := hkept₃ _ _ (by simpa using hfu) hfilesystem₂
        refine ⟨fun _ => ⟨m₃, ?_, ⟨hvol₃, hfilesystem₃, huser₃, h.nodup⟩, ?_, by omega⟩,
          fun hnot => absurd ⟨hvol, hfs, hus⟩ hnot⟩
        · simp only [scanEntry, Option.bind_eq_bind, hscan₁, hscan₂, hscan₃, Option.bind_some]
        · exact ((hkept₁.mono (by simp [VolFsStrings.addresses])).trans
            (hkept₂.mono (by simp [VolFsStrings.addresses]))).trans
              (hkept₃.mono (by simp [VolFsStrings.addresses]))
      · refine ⟨fun hfits => absurd hfits.2.2 hus, fun _ => ?_⟩
        simp only [scanEntry, Option.bind_eq_bind, hscan₁, hscan₂, Option.bind_some,
          scanWord_of_not huser₂ hus]
    · refine ⟨fun hfits => absurd hfits.2.1 hfs, fun _ => ?_⟩
      simp only [scanEntry, Option.bind_eq_bind, hscan₁, Option.bind_some,
        scanWord_of_not hfilesystem₁ hfs, Option.bind_none]
  · refine ⟨fun hfits => absurd hfits.1 hvol, fun _ => ?_⟩
    simp only [scanEntry, Option.bind_eq_bind, scanWord_of_not h.volName hvol, Option.bind_none]

end

/-! ## The loop -/

/-- Between two turns: a list of new blocks, and nothing else has changed but the buffers. -/
structure Scanning (m₀ m : VolFsMemory) (buf : VolFsStrings) (node : VolFsNode)
    (cells : List (Nat × VolFsStrings)) (nodes : List VolFsNode) : Prop where
  buffers : Scanned m buf node
  list : VolFsList m cells nodes
  new : ∀ a ∈ footprint cells, m₀.block a = none
  kept : Kept buf.addresses m₀ m

theorem Scanned.ne_none {m : VolFsMemory} {buf : VolFsStrings} {node : VolFsNode}
    (h : Scanned m buf node) : ∀ a ∈ buf.addresses, m.block a ≠ none := by
  simp [VolFsStrings.addresses, h.volName, h.filesystem, h.user]

section
variable {malloc} (hfresh : Fresh malloc) {m₀ : VolFsMemory} {buf : VolFsStrings}
  (h₀ : ∀ a ∈ buf.addresses, m₀.block a ≠ none)
include hfresh h₀

/-- One turn makes one node more. -/
theorem Scanning.turn {m : VolFsMemory} {node : VolFsNode} {cells : List (Nat × VolFsStrings)}
    {nodes : List VolFsNode} (h : Scanning m₀ m buf node cells nodes) {ws : List CString}
    (hfits : EntryFits ws) :
    ∃ m₁ a c m', scanEntry buf ws m = some m₁ ∧
      addEntry malloc buf (LinkedList.head cells) m₁ = some (a, m') ∧
      LinkedList.head (cells ++ [c]) = some a ∧
      Scanning m₀ m' buf (scannedNode node ws) (cells ++ [c]) (nodes ++ [scannedNode node ws]) := by
  obtain ⟨m₁, hscan, hbuf₁, hkept₁, hcount₁⟩ := (scanEntry_spec h.buffers ws).1 hfits
  have hapart : ∀ a ∈ footprint cells, a ∉ buf.addresses :=
    fun a ha hbuf => h₀ a hbuf (h.new a ha)
  have hlist₁ := h.list.of_kept hkept₁ hapart (by omega)
  obtain ⟨a, c, m', hadd, hhead, hlist, hkept, hnew⟩ :=
    addEntry_spec hfresh hlist₁ hbuf₁.volFsNode
  have hkept₀ := h.kept.trans hkept₁
  have hcells : ∀ a ∈ addresses cells, m₀.block a = none :=
    fun a ha => h.new a (mem_footprint_of_address ha)
  refine ⟨m₁, a, c, m', hscan, hadd, hhead, ?_, hlist, ?_, ?_⟩
  · exact hbuf₁.of_kept hkept fun b hb hmem => h₀ b hb (hcells b hmem)
  · intro b hb
    rw [footprint, List.flatMap_append, List.mem_append] at hb
    rcases hb with hb | hb
    · exact h.new b hb
    · rw [List.flatMap_singleton] at hb
      have hfree := hnew b hb
      exact hkept₀.eq_none (fun hmem => hbuf₁.ne_none b hmem hfree) hfree
  · refine Kept.of_fresh ((hkept₀.mono (List.subset_append_left ..)).trans
      (hkept.mono (List.subset_append_right buf.addresses (addresses cells)))) fun b hb hb' => ?_
    exact hcells b ((List.mem_append.1 hb).resolve_left hb')

/-- The loop makes the nodes that are scanned, if all words fit. -/
theorem scanEntries_of_fits {m : VolFsMemory} {node : VolFsNode}
    {cells : List (Nat × VolFsStrings)} {nodes : List VolFsNode}
    (h : Scanning m₀ m buf node cells nodes) {ws : List CString}
    (hfits : ∀ b ∈ nodeScans 20 100 30 ws, b.Fits) :
    ∃ node' cells' m', scanEntries malloc buf ws (LinkedList.head cells) m =
        some (LinkedList.head cells', m') ∧
      Scanning m₀ m' buf node' cells' (nodes ++ scanNodes node ws) := by
  induction node, ws using scanNodes.induct generalizing m cells nodes with
  | case1 node a b c ws ih =>
    simp only [nodeScans, List.forall_mem_cons] at hfits
    obtain ⟨ha, hb, hc, hfits⟩ := hfits
    have hentry : EntryFits [a, b, c] :=
      ⟨by rintro w ⟨⟩; exact ha, by rintro w ⟨⟩; exact hb, by rintro w ⟨⟩; exact hc⟩
    obtain ⟨m₁, p, d, m', hscan, hadd, hhead, hnext⟩ := h.turn hfresh h₀ hentry
    obtain ⟨node', cells', m'', hloop, hdone⟩ := ih hnext hfits
    refine ⟨node', cells', m'', ?_, ?_⟩
    · rw [hhead] at hloop
      simp only [scanEntries, Option.bind_eq_bind, hscan, hadd, Option.bind_some, hloop]
    · rw [List.append_assoc] at hdone
      exact hdone
  | case2 node a b =>
    simp only [nodeScans, List.forall_mem_cons] at hfits
    obtain ⟨ha, hb, -⟩ := hfits
    have hentry : EntryFits [a, b] :=
      ⟨by rintro w ⟨⟩; exact ha, by rintro w ⟨⟩; exact hb, by rintro w ⟨⟩⟩
    obtain ⟨m₁, p, d, m', hscan, hadd, hhead, hnext⟩ := h.turn hfresh h₀ hentry
    refine ⟨_, _, m', ?_, hnext⟩
    simp only [scanEntries, Option.bind_eq_bind, hscan, hadd, Option.bind_some, hhead]
  | case3 node a =>
    simp only [nodeScans, List.forall_mem_cons] at hfits
    have hentry : EntryFits [a] :=
      ⟨by rintro w ⟨⟩; exact hfits.1, by rintro w ⟨⟩, by rintro w ⟨⟩⟩
    obtain ⟨m₁, p, d, m', hscan, hadd, hhead, hnext⟩ := h.turn hfresh h₀ hentry
    refine ⟨_, _, m', ?_, hnext⟩
    simp only [scanEntries, Option.bind_eq_bind, hscan, hadd, Option.bind_some, hhead]
  | case4 node =>
    refine ⟨node, cells, m, rfl, ?_⟩
    rw [scanNodes, List.append_nil]
    exact h

/-- If one does not fit, the loop writes beside a buffer. -/
theorem scanEntries_of_not {m : VolFsMemory} {node : VolFsNode}
    {cells : List (Nat × VolFsStrings)} {nodes : List VolFsNode}
    (h : Scanning m₀ m buf node cells nodes) {ws : List CString}
    (hnot : ¬ ∀ b ∈ nodeScans 20 100 30 ws, b.Fits) :
    scanEntries malloc buf ws (LinkedList.head cells) m = none := by
  induction node, ws using scanNodes.induct generalizing m cells nodes with
  | case1 node a b c ws ih =>
    by_cases hfits : EntryFits [a, b, c]
    · obtain ⟨m₁, p, d, m', hscan, hadd, hhead, hnext⟩ := h.turn hfresh h₀ hfits
      have hrest : ¬ ∀ b ∈ nodeScans 20 100 30 ws, b.Fits := by
        intro hrest
        refine hnot (List.forall_mem_cons.2 ⟨hfits.1 a rfl, List.forall_mem_cons.2
          ⟨hfits.2.1 b rfl, List.forall_mem_cons.2 ⟨hfits.2.2 c rfl, hrest⟩⟩⟩)
      have hloop := ih hnext hrest
      rw [hhead] at hloop
      simp only [scanEntries, Option.bind_eq_bind, hscan, hadd, Option.bind_some, hloop]
    · simp only [scanEntries, Option.bind_eq_bind, (scanEntry_spec h.buffers _).2 hfits,
        Option.bind_none]
  | case2 node a b =>
    have hfits : ¬ EntryFits [a, b] := fun hfits => hnot <| List.forall_mem_cons.2
      ⟨hfits.1 a rfl, List.forall_mem_cons.2 ⟨hfits.2.1 b rfl, fun _ hnil => (List.not_mem_nil hnil).elim⟩⟩
    simp only [scanEntries, Option.bind_eq_bind, (scanEntry_spec h.buffers _).2 hfits,
      Option.bind_none]
  | case3 node a =>
    have hfits : ¬ EntryFits [a] := fun hfits => hnot <| List.forall_mem_cons.2
      ⟨hfits.1 a rfl, fun _ hnil => (List.not_mem_nil hnil).elim⟩
    simp only [scanEntries, Option.bind_eq_bind, (scanEntry_spec h.buffers _).2 hfits,
      Option.bind_none]
  | case4 node => exact absurd (fun _ hnil => (List.not_mem_nil hnil).elim) hnot

end

/-! ## What is seen of the list -/

/-- The list behind a head, as the functions of `vol_info.c` see it. -/
structure Shows (m : VolFsMemory) (head : Option Nat) (nodes : List VolFsNode) : Prop where
  printed : m.printVolFsInfo m.mallocs head = some nodes
  found : ∀ filesystem key, m.text filesystem = some key →
    ∃ r, m.find filesystem m.mallocs head = some r ∧
      m.nodeAt r = GlfsNdmp.find nodes key ∧ (r = none ↔ GlfsNdmp.find nodes key = none)

section
variable {m : VolFsMemory} {cells : List (Nat × VolFsStrings)} {nodes : List VolFsNode}

theorem printVolFsInfo_eq (hseg : Segment m.object none cells)
    (hstrings : List.Forall₂ (fun c node => m.volFsNode c.2 = some node) cells nodes) {fuel : Nat}
    (hfuel : cells.length ≤ fuel) :
    m.printVolFsInfo fuel (LinkedList.head cells) = some nodes := by
  induction hstrings generalizing fuel with
  | nil => cases fuel <;> rfl
  | @cons c node cells nodes hnode _ ih =>
    cases fuel with
    | zero => cases hfuel
    | succ fuel =>
      have hobject : m.object c.1 = some ⟨c.2, LinkedList.head cells⟩ := by
        rw [hseg.1, Option.or_none]
      have hrest := ih hseg.2 (Nat.le_of_succ_le_succ hfuel)
      simp only [head_cons, printVolFsInfo, Option.bind_eq_bind, hobject, Option.bind_some, hnode,
        hrest]

theorem find_eq (hseg : Segment m.object none cells)
    (hstrings : List.Forall₂ (fun c node => m.volFsNode c.2 = some node) cells nodes) {fuel : Nat}
    (hfuel : cells.length ≤ fuel) {filesystem : Nat} {key : CString}
    (hkey : m.text filesystem = some key) :
    ∃ r, m.find filesystem fuel (LinkedList.head cells) = some r ∧
      m.nodeAt r = GlfsNdmp.find nodes key ∧ (r = none ↔ GlfsNdmp.find nodes key = none) := by
  induction hstrings generalizing fuel with
  | nil => exact ⟨none, by cases fuel <;> rfl, rfl, iff_of_true rfl rfl⟩
  | @cons c node cells nodes hnode _ ih =>
    cases fuel with
    | zero => cases hfuel
    | succ fuel =>
      have hobject : m.object c.1 = some ⟨c.2, LinkedList.head cells⟩ := by
        rw [hseg.1, Option.or_none]
      have htext := (volFsNode_eq_some.1 hnode).2.1
      simp only [head_cons, find, Option.bind_eq_bind, hobject, Option.bind_some, htext, hkey]
      by_cases hsame : node.filesystem = key
      · have hfound : GlfsNdmp.find (node :: nodes) key = some node := by
          simp [GlfsNdmp.find, hsame]
        rw [if_pos hsame, hfound]
        refine ⟨some c.1, rfl, ?_, iff_of_false (by rintro ⟨⟩) (by rintro ⟨⟩)⟩
        simp only [nodeAt, Option.bind_eq_bind, Option.bind_some, hobject, hnode]
      · have hnext : GlfsNdmp.find (node :: nodes) key = GlfsNdmp.find nodes key := by
          simp [GlfsNdmp.find, hsame]
        rw [if_neg hsame, hnext]
        exact ih hseg.2 (Nat.le_of_succ_le_succ hfuel)

theorem VolFsList.shows (h : VolFsList m cells nodes) : m.Shows (LinkedList.head cells) nodes where
  printed := printVolFsInfo_eq h.segment h.strings h.length_le
  found _ _ hkey := find_eq h.segment h.strings h.length_le hkey

end

/-! ## The file -/

/-- The buffers of `init_vol_fs_list`, with what is in them before: the text up to the first zero,
which may lie beyond the end of a buffer that is not set. That reading it leaves the buffer is not
counted here. -/
structure InitBuffers.Ready (buf : InitBuffers) (scan : ScanBuffers) (m : VolFsMemory) : Prop where
  hostIp : m.block buf.hostIp = some (.text 20 (some scan.hostIp))
  buPoint : m.block buf.buPoint = some (.text 100 (some scan.buPoint))
  entry : Scanned m buf.entry scan.node
  nodup : buf.addresses.Nodup

/-- The words of the host line, of which there are two at most, fit the buffers. -/
def HostFits (ws : List CString) : Prop :=
  (∀ w ∈ ws[0]?, w.length < 20) ∧ ∀ w ∈ ws[1]?, w.length < 100

theorem scans_fit_iff (ws : List CString) :
    (∀ b ∈ UsageReader.initVolFsList.scans ws, b.Fits) ↔
      HostFits ws ∧ ∀ b ∈ nodeScans 20 100 30 (ws.drop 2), b.Fits := by
  have hfits (size : Nat) (w : CString) : Buffer.Fits ⟨size, w⟩ ↔ w.length < size := Iff.rfl
  have hhost : (∀ b ∈ hostScans 20 100 ws, b.Fits) ↔ HostFits ws := by
    rcases ws with _ | ⟨a, _ | ⟨b, ws⟩⟩ <;> simp [hostScans, HostFits, hfits]
  rw [← hhost]
  exact List.forall_mem_append

section
variable {buf : InitBuffers} {scan : ScanBuffers} {m : VolFsMemory} (h : buf.Ready scan m)
include h

theorem scanHostLine_spec (ws : List CString) :
    (HostFits ws → ∃ m', scanHostLine buf ws m = some m' ∧ Scanned m' buf.entry scan.node ∧
      Kept [buf.hostIp, buf.buPoint] m m') ∧
    (¬ HostFits ws → scanHostLine buf ws m = none) := by
  have hnodup := h.nodup
  simp only [InitBuffers.addresses, List.nodup_cons, List.mem_cons, not_or] at hnodup
  obtain ⟨⟨hhost, hhostEntry⟩, hpointEntry, -⟩ := hnodup
  by_cases hip : ∀ w ∈ ws[0]?, w.length < 20
  · obtain ⟨m₁, hscan₁, -, hkept₁, -⟩ := scanWord_of_lt h.hostIp hip
    have hpoint₁ := hkept₁ _ _ (by simpa using Ne.symm hhost) h.buPoint
    by_cases hpoint : ∀ w ∈ ws[1]?, w.length < 100
    · obtain ⟨m₂, hscan₂, -, hkept₂, -⟩ := scanWord_of_lt hpoint₁ hpoint
      have hkept : Kept [buf.hostIp, buf.buPoint] m m₂ :=
        (hkept₁.mono (by simp)).trans (hkept₂.mono (by simp))
      refine ⟨fun _ => ⟨m₂, ?_, h.entry.of_kept hkept fun a ha hmem => ?_, hkept⟩,
        fun hnot => absurd ⟨hip, hpoint⟩ hnot⟩
      · simp only [scanHostLine, Option.bind_eq_bind, hscan₁, hscan₂, Option.bind_some]
      · simp only [List.mem_cons, List.not_mem_nil, or_false] at hmem
        rcases hmem with rfl | rfl
        · exact hhostEntry ha
        · exact hpointEntry ha
    · refine ⟨fun hfits => absurd hfits.2 hpoint, fun _ => ?_⟩
      simp only [scanHostLine, Option.bind_eq_bind, hscan₁, Option.bind_some,
        scanWord_of_not hpoint₁ hpoint]
  · refine ⟨fun hfits => absurd hfits.1 hip, fun _ => ?_⟩
    simp only [scanHostLine, Option.bind_eq_bind, scanWord_of_not h.hostIp hip, Option.bind_none]

/-- **The list of volumes.** Wherever `malloc` puts things, and whatever is in the buffers: for any
file, `init_vol_fs_list` stays inside them if and only if all words it scans fit. It then leaves the
rest of memory as it was, and a list that shows what `GlfsNdmp.initVolFsList` returns. -/
theorem volFsList_iff {malloc : VolFsMemory → Nat} (hfresh : Fresh malloc) (ret : Nat → Int)
    (w : World) :
    ((initVolFsList malloc buf w.glusterVolUsage m).isSome ↔
      ∀ b ∈ UsageReader.initVolFsList.scans (words w.glusterVolUsage), b.Fits) ∧
    ∀ head m', initVolFsList malloc buf w.glusterVolUsage m = some (head, m') →
      Kept buf.addresses m m' ∧ m'.Shows head (GlfsNdmp.initVolFsList scan ret w).2.1 := by
  rw [initVolFsList_nodes, scans_fit_iff]
  simp only [initVolFsList, Option.bind_eq_bind]
  generalize words w.glusterVolUsage = ws
  by_cases hhost : HostFits ws
  · obtain ⟨m₁, hscan, hentry, hkept⟩ := (scanHostLine_spec h ws).1 hhost
    rw [hscan, Option.bind_some]
    have hscanning : Scanning m₁ m₁ buf.entry scan.node [] [] :=
      ⟨hentry, ⟨trivial, List.nodup_nil, .nil, Nat.zero_le _⟩, by rintro a ⟨⟩, Kept.refl _ _⟩
    by_cases hfits : ∀ b ∈ nodeScans 20 100 30 (ws.drop 2), b.Fits
    · obtain ⟨node, cells, m', hloop, hdone⟩ :=
        scanEntries_of_fits hfresh hentry.ne_none hscanning hfits
      rw [LinkedList.head_nil] at hloop
      rw [hloop]
      refine ⟨iff_of_true rfl ⟨hhost, hfits⟩, ?_⟩
      rintro head m' ⟨⟩
      refine ⟨?_, hdone.list.shows⟩
      exact (hkept.mono (by simp [InitBuffers.addresses])).trans
        (hdone.kept.mono (by simp [InitBuffers.addresses]))
    · have hloop := scanEntries_of_not hfresh hentry.ne_none hscanning hfits
      rw [LinkedList.head_nil] at hloop
      rw [hloop]
      exact ⟨iff_of_false (by rintro ⟨⟩) fun hall => hfits hall.2, by rintro head m' ⟨⟩⟩
  · rw [(scanHostLine_spec h ws).2 hhost, Option.bind_none]
    exact ⟨iff_of_false (by rintro ⟨⟩) fun hall => hhost hall.1, by rintro head m' ⟨⟩⟩

end

/-- The buffers at the first five addresses, with nothing in them. -/
def emptyBuffers : VolFsMemory where
  block a := [20, 100, 20, 100, 30][a]?.map fun size => .text size (some [])
  limit := 5
  limit_le a h := by
    rw [List.getElem?_eq_none (by simpa using h)]
    rfl
  mallocs := 0

/-- A file with one volume. -/
theorem volFsList_oneVolume : ∃ head m',
    initVolFsList Memory.limit ⟨0, 1, ⟨2, 3, 4⟩⟩ "10.0.0.1 /bu\nvol 10.0.0.2/home bob\n".toList
      emptyBuffers = some (head, m') ∧
    m'.printVolFsInfo m'.mallocs head =
      some [⟨"vol".toList, "10.0.0.2/home".toList, "bob".toList⟩] := by
  have hready : InitBuffers.Ready ⟨0, 1, ⟨2, 3, 4⟩⟩ ⟨[], [], [], [], []⟩ emptyBuffers :=
    ⟨rfl, rfl, ⟨rfl, rfl, rfl, by decide⟩, by decide⟩
  obtain ⟨hiff, hlist⟩ := volFsList_iff hready fresh_limit (fun _ => 0)
    (.boot "10.0.0.1 /bu\nvol 10.0.0.2/home bob\n".toList)
  obtain ⟨⟨head, m'⟩, hinit⟩ := Option.isSome_iff_exists.1 (hiff.2 (by decide))
  refine ⟨head, m', hinit, ?_⟩
  rw [(hlist head m' hinit).2.printed]
  decide

end VolFsMemory

end GlfsNdmp
