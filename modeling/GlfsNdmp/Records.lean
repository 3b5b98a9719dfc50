import GlfsNdmp.Outlook
import Mathlib.Data.List.Find
import Mathlib.Data.List.Nodup

/-!
# The record of a session, step by step

`Store.record` is what a look-up of an id finds. As long as the registry holds the id once and the
pointer of a worker on a job of that session is to this record (`Store.Tidy`), the worker's steps
do not change what is going to become of it: `SessionStep.outcomeFor` says that what the rest of
the job will leave, reckoned from the record, is the same before and after.
-/

namespace GlfsNdmp

/-! ## Memory -/

namespace Store

/-- The record a look-up of `id` finds. -/
def record (st : Store) (id : Nat) : Option SessionInfo := (st.find id).map st.memory

/-- A step that changes at most the record at one address, and not its id. -/
structure Works (st : Store) (address : Nat) (st' : Store) : Prop where
  registry : st'.registry = st.registry
  nextAddress : st'.nextAddress = st.nextAddress
  memory : ∀ a, a ≠ address → st'.memory a = st.memory a
  sessionId : (st'.memory address).sessionId = (st.memory address).sessionId

theorem works_touch (st : Store) (l : List Nat) (address : Nat) : st.Works address (st.touch l) :=
  ⟨rfl, rfl, fun _ _ => rfl, rfl⟩

theorem works_modify (st : Store) (address : Nat) {f : SessionInfo → SessionInfo}
    (hf : ∀ r, (f r).sessionId = r.sessionId) : st.Works address (st.modify address f) where
  registry := rfl
  nextAddress := rfl
  memory _ ha := Function.update_of_ne ha _ _
  sessionId := by
    change (Function.update st.memory address _ address).sessionId = _
    rw [Function.update_self]
    exact hf _

@[simp] theorem memory_modify_self (st : Store) (address : Nat) (f : SessionInfo → SessionInfo) :
    (st.modify address f).memory address = f (st.memory address) :=
  Function.update_self _ _ _

theorem works_release (st : Store) (address address' : Nat) :
    st.Works address (st.release address') :=
  ⟨rfl, rfl, fun _ _ => rfl, rfl⟩

/-- An access of a handler works on its record, and what the rest of the handler makes of it stays
the same. -/
theorem works_access {st st' : Store} {address : Nat} {prog next : Prog}
    (h : st.access address prog = some (st', next)) :
    st.Works address st' ∧ next.run (st'.memory address) = prog.run (st.memory address) := by
  cases prog with
  | done => cases h
  | enter prog =>
    simp only [Store.access] at h
    split at h
    · cases h
    · cases h
      exact ⟨st.works_modify address fun _ => rfl, by rw [memory_modify_self]; rfl⟩
  | exit prog =>
    cases h
    exact ⟨st.works_modify address fun _ => rfl, by rw [memory_modify_self]; rfl⟩
  | read field prog =>
    cases h
    exact ⟨st.works_touch _ _, rfl⟩
  | write field value prog =>
    cases h
    exact ⟨st.works_modify address fun r => (r.set_frame field value).1,
      by rw [memory_modify_self]; rfl⟩

variable {st st' : Store} {address id : Nat}

theorem sessionId_of_find (h : st.find id = some address) :
    (st.memory address).sessionId = id := by
  simpa [Store.compare] using List.find?_some h

theorem Works.sessionId_eq (h : st.Works address st') (a : Nat) :
    (st'.memory a).sessionId = (st.memory a).sessionId := by
  by_cases ha : a = address
  · rw [ha]
    exact h.sessionId
  · rw [h.memory a ha]

theorem Works.find (h : st.Works address st') (id : Nat) : st'.find id = st.find id := by
  have hcompare : st'.compare id = st.compare id := by
    funext a
    rw [Store.compare, Store.compare, h.sessionId_eq]
  rw [Store.find, Store.find, h.registry, hcompare]

theorem Works.record_other (h : st.Works address st')
    (hid : (st.memory address).sessionId ≠ id) : st'.record id = st.record id := by
  rw [Store.record, Store.record, h.find]
  cases hfind : st.find id with
  | none => rfl
  | some a =>
    have ha : a ≠ address := fun heq => hid (heq ▸ sessionId_of_find hfind)
    rw [Option.map_some, Option.map_some, h.memory a ha]

theorem record_of_find (h : st.find id = some address) :
    st.record id = some (st.memory address) := by
  rw [Store.record, h, Option.map_some]

theorem record_eq_none (h : st.find id = none) : st.record id = none := by
  rw [Store.record, h, Option.map_none]

theorem find_eq_none (h : st.record id = none) : st.find id = none :=
  Option.map_eq_none_iff.1 h

theorem Works.record_self (h : st.Works address st') (hfind : st.find id = some address) :
    st'.record id = some (st'.memory address) :=
  record_of_find ((h.find id).trans hfind)

/-! ## Inserting and removing -/

theorem compare_insert (hlt : ∀ a ∈ st.registry, a < st.nextAddress) (id id' : Nat) :
    ∀ a ∈ st.registry, (st.insert id).compare id' a = st.compare id' a := by
  intro a ha
  have hne : a ≠ st.nextAddress := Nat.ne_of_lt (hlt a ha)
  simp [Store.compare, Store.insert, hne]

theorem find_insert_other (hlt : ∀ a ∈ st.registry, a < st.nextAddress) {id' : Nat}
    (h : id ≠ id') : (st.insert id).find id' = st.find id' := by
  have hnew : [st.nextAddress].find? ((st.insert id).compare id') = none := by
    simp [Store.compare, Store.insert, h]
  have hold : st.registry.find? ((st.insert id).compare id') = st.find id' :=
    List.find?_congr (compare_insert hlt id id')
  change (st.registry ++ [st.nextAddress]).find? _ = _
  rw [List.find?_append, hold, hnew, Option.or_none]

theorem find_insert_self (hlt : ∀ a ∈ st.registry, a < st.nextAddress) (h : st.find id = none) :
    (st.insert id).find id = some st.nextAddress := by
  have hnew : [st.nextAddress].find? ((st.insert id).compare id) = some st.nextAddress := by
    simp [Store.compare, Store.insert]
  have hold : st.registry.find? ((st.insert id).compare id) = none :=
    (List.find?_congr (compare_insert hlt id id)).trans h
  change (st.registry ++ [st.nextAddress]).find? _ = _
  rw [List.find?_append, hold, hnew, Option.none_or]

theorem memory_insert_self (st : Store) (id : Nat) :
    (st.insert id).memory st.nextAddress = SessionInfo.fresh id :=
  Function.update_self _ _ _

theorem memory_insert_other (st : Store) (id : Nat) {a : Nat} (h : a ≠ st.nextAddress) :
    (st.insert id).memory a = st.memory a :=
  Function.update_of_ne h _ _

theorem record_insert_other (hlt : ∀ a ∈ st.registry, a < st.nextAddress) {id' : Nat}
    (h : id ≠ id') : (st.insert id).record id' = st.record id' := by
  rw [Store.record, Store.record, find_insert_other hlt h]
  cases hfind : st.find id' with
  | none => rfl
  | some a =>
    have ha : a ≠ st.nextAddress := Nat.ne_of_lt (hlt a (List.mem_of_find?_eq_some hfind))
    rw [Option.map_some, Option.map_some, memory_insert_other st id ha]

theorem find_unqueue_other (h : (st.memory address).sessionId ≠ id) :
    (st.unqueue address).find id = st.find id := by
  refine Fifo.find?_eraseP_other (fun a ha => ?_) st.registry
  have ha : (st.memory a).sessionId = (st.memory address).sessionId := by
    simpa [Store.compare, Store.scan, Store.touch] using ha
  change ((st.memory a).sessionId == id) = false
  simp [ha, h]

/-- Where the registry holds an id once, it holds it no more after the removal. -/
theorem find_unqueue_self (hnodup : st.registry.Nodup) (hfind : st.find id = some address)
    (honly : ∀ a ∈ st.registry, (st.memory a).sessionId = id → st.find id = some a) :
    (st.unqueue address).find id = none := by
  have hid : (st.memory address).sessionId = id := sessionId_of_find hfind
  have herase : (st.unqueue address).registry = st.registry.eraseP (st.compare id) := by
    rw [← hid]
    rfl
  rw [Store.find, herase, List.find?_eq_none]
  intro a ha hmatch
  have ha' : (st.memory a).sessionId = id := beq_iff_eq.1 hmatch
  have heq : a = address :=
    Option.some.inj ((honly a (List.mem_of_mem_eraseP ha) ha').symm.trans hfind)
  subst heq
  exact absurd ha (Fifo.not_mem_eraseP_of_find? hnodup hfind)

end Store

/-! ## The steps of a worker -/

namespace WorkerPc

/-- The descriptor of the job a worker has in hand. -/
def fd : WorkerPc → Option Nat
  | .find _ job | .insert _ job | .push _ job | .access _ _ job | .pop _ job | .test _ job
  | .count _ job | .unqueue _ job | .release _ job | .reply job => some job.fd
  | .idle => none

/-- The job whose session a worker has not found. -/
def inserting : WorkerPc → Option Job
  | .insert _ job => some job
  | _ => none

/-- What the worker will leave of the session `d`. -/
def outcomeFor (pc : WorkerPc) (d : Nat) (r : Option SessionInfo) : Outcome :=
  if pc.fd = some d then pc.outcome r else ⟨r, []⟩

theorem outcomeFor_self {pc : WorkerPc} {d : Nat} (h : pc.fd = some d) (r : Option SessionInfo) :
    pc.outcomeFor d r = pc.outcome r :=
  if_pos h

theorem outcomeFor_other {pc : WorkerPc} {d : Nat} (h : pc.fd ≠ some d)
    (r : Option SessionInfo) : pc.outcomeFor d r = ⟨r, []⟩ :=
  if_neg h

end WorkerPc

theorem fd_of_inserting {pc : WorkerPc} {job : Job} (h : pc.inserting = some job) :
    pc.fd = some job.fd := by
  cases pc with
  | insert =>
    cases h
    rfl
  | _ => cases h

theorem WorkerPc.fd_of_handling {pc : WorkerPc} {job : Job} (h : pc.handling = some job) :
    pc.fd = some job.fd := by
  cases pc with
  | idle | reply => cases h
  | _ =>
    cases h
    rfl

theorem afterLookup_inserting (purpose : Purpose) (session : Nat) (job : Job) :
    (afterLookup purpose session job).inserting = none := by
  cases purpose <;> rfl

theorem afterLookup_fd (purpose : Purpose) (session : Nat) (job : Job) :
    (afterLookup purpose session job).fd = some job.fd := by
  cases purpose <;> rfl

theorem afterLookup_outcome (purpose : Purpose) (session : Nat) (job : Job)
    (r : SessionInfo) :
    (afterLookup purpose session job).outcome (some r) = job.afterLookup purpose r := by
  cases purpose <;> rfl

/-- The steps of handling, by what they do to the memory: one works on the record the worker has a
pointer to, and what is left to do makes the same of it afterwards. -/
inductive SessionStep (st : Store) : WorkerPc → Store → WorkerPc → Prop
  | hit {purpose : Purpose} {job : Job} {a : Nat} (hfind : st.find job.fd = some a) :
    SessionStep st (.find purpose job) (st.scan job.fd) (afterLookup purpose a job)
  | miss {purpose : Purpose} {job : Job} (hfind : st.find job.fd = none) :
    SessionStep st (.find purpose job) (st.scan job.fd) (.insert purpose job)
  | insert {purpose : Purpose} {job : Job} :
    SessionStep st (.insert purpose job) (st.insert job.fd)
      (afterLookup purpose st.nextAddress job)
  | work {pc pc' : WorkerPc} {st' : Store} {a : Nat} (hpc : pc.session = some a)
    (hrelease : pc.releases = none) (hworks : st.Works a st')
    (hpc' : pc'.session = some a ∨ pc'.session = none)
    (hinsert : pc'.inserting = none) (hfd : pc'.fd = pc.fd ∨ pc' = .idle)
    (houtcome : pc'.outcome (some (st'.memory a)) = pc.outcome (some (st.memory a))) :
    SessionStep st pc st' pc'
  | unqueue {a : Nat} {job : Job} : SessionStep st (.unqueue a job) (st.unqueue a) (.release a job)
  | release {a : Nat} {job : Job} : SessionStep st (.release a job) (st.release a) .idle

theorem sessionStep_push (st : Store) (a : Nat) (job : Job) :
    SessionStep st (.push a job) (st.modify a (·.addJob job.address)) (afterPush job) := by
  have hworks := st.works_modify a fun r => r.addJob_sessionId job.address
  unfold afterPush
  cases hprog : job.prog with
  | none =>
    refine .work rfl rfl hworks (Or.inr rfl) rfl (Or.inl rfl) ?_
    rw [Store.memory_modify_self]
    simp [WorkerPc.outcome, Job.found, Job.afterLookup, Job.add, Job.handle, hprog, Prog.run]
  | some prog =>
    refine .work rfl rfl hworks (Or.inr rfl) rfl (Or.inl rfl) ?_
    rw [Store.memory_modify_self]
    rfl

theorem sessionStep_access {st st' : Store} {a : Nat} {prog next : Prog}
    (h : st.access a prog = some (st', next)) (job : Job) :
    SessionStep st (.access a prog job) st' (afterAccess a next job) := by
  obtain ⟨hworks, hrun⟩ := Store.works_access h
  cases next with
  | done =>
    refine .work rfl rfl hworks (Or.inr rfl) rfl (Or.inl rfl) ?_
    exact congrArg job.cleanup hrun
  | enter | exit | read | write =>
    refine .work rfl rfl hworks (Or.inl rfl) rfl (Or.inl rfl) ?_
    exact congrArg job.cleanup hrun

theorem SessionStep.of_sessionStep {st st' : Store} {pc pc' : WorkerPc}
    (h : sessionStep st pc = some (st', pc')) : SessionStep st pc st' pc' := by
  cases handlingStep_of_sessionStep h with
  | found hfind => exact .hit hfind
  | missing hfind => exact .miss hfind
  | insert => exact .insert
  | @push a job => exact sessionStep_push st a job
  | @access _ _ _ job _ haccess => exact sessionStep_access haccess job
  | @pop a job =>
    refine .work rfl rfl (st.works_modify a fun r => r.removeJob_sessionId job.address)
      (Or.inl rfl) rfl (Or.inl rfl) ?_
    rw [Store.memory_modify_self]
    rfl
  | @terminated a _ hterm =>
    refine .work rfl rfl (st.works_touch [a] a) (Or.inl rfl) rfl (Or.inl rfl) ?_
    exact (if_pos hterm).symm
  | @drop a job hterm hempty =>
    have hfinish := job.finish_of_not_terminated hterm
    refine .work rfl rfl (st.works_touch [a] a) (Or.inr rfl) rfl (Or.inr rfl) ?_
    rw [hempty] at hfinish
    exact hfinish.symm
  | @keep a job hterm hempty =>
    have hfinish := job.finish_of_not_terminated hterm
    refine .work rfl rfl (st.works_touch [a] a) (Or.inr rfl) rfl (Or.inl rfl) ?_
    rw [hempty] at hfinish
    exact hfinish.symm
  | @last a _ hjobs =>
    refine .work rfl rfl (st.works_touch [a] a) (Or.inl rfl) rfl (Or.inl rfl) ?_
    exact congrArg (Outcome.mk · []) (if_pos hjobs).symm
  | @others a _ hjobs =>
    refine .work rfl rfl (st.works_touch [a] a) (Or.inr rfl) rfl (Or.inr rfl) ?_
    exact congrArg (Outcome.mk · []) (if_neg hjobs).symm
  | unqueue => exact .unqueue
  | release => exact .release

/-- A worker keeps its job until it is done with it. -/
theorem SessionStep.fd {st st' : Store} {pc pc' : WorkerPc} (h : SessionStep st pc st' pc') :
    pc'.fd = pc.fd ∨ pc' = .idle := by
  cases h with
  | hit | insert => exact Or.inl (afterLookup_fd _ _ _)
  | miss | unqueue => exact Or.inl rfl
  | work _ _ _ _ _ hfd => exact hfd
  | release => exact Or.inr rfl

/-! ## Pointers -/

/-- The addresses are allocated, and the record a worker has a pointer to is one of its job's
session. -/
structure Store.Sound (st : Store) (pc : WorkerPc) : Prop where
  nodup : st.registry.Nodup
  lt : ∀ a ∈ st.registry, a < st.nextAddress
  pointer : ∀ a, pc.session = some a →
    a < st.nextAddress ∧ pc.fd = some (st.memory a).sessionId

/-- The ids of allocated records do not change. -/
def Store.KeepsIds (st st' : Store) : Prop :=
  st.nextAddress ≤ st'.nextAddress ∧
    ∀ a, a < st.nextAddress → (st'.memory a).sessionId = (st.memory a).sessionId

namespace Store

variable {st st' : Store} {pc pc' : WorkerPc}

theorem KeepsIds.refl (st : Store) : st.KeepsIds st := ⟨Nat.le_refl _, fun _ _ => rfl⟩

theorem Works.keepsIds {a : Nat} (h : st.Works a st') : st.KeepsIds st' :=
  ⟨h.nextAddress.ge, fun b _ => h.sessionId_eq b⟩

theorem keepsIds_insert (st : Store) (id : Nat) : st.KeepsIds (st.insert id) :=
  ⟨Nat.le_succ _, fun a ha => by rw [memory_insert_other st id (Nat.ne_of_lt ha)]⟩

/-- A worker that does not move while the memory changes. -/
theorem Sound.memory (h : st.Sound pc) (hkeeps : st.KeepsIds st')
    (hnodup : st'.registry.Nodup) (hlt : ∀ a ∈ st'.registry, a < st'.nextAddress) :
    st'.Sound pc where
  nodup := hnodup
  lt := hlt
  pointer a ha := by
    obtain ⟨hlt, hfd⟩ := h.pointer a ha
    exact ⟨Nat.lt_of_lt_of_le hlt hkeeps.1, by rw [hfd, hkeeps.2 a hlt]⟩

theorem Sound.works (h : st.Sound pc) {a : Nat} (hworks : st.Works a st') : st'.Sound pc :=
  h.memory hworks.keepsIds (hworks.registry ▸ h.nodup)
    (by rw [hworks.registry, hworks.nextAddress]; exact h.lt)

theorem Sound.insert (h : st.Sound pc) (id : Nat) : (st.insert id).Sound pc := by
  refine h.memory (keepsIds_insert st id) ?_ fun a ha => ?_
  · refine List.nodup_append.2 ⟨h.nodup, List.nodup_singleton _, fun a ha b hb => ?_⟩
    rw [List.mem_singleton.1 hb]
    exact Nat.ne_of_lt (h.lt a ha)
  · rcases List.mem_append.1 ha with ha | ha
    · exact Nat.lt_succ_of_lt (h.lt a ha)
    · rw [List.mem_singleton.1 ha]
      exact Nat.lt_succ_self _

theorem Sound.unqueue (h : st.Sound pc) (a : Nat) : (st.unqueue a).Sound pc :=
  h.memory (KeepsIds.refl _) (h.nodup.sublist List.eraseP_sublist)
    fun b hb => h.lt b (List.mem_of_mem_eraseP hb)

/-- A worker that moves on, with a pointer to a record of its job's session, if any. -/
theorem Sound.goto (h : st.Sound pc)
    (hpc : ∀ a, pc'.session = some a →
      a < st.nextAddress ∧ pc'.fd = some (st.memory a).sessionId) : st.Sound pc' :=
  ⟨h.nodup, h.lt, hpc⟩

end Store

theorem SessionStep.keepsIds {st st' : Store} {pc pc' : WorkerPc}
    (h : SessionStep st pc st' pc') : st.KeepsIds st' := by
  cases h with
  | hit | miss | unqueue | release => exact Store.KeepsIds.refl _
  | insert => exact Store.keepsIds_insert _ _
  | work _ _ hworks => exact hworks.keepsIds

theorem SessionStep.sound {st st' : Store} {pc pc' : WorkerPc} (h : SessionStep st pc st' pc')
    (hsound : st.Sound pc) : st'.Sound pc' := by
  cases h with
  | @hit purpose job a hfind =>
    refine Store.Sound.goto (hsound.works (st.works_touch _ a)) fun b hb => ?_
    rw [afterLookup_session] at hb
    cases hb
    refine ⟨hsound.lt a (List.mem_of_find?_eq_some hfind), ?_⟩
    rw [afterLookup_fd]
    exact congrArg some (Store.sessionId_of_find hfind).symm
  | miss hfind => exact Store.Sound.goto (hsound.works (st.works_touch _ 0)) fun b hb => by cases hb
  | @insert purpose job =>
    refine Store.Sound.goto (hsound.insert job.fd) fun b hb => ?_
    rw [afterLookup_session] at hb
    cases hb
    refine ⟨Nat.lt_succ_self _, ?_⟩
    rw [afterLookup_fd, Store.memory_insert_self]
    rfl
  | @work _ _ _ a hpc _ hworks hpc' _ hfd =>
    refine (hsound.works hworks).goto fun b hb => ?_
    rcases hpc' with hpc' | hpc'
    · rcases hfd with hfd | rfl
      · rw [hpc', ← hpc] at hb
        rw [hfd]
        exact (hsound.works hworks).pointer b hb
      · cases hpc'
    · rw [hpc'] at hb
      cases hb
  | @unqueue a job =>
    refine (hsound.unqueue a).goto fun b hb => ?_
    cases hb
    exact (hsound.unqueue a).pointer a rfl
  | @release a job =>
    exact (hsound.works (st.works_release a a)).goto fun b hb => by cases hb

/-! ## One session -/

/-- The registry holds `d` once, the worker's pointer is to this record, and if the worker is about
to insert one there is none. -/
structure Store.Tidy (st : Store) (pc : WorkerPc) (d : Nat) : Prop where
  only : ∀ a ∈ st.registry, (st.memory a).sessionId = d → st.find d = some a
  held : ∀ a, pc.session = some a → pc.releases = none → (st.memory a).sessionId = d →
    st.find d = some a
  missed : ∀ job, pc.inserting = some job → job.fd = d → st.find d = none

theorem Store.tidy_iff {st : Store} {pc : WorkerPc} {d : Nat} :
    st.Tidy pc d ↔ (∀ a ∈ st.registry, (st.memory a).sessionId = d → st.find d = some a) ∧
      (∀ a ∈ pc.session, pc.releases = none → (st.memory a).sessionId = d →
        st.find d = some a) ∧
      ∀ job ∈ pc.inserting, job.fd = d → st.find d = none :=
  ⟨fun h => ⟨h.only, h.held, h.missed⟩, fun h => ⟨h.1, h.2.1, h.2.2⟩⟩

instance (st : Store) (pc : WorkerPc) (d : Nat) : Decidable (st.Tidy pc d) :=
  decidable_of_iff' _ Store.tidy_iff

/-- A step that leaves the session `d` alone. -/
structure Store.Frame (st : Store) (d : Nat) (st' : Store) : Prop where
  find : st'.find d = st.find d
  record : st'.record d = st.record d
  only : ∀ a ∈ st'.registry, (st'.memory a).sessionId = d →
    a ∈ st.registry ∧ (st.memory a).sessionId = d
  memory : ∀ a, a < st.nextAddress → (st.memory a).sessionId = d → st'.memory a = st.memory a

namespace Store

variable {st st' : Store} {pc pc' : WorkerPc} {d : Nat}

theorem frame_touch (st : Store) (l : List Nat) (d : Nat) : st.Frame d (st.touch l) :=
  ⟨rfl, rfl, fun _ ha hid => ⟨ha, hid⟩, fun _ _ _ => rfl⟩

theorem frame_release (st : Store) (a d : Nat) : st.Frame d (st.release a) :=
  ⟨rfl, rfl, fun _ ha hid => ⟨ha, hid⟩, fun _ _ _ => rfl⟩

theorem Works.frame {a : Nat} (h : st.Works a st') (hid : (st.memory a).sessionId ≠ d) :
    st.Frame d st' where
  find := h.find d
  record := h.record_other hid
  only b hb hbid := ⟨h.registry ▸ hb, h.sessionId_eq b ▸ hbid⟩
  memory b _ hbid := h.memory b fun heq => hid (heq ▸ hbid)

theorem frame_insert (hlt : ∀ a ∈ st.registry, a < st.nextAddress) {id : Nat} (h : id ≠ d) :
    st.Frame d (st.insert id) where
  find := find_insert_other hlt h
  record := record_insert_other hlt h
  only a ha hid := by
    rcases List.mem_append.1 ha with ha | ha
    · rw [memory_insert_other st id (Nat.ne_of_lt (hlt a ha))] at hid
      exact ⟨ha, hid⟩
    · rw [List.mem_singleton.1 ha, memory_insert_self] at hid
      exact absurd hid h
  memory a ha _ := memory_insert_other st id (Nat.ne_of_lt ha)

theorem frame_unqueue {a : Nat} (h : (st.memory a).sessionId ≠ d) : st.Frame d (st.unqueue a) where
  find := find_unqueue_other h
  record := congrArg (Option.map st.memory) (find_unqueue_other h)
  only _ hb hid := ⟨List.mem_of_mem_eraseP hb, hid⟩
  memory _ _ _ := rfl

/-- A write to a record moves nothing. -/
theorem Tidy.works (h : st.Tidy pc d) {address : Nat} (hworks : st.Works address st') :
    st'.Tidy pc d where
  only a ha hid := by
    rw [hworks.registry] at ha
    rw [hworks.sessionId_eq] at hid
    exact (hworks.find d).trans (h.only a ha hid)
  held a ha hrelease hid := by
    rw [hworks.sessionId_eq] at hid
    exact (hworks.find d).trans (h.held a ha hrelease hid)
  missed job hpc hjob := (hworks.find d).trans (h.missed job hpc hjob)

/-- Another thread's step for another session. -/
theorem Tidy.frame (h : st.Tidy pc d) (hframe : st.Frame d st') (hsound : st.Sound pc)
    (hkeeps : st.KeepsIds st') : st'.Tidy pc d where
  only a ha hid := by
    obtain ⟨ha, hid⟩ := hframe.only a ha hid
    exact hframe.find.trans (h.only a ha hid)
  held a ha hrelease hid := by
    rw [hkeeps.2 a (hsound.pointer a ha).1] at hid
    exact hframe.find.trans (h.held a ha hrelease hid)
  missed job hpc hjob := hframe.find.trans (h.missed job hpc hjob)

/-- The worker's own step for another session. -/
theorem Tidy.frame_other (h : st.Tidy pc d) (hframe : st.Frame d st') (hsound : st'.Sound pc')
    (hpc : pc'.fd ≠ some d) : st'.Tidy pc' d where
  only a ha hid := by
    obtain ⟨ha, hid⟩ := hframe.only a ha hid
    exact hframe.find.trans (h.only a ha hid)
  held a ha _ hid := by
    rw [← hid] at hpc
    exact absurd (hsound.pointer a ha).2 hpc
  missed job hinsert hjob := by
    rw [fd_of_inserting hinsert, hjob] at hpc
    exact absurd rfl hpc

end Store

/-- What a step for another session leaves alone. -/
theorem SessionStep.frame {st st' : Store} {pc pc' : WorkerPc} {d : Nat}
    (h : SessionStep st pc st' pc') (hsound : st.Sound pc) (hd : pc.fd ≠ some d) :
    st.Frame d st' := by
  cases h with
  | hit | miss => exact st.frame_touch _ d
  | insert => exact Store.frame_insert hsound.lt fun heq => hd (congrArg some heq)
  | @work _ _ _ a hpc _ hworks =>
    refine hworks.frame fun heq => hd ?_
    rw [(hsound.pointer a hpc).2, heq]
  | @unqueue a job =>
    refine Store.frame_unqueue fun heq => hd ?_
    rw [(hsound.pointer a rfl).2, heq]
  | release => exact st.frame_release _ d

/-- A step for the session itself keeps it tidy and does not change what becomes of it. -/
theorem SessionStep.own {st st' : Store} {pc pc' : WorkerPc} {d : Nat}
    (h : SessionStep st pc st' pc') (hsound : st.Sound pc) (htidy : st.Tidy pc d)
    (hd : pc.fd = some d) :
    st'.Tidy pc' d ∧ pc'.outcome (st'.record d) = pc.outcome (st.record d) := by
  cases h with
  | @hit purpose job a hfind =>
    cases hd
    refine ⟨⟨htidy.only, fun b hb _ _ => ?_, fun _ hpc _ => ?_⟩, ?_⟩
    · rw [afterLookup_session] at hb
      cases hb
      exact hfind
    · rw [afterLookup_inserting] at hpc
      cases hpc
    · have hrecord : (st.scan job.fd).record job.fd = some (st.memory a) :=
        Store.record_of_find hfind
      rw [hrecord, Store.record_of_find hfind, afterLookup_outcome]
      rfl
  | @miss purpose job hfind =>
    cases hd
    refine ⟨⟨htidy.only, fun _ hb => (by cases hb), fun _ _ _ => hfind⟩, rfl⟩
  | @insert purpose job =>
    cases hd
    have hnone := htidy.missed job rfl rfl
    have hfind := Store.find_insert_self hsound.lt hnone
    refine ⟨⟨fun a ha hid => ?_, fun b hb _ _ => ?_, fun _ hpc _ => ?_⟩, ?_⟩
    · rcases List.mem_append.1 ha with ha | ha
      · rw [Store.memory_insert_other st job.fd (Nat.ne_of_lt (hsound.lt a ha))] at hid
        cases hnone.symm.trans (htidy.only a ha hid)
      · rw [List.mem_singleton.1 ha]
        exact hfind
    · rw [afterLookup_session] at hb
      cases hb
      exact hfind
    · rw [afterLookup_inserting] at hpc
      cases hpc
    · rw [Store.record_of_find hfind, Store.record_eq_none hnone, Store.memory_insert_self,
        afterLookup_outcome]
      rfl
  | @work _ _ _ a hpc hrelease hworks hpc' hinsert hfd houtcome =>
    have hid : (st.memory a).sessionId = d :=
      Option.some.inj ((hsound.pointer a hpc).2.symm.trans hd)
    have hfind : st.find d = some a := htidy.held a hpc hrelease hid
    refine ⟨⟨(htidy.works hworks).only, fun b hb _ _ => ?_, fun job hpc _ => ?_⟩, ?_⟩
    · rcases hpc' with hpc' | hpc'
      · cases hpc'.symm.trans hb
        exact (hworks.find d).trans hfind
      · cases hpc'.symm.trans hb
    · cases hinsert.symm.trans hpc
    · rw [hworks.record_self hfind, Store.record_of_find hfind]
      exact houtcome
  | @unqueue a job =>
    have hid : (st.memory a).sessionId = d :=
      Option.some.inj ((hsound.pointer a rfl).2.symm.trans hd)
    have hfind : st.find d = some a := htidy.held a rfl rfl hid
    have hnone := Store.find_unqueue_self hsound.nodup hfind htidy.only
    refine ⟨⟨fun b hb hbid => ?_, fun _ _ h => (by cases h), fun _ _ _ => hnone⟩, ?_⟩
    · exact absurd (by simpa [Store.compare] using hbid) (List.find?_eq_none.1 hnone b hb)
    · rw [Store.record_eq_none hnone]
      rfl
  | release =>
    exact ⟨⟨htidy.only, fun _ hb => (by cases hb), fun _ hpc => (by cases hpc)⟩, rfl⟩

/-- **The worker's steps do not change what becomes of a session.** -/
theorem SessionStep.outcomeFor {st st' : Store} {pc pc' : WorkerPc} {d : Nat}
    (h : SessionStep st pc st' pc') (hsound : st.Sound pc) (htidy : st.Tidy pc d) :
    st'.Tidy pc' d ∧ pc'.outcomeFor d (st'.record d) = pc.outcomeFor d (st.record d) := by
  by_cases hd : pc.fd = some d
  · obtain ⟨htidy', houtcome⟩ := h.own hsound htidy hd
    refine ⟨htidy', ?_⟩
    rw [WorkerPc.outcomeFor_self hd, ← houtcome]
    rcases h.fd with hfd | rfl
    · exact WorkerPc.outcomeFor_self (hfd.trans hd) _
    · rfl
  · have hframe := h.frame hsound hd
    have hd' : pc'.fd ≠ some d := by
      rcases h.fd with hfd | rfl
      · rwa [hfd]
      · exact fun heq => by cases heq
    refine ⟨htidy.frame_other hframe (h.sound hsound) hd', ?_⟩
    rw [WorkerPc.outcomeFor_other hd, WorkerPc.outcomeFor_other hd', hframe.record]

end GlfsNdmp
