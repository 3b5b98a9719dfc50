import GlfsNdmp.Pipeline
import Mathlib.Data.Fintype.Basic

/-!
# Freeing session records

`cleanup_session` frees a record without holding anything that keeps other threads away from it: a
worker or the loop may have looked the record up before, and a second record with the same id may
have left the registry in its place. `reclaimed_of_run` says that nothing else goes wrong: in every
run in which a record is freed only when no other thread has a pointer to it and the registry does
not hold it, no record is freed twice, and none is accessed after it has been freed.
-/

namespace GlfsNdmp

/-! ## Memory that is never accessed after it is freed -/

namespace Store

/-- The address has been allocated and not been freed. -/
def Live (st : Store) (address : Nat) : Prop := address < st.nextAddress ∧ address ∉ st.freed

structure Safe (st : Store) : Prop where
  registry_live : ∀ a ∈ st.registry, st.Live a
  freed_lt : ∀ a ∈ st.freed, a < st.nextAddress
  freed_nodup : st.freed.Nodup
  noUseAfterFree : st.useAfterFree = false

theorem safe_empty : Safe .empty where
  registry_live _ h := by cases h
  freed_lt _ h := by cases h
  freed_nodup := List.nodup_nil
  noUseAfterFree := rfl

theorem mem_registry_of_find {st : Store} {id a : Nat} (h : st.find id = some a) :
    a ∈ st.registry :=
  List.mem_of_find?_eq_some h

theorem Safe.touch {st : Store} (h : st.Safe) {l : List Nat} (hl : ∀ a ∈ l, st.Live a) :
    (st.touch l).Safe where
  registry_live := h.registry_live
  freed_lt := h.freed_lt
  freed_nodup := h.freed_nodup
  noUseAfterFree := by
    have hnone : l.any st.freed.contains = false := by
      rw [List.any_eq_false]
      intro a ha
      simpa using (hl a ha).2
    simp [Store.touch, h.noUseAfterFree, hnone]

/-- Going through the registry is safe: all it holds is live. -/
theorem Safe.scan {st : Store} (h : st.Safe) (id : Nat) : (st.scan id).Safe :=
  h.touch fun a ha => h.registry_live a (Fifo.visited_subset _ _ ha)

theorem Safe.touch_one {st : Store} (h : st.Safe) {a : Nat} (ha : st.Live a) :
    (st.touch [a]).Safe :=
  h.touch fun b hb => by rwa [List.mem_singleton.1 hb]

theorem Safe.modify {st : Store} (h : st.Safe) {a : Nat} (ha : st.Live a)
    (f : SessionInfo → SessionInfo) : (st.modify a f).Safe :=
  ⟨(h.touch_one ha).registry_live, h.freed_lt, h.freed_nodup, (h.touch_one ha).noUseAfterFree⟩

/-- What is live stays live when a record is allocated. -/
theorem Live.insert {st : Store} {a : Nat} (h : st.Live a) (id : Nat) : (st.insert id).Live a :=
  ⟨Nat.lt_succ_of_lt h.1, h.2⟩

theorem live_insert_nextAddress {st : Store} (h : st.Safe) (id : Nat) :
    (st.insert id).Live st.nextAddress :=
  ⟨Nat.lt_succ_self _, fun hfreed => Nat.lt_irrefl _ (h.freed_lt _ hfreed)⟩

theorem Safe.insert {st : Store} (h : st.Safe) (id : Nat) : (st.insert id).Safe where
  registry_live a ha := by
    rcases List.mem_append.1 ha with ha | ha
    · exact (h.registry_live a ha).insert id
    · rw [List.mem_singleton.1 ha]
      exact live_insert_nextAddress h id
  freed_lt a ha := Nat.lt_succ_of_lt (h.freed_lt a ha)
  freed_nodup := h.freed_nodup
  noUseAfterFree := h.noUseAfterFree

theorem Safe.unqueue {st : Store} (h : st.Safe) {a : Nat} (ha : st.Live a) :
    (st.unqueue a).Safe where
  registry_live b hb := h.registry_live b (List.mem_of_mem_eraseP hb)
  freed_lt := h.freed_lt
  freed_nodup := h.freed_nodup
  noUseAfterFree := ((h.touch_one ha).scan _).noUseAfterFree

/-- Freeing a live record that the registry does not hold. -/
theorem Safe.release {st : Store} (h : st.Safe) {a : Nat} (ha : st.Live a)
    (hregistry : a ∉ st.registry) : (st.release a).Safe where
  registry_live b hb := by
    refine ⟨(h.registry_live b hb).1, fun hfreed => ?_⟩
    rcases List.mem_append.1 hfreed with hfreed | hfreed
    · exact (h.registry_live b hb).2 hfreed
    · rw [List.mem_singleton.1 hfreed] at hb
      exact hregistry hb
  freed_lt b hb := by
    rcases List.mem_append.1 hb with hb | hb
    · exact h.freed_lt b hb
    · rw [List.mem_singleton.1 hb]
      exact ha.1
  freed_nodup := by
    refine List.nodup_append.2 ⟨h.freed_nodup, List.nodup_singleton a, fun b hb c hc heq => ?_⟩
    rw [heq, List.mem_singleton.1 hc] at hb
    exact ha.2 hb
  noUseAfterFree := h.noUseAfterFree

/-- An access of a handler leaves the allocation as it is. -/
theorem Safe.access {st st' : Store} (h : st.Safe) {a : Nat} (ha : st.Live a) {prog next : Prog}
    (haccess : st.access a prog = some (st', next)) :
    st'.Safe ∧ st'.freed = st.freed ∧ st'.nextAddress = st.nextAddress := by
  cases prog with
  | done => cases haccess
  | enter prog =>
    simp only [Store.access] at haccess
    split at haccess
    · cases haccess
    · cases haccess
      exact ⟨h.modify ha _, rfl, rfl⟩
  | exit prog | write field value prog =>
    cases haccess
    exact ⟨h.modify ha _, rfl, rfl⟩
  | read field prog =>
    cases haccess
    exact ⟨h.touch_one ha, rfl, rfl⟩

/-- What is live in `st` is live in `st'`. -/
def Keeps (st st' : Store) : Prop := st'.freed = st.freed ∧ st.nextAddress ≤ st'.nextAddress

theorem Keeps.live {st st' : Store} (h : Keeps st st') {a : Nat} (ha : st.Live a) : st'.Live a :=
  ⟨Nat.lt_of_lt_of_le ha.1 h.2, h.1 ▸ ha.2⟩

end Store

/-! ## The pointers of a worker -/

theorem afterPush_session (job : Job) : (afterPush job).session = none := by
  unfold afterPush
  split <;> rfl

theorem afterAccess_session {session a : Nat} {prog : Prog} {job : Job}
    (h : (afterAccess session prog job).session = some a) : a = session := by
  cases prog <;> cases h
  all_goals rfl

/-- Every step but `free` is safe if the worker's own pointer is, frees nothing, and leaves the
worker with a pointer that is live. -/
theorem sessionStep_safe {st st' : Store} {pc pc' : WorkerPc}
    (h : sessionStep st pc = some (st', pc')) (hsafe : st.Safe)
    (hpc : ∀ a, pc.session = some a → st.Live a) (hrelease : pc.releases = none) :
    st'.Safe ∧ st.Keeps st' ∧ ∀ a, pc'.session = some a → st'.Live a := by
  have hsame : st.Keeps st := ⟨rfl, Nat.le_refl _⟩
  cases handlingStep_of_sessionStep h with
  | found hfind =>
    refine ⟨hsafe.scan _, hsame, fun a ha => ?_⟩
    rw [afterLookup_session] at ha
    cases ha
    exact hsafe.registry_live _ (Store.mem_registry_of_find hfind)
  | missing => exact ⟨hsafe.scan _, hsame, fun a ha => by cases ha⟩
  | insert =>
    refine ⟨hsafe.insert _, ⟨rfl, Nat.le_succ _⟩, fun a ha => ?_⟩
    rw [afterLookup_session] at ha
    cases ha
    exact Store.live_insert_nextAddress hsafe _
  | push =>
    refine ⟨hsafe.modify (hpc _ rfl) _, hsame, fun a ha => ?_⟩
    rw [afterPush_session] at ha
    cases ha
  | access haccess =>
    obtain ⟨hsafe₁, hfreed, hnext⟩ := hsafe.access (hpc _ rfl) haccess
    refine ⟨hsafe₁, ⟨hfreed, hnext.ge⟩, fun a ha => ?_⟩
    rw [afterAccess_session ha]
    exact Store.Keeps.live ⟨hfreed, hnext.ge⟩ (hpc _ rfl)
  | pop =>
    refine ⟨hsafe.modify (hpc _ rfl) _, hsame, fun a ha => ?_⟩
    cases ha
    exact hpc _ rfl
  | terminated | last =>
    refine ⟨hsafe.touch_one (hpc _ rfl), hsame, fun a ha => ?_⟩
    cases ha
    exact hpc _ rfl
  | drop | keep | others =>
    exact ⟨hsafe.touch_one (hpc _ rfl), hsame, fun a ha => by cases ha⟩
  | unqueue =>
    refine ⟨hsafe.unqueue (hpc _ rfl), hsame, fun a ha => ?_⟩
    cases ha
    exact hpc _ rfl
  | release => cases hrelease

namespace Pipeline

/-- The record the loop has a pointer to. -/
def MainPc.session : MainPc → Option Nat
  | .mark _ _ session => some session
  | _ => none

variable {ι : Type*}

/-- No other thread can reach the record: it has no pointer to it, and look-ups do not find it. -/
structure State.Sole (s : State ι) (i : ι) (address : Nat) : Prop where
  registry : address ∉ s.store.registry
  workers : ∀ j, j ≠ i → (s.workers j).session ≠ some address
  main : s.main.session ≠ some address

/-- A record is freed only by the one thread that can reach it. -/
def FreesSole (s : State ι) : Action ι → Prop
  | .worker i => ∀ a ∈ (s.workers i).releases, s.Sole i a
  | _ => True

/-- All records are safe, and every pointer a thread has is live. -/
structure Reclaims (s : State ι) : Prop where
  store : s.store.Safe
  workers : ∀ i a, (s.workers i).session = some a → s.store.Live a
  main : ∀ a, s.main.session = some a → s.store.Live a

theorem reclaims_start : Reclaims (start : State ι) where
  store := Store.safe_empty
  workers _ _ h := by cases h
  main _ h := by cases h

variable [DecidableEq ι]

theorem session_goto {s : State ι} {i j : ι} {pc : WorkerPc} {a : Nat}
    (h : ((s.goto i pc).workers j).session = some a) :
    j = i ∧ pc.session = some a ∨ j ≠ i ∧ (s.workers j).session = some a := by
  by_cases hji : j = i
  · subst hji
    rw [State.goto_workers_self] at h
    exact Or.inl ⟨rfl, h⟩
  · rw [State.goto_workers_other _ _ hji] at h
    exact Or.inr ⟨hji, h⟩

/-- A worker that gives its pointer up. -/
theorem Reclaims.goto {s : State ι} (h : Reclaims s) (i : ι) {pc : WorkerPc}
    (hpc : pc.session = none) : Reclaims (s.goto i pc) where
  store := h.store
  workers j a ha := by
    rcases session_goto ha with ⟨-, ha⟩ | ⟨-, ha⟩
    · rw [hpc] at ha
      cases ha
    · exact h.workers j a ha
  main := h.main

/-- A step of handling other than `free`. -/
theorem Reclaims.handle {s : State ι} (h : Reclaims s) {i : ι} {store : Store} {pc : WorkerPc}
    (hstep : sessionStep s.store (s.workers i) = some (store, pc))
    (hrelease : (s.workers i).releases = none) :
    Reclaims ({ s with store := store }.goto i pc) := by
  obtain ⟨hsafe, hkeeps, hpc⟩ := sessionStep_safe hstep h.store (h.workers i) hrelease
  refine ⟨hsafe, fun j a ha => ?_, fun a ha => hkeeps.live (h.main a ha)⟩
  rcases session_goto ha with ⟨-, ha⟩ | ⟨-, ha⟩
  · exact hpc a ha
  · exact hkeeps.live (h.workers j a ha)

/-- `free` by the only thread that can reach the record: what the others reach stays live. -/
theorem Reclaims.release {s : State ι} (h : Reclaims s) {i : ι} {address : Nat} {job : Job}
    (hpc : s.workers i = .release address job) (hsole : s.Sole i address) :
    Reclaims ({ s with store := s.store.release address }.goto i .idle) := by
  have hlive : s.store.Live address := h.workers i address (by rw [hpc]; rfl)
  have hother : ∀ a, s.store.Live a → a ≠ address → (s.store.release address).Live a := by
    intro a ha hne
    refine ⟨ha.1, fun hfreed => ?_⟩
    rcases List.mem_append.1 hfreed with hfreed | hfreed
    · exact ha.2 hfreed
    · exact hne (List.mem_singleton.1 hfreed)
  refine ⟨h.store.release hlive hsole.registry, fun j a ha => ?_, fun a ha => ?_⟩
  · rcases session_goto ha with ⟨-, ⟨⟩⟩ | ⟨hji, ha⟩
    exact hother a (h.workers j a ha) fun heq => hsole.workers j hji (heq ▸ ha)
  · exact hother a (h.main a ha) fun heq => hsole.main (heq ▸ ha)

theorem Reclaims.step {s s' : State ι} {a : Action ι} (h : Reclaims s) (hok : FreesSole s a)
    (hstep : Step s a s') : Reclaims s' := by
  cases hstep with
  | accept | request | hangup | announce | connect | close | forget =>
    exact ⟨h.store, h.workers, fun a ha => by first | exact h.main a ha | cases ha⟩
  | receive | check | send => exact ⟨h.store, h.workers, h.main⟩
  | hit hmain hfind =>
    refine ⟨h.store.scan _, h.workers, fun a ha => ?_⟩
    cases ha
    exact h.store.registry_live _ (Store.mem_registry_of_find hfind)
  | miss hmain hfind => exact ⟨h.store.scan _, h.workers, fun a ha => by cases ha⟩
  | insert hmain =>
    refine ⟨h.store.insert _, fun i a ha => (h.workers i a ha).insert _, fun a ha => ?_⟩
    cases ha
    exact Store.live_insert_nextAddress h.store _
  | mark hmain =>
    exact ⟨h.store.modify (h.main _ (by rw [hmain]; rfl)) _, h.workers, fun a ha => by cases ha⟩
  | @take i job jobs hpc hjobs =>
    have hjobs : Reclaims { s with requestJobs := jobs } := ⟨h.store, h.workers, h.main⟩
    exact hjobs.goto i rfl
  | @put i job hpc =>
    have hreply : Reclaims { s with
        replyJobs := s.replyJobs ++ [job]
        replied := s.replied ++ [job] } := ⟨h.store, h.workers, h.main⟩
    exact hreply.goto i rfl
  | @handle i store pc hstep =>
    cases hrelease : (s.workers i).releases with
    | none => exact h.handle hstep hrelease
    | some address =>
      have hsole : s.Sole i address := hok address hrelease
      cases hpc : s.workers i with
      | release session job =>
        rw [hpc] at hrelease hstep
        cases hrelease
        cases hstep
        exact h.release hpc hsole
      | _ =>
        rw [hpc] at hrelease
        cases hrelease

/-- **No record is freed twice or accessed after it is freed.** For any number of workers and any
schedule whose steps meet `FreesSole`. -/
theorem reclaimed_of_run {as : List (Action ι)} {s : State ι}
    (run : Lts.Run exec FreesSole start as s) :
    s.store.freed.Nodup ∧ s.store.useAfterFree = false := by
  have h : Reclaims s :=
    run.invariant (fun h hok hstep => h.step hok (step_of_exec hstep)) reclaims_start
  exact ⟨h.store.freed_nodup, h.store.noUseAfterFree⟩

omit [DecidableEq ι] in
theorem sole_iff {s : State ι} {i : ι} {address : Nat} :
    s.Sole i address ↔ address ∉ s.store.registry ∧
      (∀ j, j ≠ i → (s.workers j).session ≠ some address) ∧ s.main.session ≠ some address :=
  ⟨fun h => ⟨h.registry, h.workers, h.main⟩, fun h => ⟨h.1, h.2.1, h.2.2⟩⟩

instance [Fintype ι] (s : State ι) (i : ι) (address : Nat) : Decidable (s.Sole i address) :=
  decidable_of_iff' _ sole_iff

instance [Fintype ι] (s : State ι) : ∀ a, Decidable (FreesSole s a)
  | .worker i => inferInstanceAs (Decidable (∀ a ∈ (s.workers i).releases, s.Sole i a))
  | .accept _ | .request _ _ _ _ | .hangup _ | .main | .responder => instDecidableTrue

/-- A client hangs up while its notification waits for a worker; the worker drops the job and
frees the record. -/
def hangupBeforeHandling : List (Action Unit) :=
  [.accept 4, .main, .main, .hangup 4] ++ List.replicate 5 .main ++
    List.replicate 9 (.worker ())

theorem reclaimed_hangupBeforeHandling : ∃ s : State Unit,
    Lts.Run exec FreesSole start hangupBeforeHandling s ∧ s.store.freed = [0] ∧
      s.store.freed.Nodup ∧ s.store.useAfterFree = false := by
  have run : Lts.Run exec FreesSole (start : State Unit) hangupBeforeHandling _ :=
    Lts.Run.of_execWhile rfl
  exact ⟨_, run, rfl, reclaimed_of_run run⟩

/-- A number is closed twice. At the second time the loop has looked up the record of the first
when a worker frees it. -/
def hangupWhileFreeing : List (Action Unit) :=
  [.accept 4, .main, .main] ++ List.replicate 8 (.worker ()) ++
    .hangup 4 :: List.replicate 4 .main ++ [.accept 4, .main, .main, .hangup 4] ++
    List.replicate 3 .main ++ List.replicate 9 (.worker ()) ++ [.main]

/-- The loop marks a record that has been freed. -/
theorem not_reclaimed_hangupWhileFreeing : ∃ s : State Unit,
    Lts.Run exec (fun _ _ => True) start hangupWhileFreeing s ∧
      ¬ (s.store.freed.Nodup ∧ s.store.useAfterFree = false) := by
  refine ⟨_, Lts.Run.of_execAll rfl, fun h => ?_⟩
  exact absurd h.2 (by decide)

end Pipeline

end GlfsNdmp
