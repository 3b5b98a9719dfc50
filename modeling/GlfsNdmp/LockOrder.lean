import GlfsNdmp.Threads

/-!
# The order of the locks

The functions take locks in three tiers: the mutex of a call of `get_session_info` or the one of a
record, the mutex of a call of `get_session_queue`, the mutex of a queue. Read on its own each
function keeps to the order and gives back what it took, along every path (`server_disciplined`).
What a function relies on is that a record in memory still names its own mutex and its own queue of
jobs, and that is true of every record that has not been freed.

Main results: `locks_safe`, for any number of threads of any role, and `not_locks_safe_reused`: a
record can be freed under a handler, which then gives back whatever mutex it finds there.
-/

namespace GlfsNdmp

open Locking

/-! ## Handlers -/

/-- Every path of a handler takes the mutex of its record only when it does not have it, and ends
without it. -/
def Prog.Balanced : Bool → Prog → Prop
  | held, .done => held = false
  | held, .enter next => held = false ∧ next.Balanced true
  | held, .exit next => held = true ∧ next.Balanced false
  | held, .read _ next => ∀ word, (next word).Balanced held
  | held, .write _ _ next => next.Balanced held

theorem Prog.balanced_exit_done : (Prog.exit .done).Balanced true := ⟨rfl, rfl⟩

theorem Prog.balanced_ite {held : Bool} {c : Prop} [Decidable c] {prog prog' : Prog}
    (h : prog.Balanced held) (h' : prog'.Balanced held) :
    (if c then prog else prog').Balanced held := by
  split
  · exact h
  · exact h'

/-- A handler that looks at a word and writes nothing, or one word. -/
theorem Prog.balanced_check {held : Bool} {c : Prop} [Decidable c] {field : Field} {value : Int}
    {next : Prog} (h : next.Balanced held) :
    (if c then .write field value next else next : Prog).Balanced held :=
  balanced_ite h h

theorem exitProg_balanced : exitProg.Balanced true := ⟨rfl, fun _ => rfl⟩

theorem endTransferProg_balanced (failed : Bool) : (endTransferProg failed).Balanced true := by
  cases failed <;> exact Prog.balanced_exit_done

theorem openDataConnectionProg_balanced (addrType : Int) (state : NdmpDataState) :
    (openDataConnectionProg addrType state).Balanced false :=
  ⟨rfl, fun _ => Prog.balanced_check Prog.balanced_exit_done⟩

/-- Every handler, along every path. -/
theorem NdmpRequest.prog_balanced {request : NdmpRequest} {locals : Locals} {failed : Bool}
    {prog : Prog} (h : request.prog locals failed = some prog) : prog.Balanced false := by
  cases request <;> cases h
  case connectOpen request =>
    exact ⟨rfl, fun state => Prog.balanced_check Prog.balanced_exit_done⟩
  case connectClose => exact ⟨rfl, Prog.balanced_exit_done⟩
  case dataStartBackup | dataStartRecover =>
    exact ⟨rfl, fun word => Prog.balanced_check (endTransferProg_balanced failed)⟩
  case dataAbort =>
    refine ⟨rfl, fun word => Prog.balanced_ite exitProg_balanced fun word => ?_⟩
    exact Prog.balanced_ite exitProg_balanced exitProg_balanced
  case dataGetEnv =>
    exact ⟨rfl, fun word => Prog.balanced_ite Prog.balanced_exit_done fun _ =>
      Prog.balanced_exit_done⟩
  case dataStop => exact ⟨rfl, fun word => Prog.balanced_check exitProg_balanced⟩
  case dataListen | dataConnect => exact openDataConnectionProg_balanced _ _

namespace Threads

/-! ## Ranks and good memory -/

def Lock.rank : Lock → Nat
  | .session _ | .getSessionInfo _ => 0
  | .getSessionQueue _ => 1
  | .queue _ => 2

/-- The record names what `get_session_info` made for it. -/
structure SessionRecord.Own (r : SessionRecord) (address : Nat) : Prop where
  sLock : r.sLock = .session address
  jobs : r.jobs = .jobs address

def Memory.Good (m : Memory) : Prop :=
  ∀ address, m.freedRecord address = false → (m.record address).Own address

theorem Memory.good_boot : Memory.boot.Good := fun _ _ => ⟨rfl, rfl⟩

theorem Memory.Good.of_record_eq {m m' : Memory} (h : m.Good) (hrecord : m'.record = m.record)
    (hfreed : m'.freedRecord = m.freedRecord) : m'.Good := by
  intro address
  rw [hrecord, hfreed]
  exact h address

theorem Memory.Good.newRecord {m : Memory} (h : m.Good) (sessionId : Nat) :
    (m.newRecord sessionId).Good := by
  intro address hfreed
  show (Function.update m.record _ _ address).Own address
  by_cases haddress : address = m.nextRecord
  · subst haddress
    rw [Function.update_self]
    exact ⟨rfl, rfl⟩
  · rw [Function.update_of_ne haddress]
    exact h address hfreed

/-- A change to a record that does not touch its pointers, or to one that has been freed. -/
theorem Memory.Good.modify {m : Memory} (h : m.Good) {address : Nat}
    {f : SessionRecord → SessionRecord}
    (hf : m.freedRecord address = false → (f (m.record address)).Own address) :
    (m.modify address f).Good := by
  intro address' hfreed
  show (Function.update m.record _ _ address').Own address'
  by_cases haddress : address' = address
  · subst haddress
    rw [Function.update_self]
    exact hf hfreed
  · rw [Function.update_of_ne haddress]
    exact h address' hfreed

theorem Memory.Good.freeRecord {m : Memory} (h : m.Good) (address : Nat) :
    (m.freeRecord address).Good := by
  intro address' hfreed
  refine h address' ?_
  by_cases haddress : address' = address
  · subst haddress
    simp [Memory.freeRecord] at hfreed
  · simpa [Memory.freeRecord, haddress] using hfreed

theorem Memory.Good.reuse {m m' : Memory} (h : m.Good) {event : Reuse}
    (hreuse : m.reuse event = some m') : m'.Good := by
  cases event with
  | node address elem =>
    simp only [Memory.reuse] at hreuse
    split at hreuse
    · cases hreuse
      exact h.of_record_eq rfl rfl
    · cases hreuse
  | record address content =>
    simp only [Memory.reuse] at hreuse
    split at hreuse
    case isTrue hfreed =>
      cases hreuse
      refine h.modify fun hfreed' => ?_
      rw [hfreed] at hfreed'
      cases hfreed'
    case isFalse => cases hreuse

/-! ## Kinds of accesses -/

/-- The discipline of the server's code. -/
abbrev Ordered (code : Prg) (frames : List (List Lock)) : Prop :=
  Disciplined Lock.rank Memory.Good code frames

/-- Every lock held ranks below `n`. -/
def Below (n : Nat) (frames : List (List Lock)) : Prop := ∀ held ∈ frames.flatten, held.rank < n

@[simp] theorem below_nil (n : Nat) : Below n [] := fun _ h => by cases h

theorem below_cons_cons {n : Nat} {lock : Lock} {frame : List Lock} {frames : List (List Lock)} :
    Below n ((lock :: frame) :: frames) ↔ lock.rank < n ∧ Below n (frame :: frames) := by
  unfold Below
  rw [List.flatten_cons, List.cons_append, List.forall_mem_cons, List.flatten_cons]

theorem Below.mono {n n' : Nat} {frames : List (List Lock)} (h : Below n frames) (hle : n ≤ n') :
    Below n' frames := fun held hheld => Nat.lt_of_lt_of_le (h held hheld) hle

variable {frames : List (List Lock)} {q : Queue}

theorem ordered_shared {update : Memory → Memory} {next : Memory → Prg}
    (hupdate : ∀ m : Memory, m.Good → (update m).Good) (hnext : ∀ m, Ordered (next m) frames) :
    Ordered (shared update next) frames :=
  fun m hgood _ => ⟨hupdate m hgood, hnext m⟩

/-- A read that finds what is not a record. -/
theorem ordered_read {legal : Memory → Bool} {next : Memory → Prg}
    (hnext : ∀ m, Ordered (next m) frames) : Ordered (.access legal id next) frames :=
  fun m hgood _ => ⟨hgood, hnext m⟩

theorem ordered_onRecord {address : Nat} {update : SessionRecord → SessionRecord}
    {next : SessionRecord → Prg} (hupdate : ∀ r, r.Own address → (update r).Own address)
    (hnext : ∀ r, r.Own address → Ordered (next r) frames) :
    Ordered (onRecord address update next) frames := by
  intro m hgood hlegal
  have hown := hgood address (by simpa using hlegal)
  exact ⟨hgood.modify fun _ => hupdate _ hown, hnext _ hown⟩

theorem ordered_call {body : Prg} (hbody : Ordered body ([] :: frames)) :
    Ordered (.call body) frames := hbody

theorem ordered_ret {k : Prg} (hk : Ordered k frames) : Ordered (.ret k) ([] :: frames) :=
  ⟨frames, rfl, hk⟩

/-- A call that takes one mutex and gives it back before it returns. -/
theorem ordered_locked {lock : Lock} {body : Prg} (hbelow : Below lock.rank frames)
    (hbody : Ordered body ([lock] :: frames)) : Ordered (.call <| .enter lock body) frames :=
  ⟨List.cons_ne_nil _ _, hbelow, hbody⟩

theorem ordered_return {lock : Lock} {k : Prg} (hk : Ordered k frames) :
    Ordered (.exit lock <| .ret k) ([lock] :: frames) :=
  ⟨[], frames, rfl, ordered_ret hk⟩

/-! ## `queue.c` -/

theorem append_good {elem : Nat} (m : Memory) (h : m.Good) : (m.append q elem).Good :=
  h.of_record_eq rfl rfl

theorem unlink_good {node : Nat} (m : Memory) (h : m.Good) : (m.unlink q node).Good :=
  h.of_record_eq rfl rfl

theorem enqueue_ordered {elem : Nat} {k : Prg} (hbelow : Below 2 frames) (hk : Ordered k frames) :
    Ordered (enqueue q elem k) frames :=
  ordered_locked hbelow <| ordered_shared append_good fun _ => ordered_return hk

theorem dequeue_ordered {k : Option Nat → Prg} (hbelow : Below 2 frames)
    (hk : ∀ found, Ordered (k found) frames) : Ordered (dequeue q k) frames := by
  refine ordered_locked hbelow <| ordered_shared (fun _ h => h) fun m => ?_
  split
  · exact ordered_return (hk none)
  · exact ordered_shared unlink_good fun _ => ordered_return (hk _)

theorem getElemLoop_ordered {cmp : Comparator} {k : Option Nat → Prg}
    (hk : ∀ found, Ordered (k found) frames) (nodes : List Nat) :
    Ordered (getElemLoop q cmp k nodes) ([.queue q] :: frames) := by
  induction nodes with
  | nil => exact ordered_return (hk none)
  | cons node nodes ih =>
    refine ordered_read fun m => ?_
    split
    · exact ⟨[], frames, rfl, ordered_read fun _ => ordered_ret (hk _)⟩
    · exact ih

theorem getElem_ordered {cmp : Comparator} {k : Option Nat → Prg} (hbelow : Below 2 frames)
    (hk : ∀ found, Ordered (k found) frames) : Ordered (getElem q cmp k) frames :=
  ordered_locked hbelow <| ordered_shared (fun _ h => h) fun _ => getElemLoop_ordered hk _

theorem removeElemLoop_ordered {cmp : Comparator} {k : Prg} (hk : Ordered k frames)
    (nodes : List Nat) : Ordered (removeElemLoop q cmp k nodes) ([.queue q] :: frames) := by
  induction nodes with
  | nil => exact ordered_return hk
  | cons node nodes ih =>
    refine ordered_read fun m => ?_
    split
    · exact ordered_shared unlink_good fun _ => ordered_return hk
    · exact ih

theorem removeElem_ordered {cmp : Comparator} {k : Prg} (hbelow : Below 2 frames)
    (hk : Ordered k frames) : Ordered (removeElem q cmp k) frames :=
  ordered_locked hbelow <| ordered_shared (fun _ h => h) fun _ => removeElemLoop_ordered hk _

theorem numElems_ordered {k : Nat → Prg} (hbelow : Below 2 frames)
    (hk : ∀ n, Ordered (k n) frames) : Ordered (numElems q k) frames :=
  ordered_locked hbelow <| ordered_shared (fun _ h => h) fun _ => ordered_return (hk _)

theorem getAllElems_ordered {k : List Nat → Prg} (hbelow : Below 2 frames)
    (hk : ∀ elems, Ordered (k elems) frames) : Ordered (getAllElems q k) frames := by
  refine ordered_call (numElems_ordered hbelow fun _ => ordered_shared (fun _ h => h) fun m => ?_)
  refine ⟨List.cons_ne_nil _ _, hbelow, ordered_read fun _ => ?_⟩
  exact ordered_return (hk _)

/-! ## `ndmp_msg.c` -/

theorem getSessionQueue_ordered {k : Queue → Prg} (hbelow : Below 1 frames)
    (hk : ∀ q, Ordered (k q) frames) : Ordered (getSessionQueue k) frames := by
  refine ordered_call (ordered_shared (fun _ h => h.of_record_eq rfl rfl) fun m => ?_)
  refine ⟨List.cons_ne_nil _ _, hbelow, ordered_shared (fun _ h => h) fun m' => ?_⟩
  have hreturn : Ordered (.exit (.getSessionQueue m.nextLock) <| shared id fun m =>
      .ret (k (.sessionInfo (m.sessionInfoQueue.getD 0))))
      ([.getSessionQueue m.nextLock] :: frames) :=
    ⟨[], frames, rfl, ordered_shared (fun _ h => h) fun _ => ordered_ret (hk _)⟩
  split
  · exact ordered_shared (fun _ h => h.of_record_eq rfl rfl) fun _ => hreturn
  · exact hreturn

/-- The look-up holds its own mutex while it takes the two others. -/
theorem getSessionInfo_ordered {sessionId : Nat} {k : Nat → Prg} (hbelow : Below 0 frames)
    (hk : ∀ session, Ordered (k session) frames) :
    Ordered (getSessionInfo sessionId k) frames := by
  refine ordered_call (ordered_shared (fun _ h => h.of_record_eq rfl rfl) fun m => ?_)
  have hbelow₁ : Below 1 ([.getSessionInfo m.nextLock] :: frames) :=
    below_cons_cons.2 ⟨Nat.zero_lt_one, hbelow.mono (Nat.zero_le 1)⟩
  have hbelow₂ := hbelow₁.mono (Nat.le_succ 1)
  refine ⟨List.cons_ne_nil _ _, hbelow, getSessionQueue_ordered hbelow₁ fun q => ?_⟩
  refine getElem_ordered hbelow₂ fun found => ?_
  cases found with
  | some session => exact ordered_return (hk session)
  | none =>
    refine ordered_shared (fun _ h => h.newRecord sessionId) fun m => ?_
    exact enqueue_ordered hbelow₂ (ordered_return (hk _))

theorem ordered_readRecord {address : Nat} {next : SessionRecord → Prg}
    (hnext : ∀ r, r.Own address → Ordered (next r) frames) :
    Ordered (onRecord address id next) frames := ordered_onRecord (fun _ h => h) hnext

theorem addJobToSession_ordered {address : Nat} {txn : Txn} {k : Prg} (hbelow : Below 0 frames)
    (hk : Ordered k frames) : Ordered (addJobToSession address txn k) frames :=
  ordered_call <| getSessionInfo_ordered hbelow fun _ => ordered_readRecord fun _ _ =>
    enqueue_ordered (hbelow.mono (Nat.zero_le 2)) (ordered_ret hk)

/-- A handler finds on its way out the mutex it took on its way in: the record is its own. -/
theorem progCode_ordered {session : Nat} {k : Prg} (hbelow : Below 0 frames)
    (hk : Ordered k ([] :: frames)) {prog : Prog} {held : Bool} (hprog : prog.Balanced held) :
    Ordered (progCode session k prog) ((if held then [.session session] else []) :: frames) := by
  induction prog generalizing held with
  | done =>
    cases hprog
    exact hk
  | enter next ih =>
    obtain ⟨rfl, hnext⟩ := hprog
    refine ordered_readRecord fun r hr => ?_
    rw [hr.sLock]
    exact ⟨List.cons_ne_nil _ _, hbelow, ih hnext⟩
  | exit next ih =>
    obtain ⟨rfl, hnext⟩ := hprog
    refine ordered_readRecord fun r hr => ?_
    rw [hr.sLock]
    exact ⟨[], frames, rfl, ih hnext⟩
  | read field next ih => exact ordered_readRecord fun r _ => ih _ (hprog _)
  | write field value next ih =>
    exact ordered_onRecord (fun r hr => ⟨hr.sLock, hr.jobs⟩) fun _ _ => ih hprog

theorem ndmpDispatch_ordered {txn : Txn} {k : Prg} (hbelow : Below 0 frames)
    (hk : Ordered k frames) : Ordered (ndmpDispatch txn k) frames := by
  unfold ndmpDispatch
  cases hprog : txn.request.prog txn.locals txn.failed with
  | none => exact ordered_call (ordered_ret hk)
  | some prog =>
    exact ordered_call <| getSessionInfo_ordered hbelow fun session =>
      progCode_ordered hbelow (ordered_ret hk) (NdmpRequest.prog_balanced hprog)

theorem cleanupSession_ordered {address : Nat} {txn : Txn} {k : Bool → Prg}
    (hbelow : Below 0 frames) (hk : ∀ terminated, Ordered (k terminated) frames) :
    Ordered (cleanupSession address txn k) frames := by
  have hbelow₂ : Below 2 ([] :: frames) := hbelow.mono (Nat.zero_le 2)
  refine ordered_call (getSessionInfo_ordered hbelow fun session => ?_)
  refine ordered_readRecord fun _ _ => removeElem_ordered hbelow₂ ?_
  refine ordered_readRecord fun r _ => ?_
  split
  · refine ordered_readRecord fun _ _ => numElems_ordered hbelow₂ fun n => ?_
    split
    · refine getSessionQueue_ordered (hbelow.mono (Nat.zero_le 1)) fun q => ?_
      exact removeElem_ordered hbelow₂ fun m hgood _ => ⟨hgood.freeRecord session, ordered_ret (hk true)⟩
    · exact ordered_ret (hk true)
  · exact ordered_ret (hk false)

theorem terminateSession_ordered {sessionId : Nat} {k : Prg} (hbelow : Below 0 frames)
    (hk : Ordered k frames) : Ordered (terminateSession sessionId k) frames :=
  ordered_call <| getSessionInfo_ordered hbelow fun _ =>
    ordered_onRecord (fun _ hr => ⟨hr.sLock, hr.jobs⟩) fun _ _ => ordered_ret hk

theorem xdrDecodeEncode_ordered {address : Nat} {txn : Txn} {k : Prg} (hbelow : Below 0 frames)
    (hk : Ordered k frames) : Ordered (xdrDecodeEncode address txn k) frames := by
  refine ordered_call (addJobToSession_ordered hbelow (ndmpDispatch_ordered hbelow ?_))
  refine cleanupSession_ordered hbelow fun terminated => ?_
  split
  · exact ordered_ret hk
  · exact enqueue_ordered (hbelow.mono (Nat.zero_le 2)) (ordered_ret hk)

/-! ## The loops -/

theorem done_ordered : Ordered .done [] := rfl

theorem setFdFlags_ordered : Ordered setFdFlags [] :=
  ordered_call <| getAllElems_ordered (below_nil 2) fun _ =>
    numElems_ordered (below_nil 2) fun _ => ordered_ret done_ordered

theorem acceptAllConnections_ordered (fd : Nat) : Ordered (acceptAllConnections fd) [] := by
  refine ordered_call (enqueue_ordered (below_nil 2) ?_)
  refine ordered_shared (fun _ h => h.of_record_eq rfl rfl) fun m => ?_
  exact enqueue_ordered (below_nil 2) (ordered_ret done_ordered)

theorem handleAClientRequest_ordered (fd : Nat)
    (received : Option (NdmpRequest × Locals × Bool)) :
    Ordered (handleAClientRequest fd received) [] := by
  refine ordered_call (getElem_ordered (below_nil 2) fun found => ?_)
  cases found with
  | none => exact ordered_ret done_ordered
  | some _ =>
    cases received with
    | none =>
      refine removeElem_ordered (below_nil 2) (terminateSession_ordered (below_nil 0) ?_)
      exact ordered_ret done_ordered
    | some received =>
      obtain ⟨request, locals, failed⟩ := received
      refine ordered_shared (fun _ h => h.of_record_eq rfl rfl) fun _ => ?_
      exact enqueue_ordered (below_nil 2) (ordered_ret done_ordered)

/-- The loop of `run_job` holds no mutex between two jobs. -/
theorem runJob_ordered : Ordered runJob [] := by
  refine dequeue_ordered (below_nil 2) fun found => ?_
  cases found with
  | none => exact done_ordered
  | some address =>
    exact ordered_shared (fun _ h => h) fun _ => xdrDecodeEncode_ordered (below_nil 0) done_ordered

theorem processResponse_ordered : Ordered processResponse [] := by
  refine dequeue_ordered (below_nil 2) fun found => ?_
  cases found with
  | none => exact done_ordered
  | some address =>
    exact ordered_shared (fun _ h => h) fun _ => getElem_ordered (below_nil 2) fun _ => done_ordered

theorem Task.code_ordered {role : Role} {task : Task} {code : Prg}
    (h : task.code role = some code) : Ordered code [] := by
  cases role <;> cases task <;> cases h
  case main.setFdFlags => exact setFdFlags_ordered
  case main.acceptAllConnections fd => exact acceptAllConnections_ordered fd
  case main.handleAClientRequest fd received => exact handleAClientRequest_ordered fd received
  case worker.runJob => exact runJob_ordered
  case responder.processResponse => exact processResponse_ordered

variable {τ : Type*}

/-- Whatever threads there are, each keeps to the order. -/
theorem server_disciplined (role : τ → Role) : (server role).Disciplined Lock.rank Memory.Good where
  task _ _ _ h := Task.code_ordered h
  outside _ _ _ hgood hreuse := hgood.reuse hreuse

variable [DecidableEq τ]

/-- In every run in which no thread reads or writes what has been freed, no thread enters a mutex it
owns, every call gives back exactly what it took, and no threads wait for one another in a circle.
-/
theorem locks_safe (role : τ → Role) {as : List (Action τ Task Reuse)} {s : State τ Memory Lock}
    (run : Lts.Run (server role).exec Legal (start Memory.boot) as s) : Safe s :=
  safe_of_run (server_disciplined role) Memory.good_boot run

/-! ## Two workers -/

/-- A main thread and two workers. -/
def twoWorkers (t : Nat) : Role := if t = 0 then .main else .worker

def steps (t n : Nat) : List (Action Nat Task Reuse) := List.replicate n (.step t)

/-- A client connects on socket 4 and sends a DATA_STOP. -/
def connectAndStop : List (Action Nat Task Reuse) :=
  .begin 0 (.acceptAllConnections 4) :: steps 0 13 ++
    .begin 0 (.handleAClientRequest 4 (some (.dataStop, default, false))) :: steps 0 15

/-- The first worker serves both, one after the other. -/
def served : List (Action Nat Task Reuse) :=
  connectAndStop ++ .begin 1 .runJob :: steps 1 78 ++ .begin 1 .runJob :: steps 1 97

theorem locks_safe_served :
    ∃ s, Lts.Run (server twoWorkers).exec Legal (start Memory.boot) served s ∧ Safe s := by
  have hserved : (Lts.execWhile (server twoWorkers).exec Legal (start Memory.boot) served).any
      fun _ => true := by
    decide +kernel
  obtain ⟨s, run, -⟩ := Lts.Run.exists_of_execWhile hserved
  exact ⟨s, run, locks_safe twoWorkers run⟩

/-- Both workers look for the session at once and each makes a record of it. The second one's
handler is at work on the first one's record when the client leaves, the first worker finds no job
in that record and frees it, and the memory is used for the record of another session. -/
def reusedRecord : List (Action Nat Task Reuse) :=
  connectAndStop ++
    .begin 1 .runJob :: steps 1 25 ++ .begin 2 .runJob :: steps 2 24 ++ steps 1 8 ++ steps 2 38 ++
    .begin 0 (.handleAClientRequest 4 none) :: steps 0 38 ++ steps 1 61 ++
    [.outside (.record 0 (.fresh 2 5)), .step 2]

/-- Is the thread about to release a mutex it does not own? -/
def exitsOther (s : State Nat Memory Lock) (t : Nat) : Bool :=
  match s.code t with
  | .exit lock _ => s.owner lock != some t
  | _ => false

theorem not_safe_of_exitsOther {s : State Nat Memory Lock} {t : Nat} (h : exitsOther s t = true) :
    ¬ Safe s := by
  intro hsafe
  unfold exitsOther at h
  split at h
  case h_1 lock next hcode =>
    rw [(hsafe.releasesOwn t lock next hcode).1] at h
    simp at h
  case h_2 => cases h

/-- The handler takes the mutex of its record and gives back that of another. -/
theorem not_locks_safe_reused :
    ¬ ∀ (τ : Type) [DecidableEq τ] (role : τ → Role) (as : List (Action τ Task Reuse))
      (s : State τ Memory Lock),
      Lts.Run (server role).exec (fun _ _ => True) (start Memory.boot) as s → Safe s := by
  intro hsafe
  have hreused : (Lts.execAll (server twoWorkers).exec (start Memory.boot) reusedRecord).any
      (exitsOther · 2) = true := by
    decide +kernel
  obtain ⟨s, run, hexits⟩ := Lts.Run.exists_of_execAll hreused
  exact not_safe_of_exitsOther hexits (hsafe _ _ _ s run)

end Threads

end GlfsNdmp
