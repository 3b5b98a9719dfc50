import GlfsNdmp.Access
import GlfsNdmp.Lib.Fifo
import Mathlib.Logic.Function.Basic

/-!
# The session records in memory

The threads share the records by address: the registry is a queue of pointers, a look-up hands out
a pointer, and `cleanup_session` frees the record while other pointers to it may be about.
`Store` is that memory, with every step of `xdr_decode_encode` and `terminate_session` on it as an
operation of its own. It notes which records have been freed, and whether one of them was read or
written afterwards. The code may do so to a record that has been allocated again, and here it may
not: what is said of a run holds of the code up to the first such access.

The registry is there from the start. Two threads that both find it missing in `get_session_queue`
are in `GlfsNdmp.Registry` and `GlfsNdmp.Threads`.
-/

namespace GlfsNdmp

/-! ## Memory -/

/-- The registry of pointers, the records they point to, what has been freed, and the next address
`malloc` returns. Addresses are not used twice. -/
structure Store where
  registry : List Nat
  memory : Nat → SessionInfo
  freed : List Nat
  nextAddress : Nat
  useAfterFree : Bool

namespace Store

def empty : Store where
  registry := []
  memory := SessionInfo.fresh
  freed := []
  nextAddress := 0
  useAfterFree := false

/-- `session_info_cmp`, which reads the record. -/
def compare (st : Store) (id address : Nat) : Bool := (st.memory address).sessionId == id

/-- What `get_elem` on the registry returns. -/
def find (st : Store) (id : Nat) : Option Nat := st.registry.find? (st.compare id)

/-- Accessing fields of the records at some addresses. -/
def touch (st : Store) (addresses : List Nat) : Store :=
  { st with useAfterFree := st.useAfterFree || addresses.any st.freed.contains }

/-- Going through the registry for an id, up to the record that has it. -/
def scan (st : Store) (id : Nat) : Store :=
  st.touch (Fifo.visited (st.compare id) st.registry)

/-- Changing the record at an address. -/
def modify (st : Store) (address : Nat) (f : SessionInfo → SessionInfo) : Store :=
  let st := st.touch [address]
  { st with memory := Function.update st.memory address (f (st.memory address)) }

/-- `malloc` and `enqueue` of a new record in `get_session_info`. -/
def insert (st : Store) (id : Nat) : Store :=
  { st with
    registry := st.registry ++ [st.nextAddress]
    memory := Function.update st.memory st.nextAddress (SessionInfo.fresh id)
    nextAddress := st.nextAddress + 1 }

/-- `remove_elem(session_queue, &session->session_id, session_info_cmp)`: the id is read from the
record at `address`, and the first record with that id leaves the registry. -/
def unqueue (st : Store) (address : Nat) : Store :=
  let id := (st.memory address).sessionId
  let st := (st.touch [address]).scan id
  { st with registry := st.registry.eraseP (st.compare id) }

/-- `free(session)`. -/
def release (st : Store) (address : Nat) : Store :=
  { st with freed := st.freed ++ [address] }

/-- The next access of a handler, and the program that is left. `enter_critical_section` waits
while the mutex is taken. -/
def access (st : Store) (address : Nat) : Prog → Option (Store × Prog)
  | .done => none
  | .enter next =>
    if (st.memory address).sLock then none
    else some (st.modify address SessionInfo.enterCriticalSection, next)
  | .exit next => some (st.modify address SessionInfo.exitCriticalSection, next)
  | .read field next => some (st.touch [address], next ((st.memory address).get field))
  | .write field value next => some (st.modify address (·.set field value), next)

end Store

/-! ## Handling a job -/

/-- `struct client_txn` on its way through the server: its address, the descriptor it came in on,
the request it holds and what its handler will meet. `conn` is the accepted connection behind the
descriptor at that time; the code does not know it. -/
structure Job where
  address : Nat
  fd : Nat
  conn : Nat
  isTcpConnect : Bool
  request : NdmpRequest
  locals : Locals
  failed : Bool

/-- What the job's handler does to the record of its session. -/
def Job.prog (job : Job) : Option Prog := job.request.prog job.locals job.failed

def Job.replyEmpty (job : Job) : Bool := job.request.replyEmpty job.locals

def Job.isNotify (job : Job) : Bool := job.request.isNotify

/-- The three places that look the session up: `add_job_to_session`, the handler, and
`cleanup_session`. -/
inductive Purpose
  | add | handle | clean
  deriving DecidableEq, Repr

/-- What a worker does next. -/
inductive WorkerPc
  /-- `dequeue(ctx->request_jobs)` -/
  | idle
  /-- `get_elem` in `get_session_info` -/
  | find (purpose : Purpose) (job : Job)
  /-- `enqueue` in `get_session_info` -/
  | insert (purpose : Purpose) (job : Job)
  /-- `enqueue(session->jobs, txn)` -/
  | push (session : Nat) (job : Job)
  /-- an access of the handler -/
  | access (session : Nat) (prog : Prog) (job : Job)
  /-- `remove_elem(session->jobs, txn, job_cmp)` -/
  | pop (session : Nat) (job : Job)
  /-- `if (session->is_terminated)` -/
  | test (session : Nat) (job : Job)
  /-- `if (num_elems(session->jobs) == 0)` -/
  | count (session : Nat) (job : Job)
  /-- `remove_elem(session_queue, &session->session_id, session_info_cmp)` -/
  | unqueue (session : Nat) (job : Job)
  /-- `free(session)` -/
  | release (session : Nat) (job : Job)
  /-- `enqueue(ctx->reply_jobs, txn)` -/
  | reply (job : Job)

/-- Where a look-up returns to. -/
def afterLookup (purpose : Purpose) (session : Nat) (job : Job) : WorkerPc :=
  match purpose with
  | .add => .push session job
  | .handle => .access session (job.prog.getD .done) job
  | .clean => .pop session job

/-- From `add_job_to_session` to the handler, and from there to `cleanup_session`. -/
def afterPush (job : Job) : WorkerPc :=
  if job.prog.isSome then .find .handle job else .find .clean job

def afterAccess (session : Nat) (prog : Prog) (job : Job) : WorkerPc :=
  match prog with
  | .done => .find .clean job
  | prog => .access session prog job

/-- `cleanup_session(txn) == 1 || txn->reply.length == 0`, as far as it is decided at the test. -/
def afterTest (terminated : Bool) (session : Nat) (job : Job) : WorkerPc :=
  if terminated then .count session job else if job.replyEmpty then .idle else .reply job

/-- The steps of `xdr_decode_encode`, from the dequeued job to the decision about its reply. -/
def sessionStep (st : Store) : WorkerPc → Option (Store × WorkerPc)
  | .find purpose job =>
    match st.find job.fd with
    | some session => some (st.scan job.fd, afterLookup purpose session job)
    | none => some (st.scan job.fd, .insert purpose job)
  | .insert purpose job => some (st.insert job.fd, afterLookup purpose st.nextAddress job)
  | .push session job => some (st.modify session (·.addJob job.address), afterPush job)
  | .access session prog job =>
    (st.access session prog).map fun (st, next) => (st, afterAccess session next job)
  | .pop session job => some (st.modify session (·.removeJob job.address), .test session job)
  | .test session job =>
    some (st.touch [session], afterTest (st.memory session).isTerminated session job)
  | .count session job =>
    some (st.touch [session],
      if (st.memory session).jobs = [] then .unqueue session job else .idle)
  | .unqueue session job => some (st.unqueue session, .release session job)
  | .release session _ => some (st.release session, .idle)
  | .idle | .reply _ => none

/-! ## Where a job is -/

namespace WorkerPc

/-- The job a worker is handling, up to the decision about its reply. -/
def handling : WorkerPc → Option Job
  | .find _ job | .insert _ job | .push _ job | .access _ _ job | .pop _ job | .test _ job
  | .count _ job | .unqueue _ job | .release _ job => some job
  | .idle | .reply _ => none

/-- The job whose reply a worker is about to hand over. -/
def replying : WorkerPc → Option Job
  | .reply job => some job
  | _ => none

/-- The record a worker has a pointer to. -/
def session : WorkerPc → Option Nat
  | .push session _ | .access session _ _ | .pop session _ | .test session _ | .count session _
  | .unqueue session _ | .release session _ => some session
  | .idle | .find _ _ | .insert _ _ | .reply _ => none

theorem replying_of_handling {pc : WorkerPc} {job : Job} (h : pc.handling = some job) :
    pc.replying = none := by
  cases pc with
  | reply => cases h
  | _ => rfl

/-- `free(session)` comes next. -/
def releases : WorkerPc → Option Nat
  | .release session _ => some session
  | _ => none

end WorkerPc

@[simp] theorem afterLookup_handling (purpose : Purpose) (session : Nat) (job : Job) :
    (afterLookup purpose session job).handling = some job := by
  cases purpose <;> rfl

theorem afterLookup_session (purpose : Purpose) (session : Nat) (job : Job) :
    (afterLookup purpose session job).session = some session := by
  cases purpose <;> rfl

@[simp] theorem afterPush_handling (job : Job) : (afterPush job).handling = some job := by
  unfold afterPush
  split <;> rfl

@[simp] theorem afterAccess_handling (session : Nat) (prog : Prog) (job : Job) :
    (afterAccess session prog job).handling = some job := by
  cases prog <;> rfl

/-- The branches of `sessionStep`. -/
inductive HandlingStep (st : Store) : WorkerPc → Store → WorkerPc → Prop
  | found {purpose : Purpose} {job : Job} {session : Nat} (hfind : st.find job.fd = some session) :
    HandlingStep st (.find purpose job) (st.scan job.fd) (afterLookup purpose session job)
  | missing {purpose : Purpose} {job : Job} (hfind : st.find job.fd = none) :
    HandlingStep st (.find purpose job) (st.scan job.fd) (.insert purpose job)
  | insert {purpose : Purpose} {job : Job} :
    HandlingStep st (.insert purpose job) (st.insert job.fd)
      (afterLookup purpose st.nextAddress job)
  | push {session : Nat} {job : Job} :
    HandlingStep st (.push session job) (st.modify session (·.addJob job.address)) (afterPush job)
  | access {session : Nat} {prog next : Prog} {job : Job} {st' : Store}
    (haccess : st.access session prog = some (st', next)) :
    HandlingStep st (.access session prog job) st' (afterAccess session next job)
  | pop {session : Nat} {job : Job} :
    HandlingStep st (.pop session job) (st.modify session (·.removeJob job.address))
      (.test session job)
  | terminated {session : Nat} {job : Job} (hterm : (st.memory session).isTerminated = true) :
    HandlingStep st (.test session job) (st.touch [session]) (.count session job)
  | drop {session : Nat} {job : Job} (hterm : (st.memory session).isTerminated = false)
    (hempty : job.replyEmpty = true) :
    HandlingStep st (.test session job) (st.touch [session]) .idle
  | keep {session : Nat} {job : Job} (hterm : (st.memory session).isTerminated = false)
    (hempty : job.replyEmpty = false) :
    HandlingStep st (.test session job) (st.touch [session]) (.reply job)
  | last {session : Nat} {job : Job} (hjobs : (st.memory session).jobs = []) :
    HandlingStep st (.count session job) (st.touch [session]) (.unqueue session job)
  | others {session : Nat} {job : Job} (hjobs : (st.memory session).jobs ≠ []) :
    HandlingStep st (.count session job) (st.touch [session]) .idle
  | unqueue {session : Nat} {job : Job} :
    HandlingStep st (.unqueue session job) (st.unqueue session) (.release session job)
  | release {session : Nat} {job : Job} :
    HandlingStep st (.release session job) (st.release session) .idle

theorem handlingStep_of_sessionStep {st st' : Store} {pc pc' : WorkerPc}
    (h : sessionStep st pc = some (st', pc')) : HandlingStep st pc st' pc' := by
  cases pc with
  | idle | reply => cases h
  | find purpose job =>
    simp only [sessionStep] at h
    split at h <;> cases h
    · rename_i session hfind
      exact .found hfind
    · rename_i hfind
      exact .missing hfind
  | insert purpose job =>
    cases h
    exact .insert
  | push session job =>
    cases h
    exact .push
  | access session prog job =>
    obtain ⟨⟨st₁, next⟩, haccess, hx⟩ := Option.map_eq_some_iff.1 h
    cases hx
    exact .access haccess
  | pop session job =>
    cases h
    exact .pop
  | test session job =>
    cases h
    unfold afterTest
    cases hterm : (st.memory session).isTerminated with
    | true => exact .terminated hterm
    | false =>
      cases hempty : job.replyEmpty with
      | true => exact .drop hterm hempty
      | false => exact .keep hterm hempty
  | count session job =>
    cases h
    by_cases hjobs : (st.memory session).jobs = []
    · rw [if_pos hjobs]
      exact .last hjobs
    · rw [if_neg hjobs]
      exact .others hjobs
  | unqueue session job =>
    cases h
    exact .unqueue
  | release session job =>
    cases h
    exact .release

/-- A step of handling keeps the job, drops it, or decides that its reply is sent. -/
theorem sessionStep_cases {st st' : Store} {pc pc' : WorkerPc}
    (h : sessionStep st pc = some (st', pc')) :
    ∃ job, pc.handling = some job ∧ (pc'.handling = some job ∨ pc' = .idle ∨
      ∃ session, pc = .test session job ∧ (st.memory session).isTerminated = false ∧
        job.replyEmpty = false ∧ pc' = .reply job) := by
  cases handlingStep_of_sessionStep h with
  | found | insert => exact ⟨_, rfl, Or.inl (afterLookup_handling _ _ _)⟩
  | push => exact ⟨_, rfl, Or.inl (afterPush_handling _)⟩
  | access => exact ⟨_, rfl, Or.inl (afterAccess_handling _ _ _)⟩
  | missing | pop | terminated | last | unqueue => exact ⟨_, rfl, Or.inl rfl⟩
  | drop | others | release => exact ⟨_, rfl, Or.inr (Or.inl rfl)⟩
  | keep hterm hempty => exact ⟨_, rfl, Or.inr (Or.inr ⟨_, rfl, hterm, hempty, rfl⟩)⟩

end GlfsNdmp
