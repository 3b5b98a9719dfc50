import GlfsNdmp.Access
import GlfsNdmp.Lib.Locking

/-!
# What the threads run

The functions of `queue.c`, the look-ups of `ndmp_msg.c`, the handlers and the loops of `comm.c`
and `worker.c`, as code that takes and releases mutexes. A function that is called and goes on
somewhere else takes what comes after it as an argument.

A mutex is reached through a pointer in memory, and it is the memory of that moment that counts: a
handler reads `session_info->s_lock` once to enter and once more to exit. What has been freed may
hold anything by then.
-/

namespace GlfsNdmp.Threads

open Locking (Code)

/-! ## Memory -/

/-- The queues: those of `comm_context`, the registry as `get_session_queue` makes it, and the jobs
of the record at an address. -/
inductive Queue
  | sessions
  | requestJobs
  | replyJobs
  | sessionInfo (n : Nat)
  | jobs (session : Nat)
  deriving DecidableEq, Repr

/-- The mutexes, by the call of `get_lock` they come from. -/
inductive Lock
  /-- `hdr->lock` -/
  | queue (q : Queue)
  /-- `session_info->s_lock`, made with the record at an address. -/
  | session (address : Nat)
  /-- `s_lock` in a call of `get_session_info`. -/
  | getSessionInfo (n : Nat)
  /-- `s_lock` in a call of `get_session_queue`. -/
  | getSessionQueue (n : Nat)
  deriving DecidableEq, Repr

/-- `struct ndmp_session_info` as it lies in memory. -/
structure SessionRecord where
  sessionId : Nat
  word : Field → Int
  sLock : Lock
  jobs : Queue
  isTerminated : Bool

/-- The record `get_session_info` makes at an address. -/
def SessionRecord.fresh (address sessionId : Nat) : SessionRecord where
  sessionId := sessionId
  word := (SessionInfo.fresh sessionId).get
  sLock := .session address
  jobs := .jobs address
  isTerminated := false

/-- `struct client_txn`: the session it came in on, the request it holds and what its handler will
meet. -/
structure Txn where
  sessionId : Nat
  request : NdmpRequest
  locals : Locals
  failed : Bool

/-- The nodes of the queues by address, first to last, with their elements; the static of
`get_session_queue`; the records; the transactions; what has been freed; and the numbers of what
`malloc` returns next. Addresses are not used twice: that memory is used again shows in what is
found at a freed address. An element of `sessions` stands for its descriptor. -/
structure Memory where
  nodes : Queue → List Nat
  elem : Nat → Nat
  sessionInfoQueue : Option Nat
  record : Nat → SessionRecord
  txn : Nat → Txn
  freedNode : Nat → Bool
  freedRecord : Nat → Bool
  nextNode : Nat
  nextLock : Nat
  nextQueue : Nat
  nextRecord : Nat
  nextTxn : Nat

def Memory.boot : Memory where
  nodes _ := []
  elem _ := 0
  sessionInfoQueue := none
  record address := .fresh address 0
  txn _ := ⟨0, .errorMessage, default, false⟩
  freedNode _ := false
  freedRecord _ := false
  nextNode := 0
  nextLock := 0
  nextQueue := 0
  nextRecord := 0
  nextTxn := 0

namespace Memory

variable (m : Memory)

/-- A node at the end of a queue. -/
def append (q : Queue) (elem : Nat) : Memory :=
  { m with
    nodes := Function.update m.nodes q (m.nodes q ++ [m.nextNode])
    elem := Function.update m.elem m.nextNode elem
    nextNode := m.nextNode + 1 }

/-- A node leaves a queue and is freed. -/
def unlink (q : Queue) (node : Nat) : Memory :=
  { m with
    nodes := Function.update m.nodes q ((m.nodes q).erase node)
    freedNode := Function.update m.freedNode node true }

/-- `malloc` of a record in `get_session_info`. -/
def newRecord (sessionId : Nat) : Memory :=
  { m with
    record := Function.update m.record m.nextRecord (.fresh m.nextRecord sessionId)
    nextRecord := m.nextRecord + 1 }

def modify (address : Nat) (f : SessionRecord → SessionRecord) : Memory :=
  { m with record := Function.update m.record address (f (m.record address)) }

/-- `free(session)`. -/
def freeRecord (address : Nat) : Memory :=
  { m with freedRecord := Function.update m.freedRecord address true }

/-- `malloc` of a transaction. -/
def newTxn (txn : Txn) : Memory :=
  { m with txn := Function.update m.txn m.nextTxn txn, nextTxn := m.nextTxn + 1 }

/-- `get_lock` in a function that keeps the mutex to itself. -/
def newLock : Memory := { m with nextLock := m.nextLock + 1 }

/-- `session_info_queue = init_queue()` -/
def newQueue : Memory :=
  { m with sessionInfoQueue := some m.nextQueue, nextQueue := m.nextQueue + 1 }

end Memory

/-! ## Kinds of accesses -/

abbrev Prg := Code Memory Lock

/-- An access to what is never freed. -/
def shared (update : Memory → Memory) (next : Memory → Prg) : Prg :=
  .access (fun _ => true) update next

/-- An access to the record at an address. -/
def onRecord (address : Nat) (update : SessionRecord → SessionRecord)
    (next : SessionRecord → Prg) : Prg :=
  .access (fun m => !m.freedRecord address) (fun m => m.modify address update)
    fun m => next (m.record address)

/-- `cmp(target, node->elem)`, and whether what it reads is still there. -/
structure Comparator where
  legal : Memory → Nat → Bool
  test : Memory → Nat → Bool

/-- `session_info_cmp`, with the id in a variable of the caller. -/
def sessionInfoCmp (sessionId : Nat) : Comparator where
  legal m elem := !m.freedRecord elem
  test m elem := (m.record elem).sessionId == sessionId

/-- `session_info_cmp`, with the id in a record. -/
def sessionInfoCmpOf (address : Nat) : Comparator where
  legal m elem := !m.freedRecord address && !m.freedRecord elem
  test m elem := (m.record elem).sessionId == (m.record address).sessionId

/-- `job_cmp`, and `session_comparator` on descriptors. -/
def equals (target : Nat) : Comparator where
  legal _ _ := true
  test _ elem := elem == target

/-! ## `queue.c` -/

def enqueue (q : Queue) (elem : Nat) (k : Prg) : Prg :=
  .call <| .enter (.queue q) <| shared (·.append q elem) fun _ => .exit (.queue q) <| .ret k

/-- An empty queue returns early. -/
def dequeue (q : Queue) (k : Option Nat → Prg) : Prg :=
  .call <| .enter (.queue q) <| shared id fun m =>
    match m.nodes q with
    | [] => .exit (.queue q) <| .ret (k none)
    | node :: _ =>
      shared (·.unlink q node) fun m => .exit (.queue q) <| .ret (k (some (m.elem node)))

/-- The loop of `get_elem`: a match returns from inside it, and reads the node once more after it
has given the mutex back. -/
def getElemLoop (q : Queue) (cmp : Comparator) (k : Option Nat → Prg) : List Nat → Prg
  | [] => .exit (.queue q) <| .ret (k none)
  | node :: nodes =>
    .access (fun m => cmp.legal m (m.elem node)) id fun m =>
      if cmp.test m (m.elem node) then
        .exit (.queue q) <| .access (fun m => !m.freedNode node) id fun m =>
          .ret (k (some (m.elem node)))
      else getElemLoop q cmp k nodes

def getElem (q : Queue) (cmp : Comparator) (k : Option Nat → Prg) : Prg :=
  .call <| .enter (.queue q) <| shared id fun m => getElemLoop q cmp k (m.nodes q)

/-- The loop of `remove_elem`: a match leaves it. -/
def removeElemLoop (q : Queue) (cmp : Comparator) (k : Prg) : List Nat → Prg
  | [] => .exit (.queue q) <| .ret k
  | node :: nodes =>
    .access (fun m => cmp.legal m (m.elem node)) id fun m =>
      if cmp.test m (m.elem node) then
        shared (·.unlink q node) fun _ => .exit (.queue q) <| .ret k
      else removeElemLoop q cmp k nodes

def removeElem (q : Queue) (cmp : Comparator) (k : Prg) : Prg :=
  .call <| .enter (.queue q) <| shared id fun m => removeElemLoop q cmp k (m.nodes q)

def numElems (q : Queue) (k : Nat → Prg) : Prg :=
  .call <| .enter (.queue q) <| shared id fun m =>
    .exit (.queue q) <| .ret (k (m.nodes q).length)

/-- `get_all_elems`: the first node is read before the mutex is taken. -/
def getAllElems (q : Queue) (k : List Nat → Prg) : Prg :=
  .call <| numElems q fun _ => shared id fun m =>
    let first := (m.nodes q).head?
    .enter (.queue q) <|
      .access (fun m => first.all fun node => !m.freedNode node) id fun m =>
        .exit (.queue q) <|
          .ret (k (((m.nodes q).dropWhile fun node => some node ≠ first).map m.elem))

/-! ## `ndmp_msg.c` -/

/-- `get_session_queue`, whose mutex no other call knows. -/
def getSessionQueue (k : Queue → Prg) : Prg :=
  .call <| shared Memory.newLock fun m =>
    let sLock : Lock := .getSessionQueue m.nextLock
    let return' : Prg :=
      .exit sLock <| shared id fun m => .ret (k (.sessionInfo (m.sessionInfoQueue.getD 0)))
    .enter sLock <| shared id fun m =>
      match m.sessionInfoQueue with
      | none => shared Memory.newQueue fun _ => return'
      | some _ => return'

/-- `get_session_info`, likewise. -/
def getSessionInfo (sessionId : Nat) (k : Nat → Prg) : Prg :=
  .call <| shared Memory.newLock fun m =>
    let sLock : Lock := .getSessionInfo m.nextLock
    .enter sLock <| getSessionQueue fun q => getElem q (sessionInfoCmp sessionId) fun
      | some session => .exit sLock <| .ret (k session)
      | none => shared (·.newRecord sessionId) fun m =>
        enqueue q m.nextRecord <| .exit sLock <| .ret (k m.nextRecord)

def addJobToSession (address : Nat) (txn : Txn) (k : Prg) : Prg :=
  .call <| getSessionInfo txn.sessionId fun session =>
    onRecord session id fun r => enqueue r.jobs address <| .ret k

/-- A handler from its look-up on. -/
def progCode (session : Nat) (k : Prg) : Prog → Prg
  | .done => k
  | .enter next => onRecord session id fun r => .enter r.sLock (progCode session k next)
  | .exit next => onRecord session id fun r => .exit r.sLock (progCode session k next)
  | .read field next => onRecord session id fun r => progCode session k (next (r.word field))
  | .write field value next =>
    onRecord session (fun r => { r with word := Function.update r.word field value })
      fun _ => progCode session k next

/-- `ndmp_dispatch(header.message)(txn, header, &request_stream)` -/
def ndmpDispatch (txn : Txn) (k : Prg) : Prg :=
  match txn.request.prog txn.locals txn.failed with
  | some prog =>
    .call <| getSessionInfo txn.sessionId fun session => progCode session (.ret k) prog
  | none => .call <| .ret k

def cleanupSession (address : Nat) (txn : Txn) (k : Bool → Prg) : Prg :=
  .call <| getSessionInfo txn.sessionId fun session =>
    onRecord session id fun r => removeElem r.jobs (equals address) <|
      onRecord session id fun r =>
        if r.isTerminated then
          onRecord session id fun r => numElems r.jobs fun n =>
            if n = 0 then
              getSessionQueue fun q => removeElem q (sessionInfoCmpOf session) <|
                .access (fun m => !m.freedRecord session) (·.freeRecord session) fun _ =>
                  .ret (k true)
            else .ret (k true)
        else .ret (k false)

def terminateSession (sessionId : Nat) (k : Prg) : Prg :=
  .call <| getSessionInfo sessionId fun session =>
    onRecord session (fun r => { r with isTerminated := true }) fun _ => .ret k

def xdrDecodeEncode (address : Nat) (txn : Txn) (k : Prg) : Prg :=
  .call <| addJobToSession address txn <| ndmpDispatch txn <|
    cleanupSession address txn fun terminated =>
      if terminated || txn.request.replyEmpty txn.locals then .ret k
      else enqueue .replyJobs address <| .ret k

/-! ## The loops -/

/-- `set_fd_flags`, for the descriptors `select` is to watch. -/
def setFdFlags : Prg :=
  .call <| getAllElems .sessions fun _ => numElems .sessions fun _ => .ret .done

/-- `accept_all_connections`, for the descriptor `accept` returns. -/
def acceptAllConnections (fd : Nat) : Prg :=
  .call <| enqueue .sessions fd <| shared (·.newTxn ⟨fd, .acceptNotify, default, false⟩) fun m =>
    enqueue .requestJobs m.nextTxn <| .ret .done

/-- `handle_a_client_request`: what `recv` returns, or `none` where it returns 0. -/
def handleAClientRequest (fd : Nat) (received : Option (NdmpRequest × Locals × Bool)) : Prg :=
  .call <| getElem .sessions (equals fd) fun
    -- The source would go on with `NULL` here.
    | none => .ret .done
    | some _ =>
      match received with
      | none => removeElem .sessions (equals fd) <| terminateSession fd <| .ret .done
      | some (request, locals, failed) =>
        shared (·.newTxn ⟨fd, request, locals, failed⟩) fun m =>
          enqueue .requestJobs m.nextTxn <| .ret .done

/-- One turn of `run_job`. -/
def runJob : Prg :=
  dequeue .requestJobs fun
    | none => .done
    | some address => shared id fun m => xdrDecodeEncode address (m.txn address) .done

/-- One turn of `process_response`. -/
def processResponse : Prg :=
  dequeue .replyJobs fun
    | none => .done
    | some address => shared id fun m =>
      getElem .sessions (equals (m.txn address).sessionId) fun _ => .done

/-! ## The system -/

/-- What a thread was created for. -/
inductive Role
  | main | worker | responder
  deriving DecidableEq, Repr

/-- The turns of the three loops. -/
inductive Task
  | setFdFlags
  | acceptAllConnections (fd : Nat)
  | handleAClientRequest (fd : Nat) (received : Option (NdmpRequest × Locals × Bool))
  | runJob
  | processResponse

def Task.code : Role → Task → Option Prg
  | .main, .setFdFlags => some Threads.setFdFlags
  | .main, .acceptAllConnections fd => some (Threads.acceptAllConnections fd)
  | .main, .handleAClientRequest fd received => some (Threads.handleAClientRequest fd received)
  | .worker, .runJob => some Threads.runJob
  | .responder, .processResponse => some Threads.processResponse
  | _, _ => none

/-- Freed memory is put to another use. -/
inductive Reuse
  | node (address elem : Nat)
  | record (address : Nat) (content : SessionRecord)

def Memory.reuse (m : Memory) : Reuse → Option Memory
  | .node address elem =>
    if m.freedNode address then some { m with elem := Function.update m.elem address elem }
    else none
  | .record address content =>
    if m.freedRecord address then some (m.modify address fun _ => content) else none

/-- The threads of the server, each with its role, and their memory. -/
def server {τ : Type*} (role : τ → Role) : Locking.System τ Memory Lock Task Reuse where
  task t task := task.code (role t)
  outside := Memory.reuse

end GlfsNdmp.Threads
