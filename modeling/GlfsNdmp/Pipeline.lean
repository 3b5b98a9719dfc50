import GlfsNdmp.Lib.Lts
import GlfsNdmp.Store

/-!
# The threads of the server

The comm loop accepts connections, receives requests and notices closed sockets; the workers take
jobs from `request_jobs`, handle them and put the replies on `reply_jobs`; the responder sends the
replies. They share the two queues, `ctx->sessions`, the session records and, through the kernel,
the descriptors: a number the loop has closed may be returned by a later `accept`, while jobs with
that number are still on their way. The records are those of `GlfsNdmp.Store`, whose registry is
there from the start.

`exec` is one step of one thread. `sent` is what has reached the clients, the rest of the history
(`replied`, `terminated`) what the results about runs speak of.
-/

namespace GlfsNdmp.Pipeline

/-! ## Threads -/

/-- What the comm loop does next. Descriptors come with the connection they stand for. -/
inductive MainPc
  /-- `select`, then `accept` or `recv` -/
  | idle
  /-- `enqueue(ctx->sessions, new_session)` -/
  | accepted (fd conn : Nat)
  /-- `enqueue(ctx->request_jobs, txn)` for a new connection -/
  | announced (fd conn : Nat)
  /-- `close(fd)` -/
  | closing (fd conn : Nat)
  /-- `remove_elem(ctx->sessions, &tmp, session_comparator)` -/
  | closed (fd conn : Nat)
  /-- `get_elem` in `terminate_session` -/
  | find (fd conn : Nat)
  /-- `enqueue` in `terminate_session` -/
  | insert (fd conn : Nat)
  /-- `session->is_terminated = 1` -/
  | mark (fd conn session : Nat)
  deriving DecidableEq, Repr

/-- What the responder does next. -/
inductive ResponderPc
  /-- `dequeue(ctx->reply_jobs)` -/
  | idle
  /-- `get_elem(ctx->sessions, &client_session, session_comparator)` -/
  | check (job : Job)
  /-- `send(fd, reply.message, reply.length, 0)` -/
  | send (job : Job)

/-- A reply that reached a client: the job it answers, and the connection it was sent on. -/
structure Delivery where
  job : Job
  conn : Nat

/-- The reply the responder has in hand. -/
def ResponderPc.job : ResponderPc → Option Job
  | .idle => none
  | .check job | .send job => some job

variable {ι : Type*}

structure State (ι : Type*) where
  main : MainPc
  workers : ι → WorkerPc
  responder : ResponderPc
  /-- The open descriptors, with their connection. -/
  kernel : Nat → Option Nat
  sessions : List Nat
  requestJobs : List Job
  replyJobs : List Job
  store : Store
  nextConn : Nat
  nextJob : Nat
  sent : List Delivery
  /-- The jobs that have been put on `reply_jobs`. -/
  replied : List Job
  /-- The connections whose session has been terminated. -/
  terminated : List Nat

def start : State ι where
  main := .idle
  workers _ := .idle
  responder := .idle
  kernel _ := none
  sessions := []
  requestJobs := []
  replyJobs := []
  store := .empty
  nextConn := 0
  nextJob := 0
  sent := []
  replied := []
  terminated := []

inductive Action (ι : Type*)
  /-- `accept` returns `fd` for a new connection. -/
  | accept (fd : Nat)
  /-- `recv` returns a request of the client. -/
  | request (fd : Nat) (request : NdmpRequest) (locals : Locals) (failed : Bool)
  /-- `recv` returns 0. -/
  | hangup (fd : Nat)
  /-- The comm loop goes on. -/
  | main
  | worker (i : ι)
  | responder

/-! ## Steps -/

/-- `accept`: any number that is not open. -/
def State.accept (s : State ι) (fd : Nat) : Option (State ι) :=
  match s.main, s.kernel fd with
  | .idle, none =>
    some { s with
      main := .accepted fd s.nextConn
      kernel := Function.update s.kernel fd (some s.nextConn)
      nextConn := s.nextConn + 1 }
  | _, _ => none

/-- `handle_a_client_request` with data: the job goes to the workers. -/
def State.request (s : State ι) (fd : Nat) (request : NdmpRequest) (locals : Locals)
    (failed : Bool) : Option (State ι) :=
  match s.main, s.kernel fd with
  | .idle, some conn =>
    if fd ∈ s.sessions then
      some { s with
        requestJobs := s.requestJobs ++ [⟨s.nextJob, fd, conn, false, request, locals, failed⟩]
        nextJob := s.nextJob + 1 }
    else none
  | _, _ => none

/-- `handle_a_client_request` without data. -/
def State.hangup (s : State ι) (fd : Nat) : Option (State ι) :=
  match s.main, s.kernel fd with
  | .idle, some conn => if fd ∈ s.sessions then some { s with main := .closing fd conn } else none
  | _, _ => none

/-- The comm loop between two calls of `select`. -/
def State.mainStep (s : State ι) : Option (State ι) :=
  match s.main with
  | .idle => none
  | .accepted fd conn => some { s with main := .announced fd conn, sessions := s.sessions ++ [fd] }
  | .announced fd conn =>
    some { s with
      main := .idle
      requestJobs := s.requestJobs ++ [⟨s.nextJob, fd, conn, true, .acceptNotify, default, false⟩]
      nextJob := s.nextJob + 1 }
  | .closing fd conn =>
    some { s with main := .closed fd conn, kernel := Function.update s.kernel fd none }
  | .closed fd conn => some { s with main := .find fd conn, sessions := s.sessions.erase fd }
  | .find fd conn =>
    match s.store.find fd with
    | some session => some { s with main := .mark fd conn session, store := s.store.scan fd }
    | none => some { s with main := .insert fd conn, store := s.store.scan fd }
  | .insert fd conn =>
    some { s with main := .mark fd conn s.store.nextAddress, store := s.store.insert fd }
  | .mark _ conn session =>
    some { s with
      main := .idle
      store := s.store.modify session SessionInfo.terminate
      terminated := s.terminated ++ [conn] }

/-- `process_response`. A `send` on a number that is not open fails. -/
def State.responderStep (s : State ι) : Option (State ι) :=
  match s.responder with
  | .idle =>
    match s.replyJobs with
    | [] => none
    | job :: jobs => some { s with responder := .check job, replyJobs := jobs }
  | .check job => some { s with responder := if job.fd ∈ s.sessions then .send job else .idle }
  | .send job =>
    some { s with
      responder := .idle
      sent := match s.kernel job.fd with
        | some conn => s.sent ++ [⟨job, conn⟩]
        | none => s.sent }

variable [DecidableEq ι]

def State.goto (s : State ι) (i : ι) (pc : WorkerPc) : State ι :=
  { s with workers := Function.update s.workers i pc }

/-- `run_job`. -/
def State.workerStep (s : State ι) (i : ι) : Option (State ι) :=
  match s.workers i with
  | .idle =>
    match s.requestJobs with
    | [] => none
    | job :: jobs => some ({ s with requestJobs := jobs }.goto i (.find .add job))
  | .reply job =>
    some ({ s with replyJobs := s.replyJobs ++ [job], replied := s.replied ++ [job] }.goto i .idle)
  | pc => (sessionStep s.store pc).map fun (store, pc) => { s with store := store }.goto i pc

def exec (s : State ι) : Action ι → Option (State ι)
  | .accept fd => s.accept fd
  | .request fd request locals failed => s.request fd request locals failed
  | .hangup fd => s.hangup fd
  | .main => s.mainStep
  | .worker i => s.workerStep i
  | .responder => s.responderStep

/-! ## What a step of a worker does -/

@[simp] theorem State.goto_workers_self (s : State ι) (i : ι) (pc : WorkerPc) :
    (s.goto i pc).workers i = pc := by
  simp [State.goto]

theorem State.goto_workers_other (s : State ι) {i j : ι} (pc : WorkerPc) (h : j ≠ i) :
    (s.goto i pc).workers j = s.workers j := by
  simp [State.goto, h]

/-! ## The table of open descriptors -/

theorem open_of_update {kernel : Nat → Option Nat} {fd fd' conn : Nat} {o : Option Nat}
    (h : Function.update kernel fd' o fd = some conn) :
    fd = fd' ∧ o = some conn ∨ fd ≠ fd' ∧ kernel fd = some conn := by
  by_cases hfd : fd = fd'
  · subst hfd
    exact Or.inl ⟨rfl, (Function.update_self fd o kernel).symm.trans h⟩
  · exact Or.inr ⟨hfd, (Function.update_of_ne hfd o kernel).symm.trans h⟩

theorem free_of_update {kernel : Nat → Option Nat} {fd fd' : Nat} {o : Option Nat}
    (h : Function.update kernel fd' o fd = none) :
    fd = fd' ∧ o = none ∨ fd ≠ fd' ∧ kernel fd = none := by
  by_cases hfd : fd = fd'
  · subst hfd
    exact Or.inl ⟨rfl, (Function.update_self fd o kernel).symm.trans h⟩
  · exact Or.inr ⟨hfd, (Function.update_of_ne hfd o kernel).symm.trans h⟩

/-! ## All steps -/

/-- What a step can do, case by case. -/
inductive Step (s : State ι) : Action ι → State ι → Prop
  | accept {fd : Nat} (hmain : s.main = .idle) (hfree : s.kernel fd = none) :
    Step s (.accept fd) { s with
      main := .accepted fd s.nextConn
      kernel := Function.update s.kernel fd (some s.nextConn)
      nextConn := s.nextConn + 1 }
  | request {fd conn : Nat} {request : NdmpRequest} {locals : Locals} {failed : Bool}
    (hmain : s.main = .idle) (hopen : s.kernel fd = some conn) (hfd : fd ∈ s.sessions) :
    Step s (.request fd request locals failed) { s with
      requestJobs := s.requestJobs ++ [⟨s.nextJob, fd, conn, false, request, locals, failed⟩]
      nextJob := s.nextJob + 1 }
  | hangup {fd conn : Nat} (hmain : s.main = .idle) (hopen : s.kernel fd = some conn)
    (hfd : fd ∈ s.sessions) : Step s (.hangup fd) { s with main := .closing fd conn }
  | announce {fd conn : Nat} (hmain : s.main = .accepted fd conn) :
    Step s .main { s with main := .announced fd conn, sessions := s.sessions ++ [fd] }
  | connect {fd conn : Nat} (hmain : s.main = .announced fd conn) :
    Step s .main { s with
      main := .idle
      requestJobs := s.requestJobs ++ [⟨s.nextJob, fd, conn, true, .acceptNotify, default, false⟩]
      nextJob := s.nextJob + 1 }
  | close {fd conn : Nat} (hmain : s.main = .closing fd conn) :
    Step s .main { s with main := .closed fd conn, kernel := Function.update s.kernel fd none }
  | forget {fd conn : Nat} (hmain : s.main = .closed fd conn) :
    Step s .main { s with main := .find fd conn, sessions := s.sessions.erase fd }
  | hit {fd conn session : Nat} (hmain : s.main = .find fd conn)
    (hfind : s.store.find fd = some session) :
    Step s .main { s with main := .mark fd conn session, store := s.store.scan fd }
  | miss {fd conn : Nat} (hmain : s.main = .find fd conn) (hfind : s.store.find fd = none) :
    Step s .main { s with main := .insert fd conn, store := s.store.scan fd }
  | insert {fd conn : Nat} (hmain : s.main = .insert fd conn) :
    Step s .main { s with
      main := .mark fd conn s.store.nextAddress
      store := s.store.insert fd }
  | mark {fd conn session : Nat} (hmain : s.main = .mark fd conn session) :
    Step s .main { s with
      main := .idle
      store := s.store.modify session SessionInfo.terminate
      terminated := s.terminated ++ [conn] }
  | take {i : ι} {job : Job} {jobs : List Job} (hpc : s.workers i = .idle)
    (hjobs : s.requestJobs = job :: jobs) :
    Step s (.worker i) ({ s with requestJobs := jobs }.goto i (.find .add job))
  | put {i : ι} {job : Job} (hpc : s.workers i = .reply job) :
    Step s (.worker i) ({ s with
      replyJobs := s.replyJobs ++ [job]
      replied := s.replied ++ [job] }.goto i .idle)
  | handle {i : ι} {store : Store} {pc : WorkerPc}
    (hstep : sessionStep s.store (s.workers i) = some (store, pc)) :
    Step s (.worker i) ({ s with store := store }.goto i pc)
  | receive {job : Job} {jobs : List Job} (hresponder : s.responder = .idle)
    (hjobs : s.replyJobs = job :: jobs) :
    Step s .responder { s with responder := .check job, replyJobs := jobs }
  | check {job : Job} (hresponder : s.responder = .check job) :
    Step s .responder { s with responder := if job.fd ∈ s.sessions then .send job else .idle }
  | send {job : Job} (hresponder : s.responder = .send job) :
    Step s .responder { s with
      responder := .idle
      sent := match s.kernel job.fd with
        | some conn => s.sent ++ [⟨job, conn⟩]
        | none => s.sent }

theorem step_of_exec {s s' : State ι} {a : Action ι} (h : exec s a = some s') : Step s a s' := by
  cases a with
  | accept fd =>
    simp only [exec, State.accept] at h
    split at h
    · rename_i hmain hfree
      cases h
      exact .accept hmain hfree
    · cases h
  | request fd request locals failed =>
    simp only [exec, State.request] at h
    split at h
    · rename_i hmain hopen
      split at h
      · rename_i hfd
        cases h
        exact .request hmain hopen hfd
      · cases h
    · cases h
  | hangup fd =>
    simp only [exec, State.hangup] at h
    split at h
    · rename_i hmain hopen
      split at h
      · rename_i hfd
        cases h
        exact .hangup hmain hopen hfd
      · cases h
    · cases h
  | main =>
    simp only [exec, State.mainStep] at h
    split at h
    · cases h
    · rename_i hmain
      cases h
      exact .announce hmain
    · rename_i hmain
      cases h
      exact .connect hmain
    · rename_i hmain
      cases h
      exact .close hmain
    · rename_i hmain
      cases h
      exact .forget hmain
    · rename_i hmain
      split at h
      · rename_i hfind
        cases h
        exact .hit hmain hfind
      · rename_i hfind
        cases h
        exact .miss hmain hfind
    · rename_i hmain
      cases h
      exact .insert hmain
    · rename_i hmain
      cases h
      exact .mark hmain
  | worker i =>
    simp only [exec, State.workerStep] at h
    split at h
    · rename_i hpc
      split at h
      · cases h
      · rename_i job jobs hjobs
        cases h
        exact .take hpc hjobs
    · rename_i job hpc
      cases h
      exact .put hpc
    · obtain ⟨⟨store, pc⟩, hstep, rfl⟩ := Option.map_eq_some_iff.1 h
      exact .handle hstep
  | responder =>
    simp only [exec, State.responderStep] at h
    split at h
    · rename_i hresponder
      split at h
      · cases h
      · rename_i job jobs hjobs
        cases h
        exact .receive hresponder hjobs
    · rename_i job hresponder
      cases h
      exact .check hresponder
    · rename_i job hresponder
      cases h
      exact .send hresponder

end GlfsNdmp.Pipeline
