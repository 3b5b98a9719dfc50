import GlfsNdmp.Queue
import GlfsNdmp.Serial

/-!
# What becomes of a transaction

The server's one worker takes every transaction from `request_jobs`, lets its handler make a reply,
asks `cleanup_session`, and drops the transaction or puts it on `reply_jobs`. A `History` is a state
of the threads with what has happened: the transactions queued, the answers of `cleanup_session`,
the transactions put on `reply_jobs` with the sequence field of their header, and those the
responder has taken from there.

`replies_of_run` is the account of it: nothing is lost, doubled or overtaken on the way.
-/

namespace GlfsNdmp

/-- The requests whose handler builds a header, by `set_header` or on its own. -/
def NdmpRequest.buildsHeader : NdmpRequest → Bool
  | .connectClose | .dataGetState => false
  | _ => true

/-! ## The worker -/

namespace WorkerPc

/-- The job the worker has in hand while `cleanup_session` is still to be asked. -/
def untested : WorkerPc → Option Job
  | .find _ job | .insert _ job | .push _ job | .access _ _ job | .pop _ job | .test _ job =>
    some job
  | .count _ _ | .unqueue _ _ | .release _ _ | .reply _ | .idle => none

/-- The job the worker has in hand if its handler has returned. -/
def returned : WorkerPc → Option Job
  | .find .clean job | .insert .clean job | .pop _ job | .test _ job | .count _ job
  | .unqueue _ job | .release _ job | .reply job => some job
  | _ => none

end WorkerPc

namespace Pipeline

/-- What `cleanup_session` says of a job: whether its session is terminated. -/
structure Verdict where
  job : Job
  terminated : Bool

/-- `cleanup_session(txn) == 1 || txn->reply.length == 0`, the other way round. -/
def Verdict.kept (v : Verdict) : Bool := !v.terminated && !v.job.replyEmpty

/-- The jobs that are to be answered. -/
def keptJobs (vs : List Verdict) : List Job := (vs.filter Verdict.kept).map Verdict.job

/-- `if (session->is_terminated)` in `cleanup_session`. -/
def verdictOf (st : Store) : WorkerPc → List Verdict
  | .test session job => [⟨job, (st.memory session).isTerminated⟩]
  | _ => []

/-! ## Sequence numbers -/

/-- The static variable of `get_next_seq_number`, how often it has been called, the sequence field
of the header the worker has built, and the transactions it has put on `reply_jobs` with theirs. -/
structure Numbering where
  sequenceNumber : Int
  built : Nat
  header : Option Int
  replies : List (Job × Option Int)

namespace Numbering

def start : Numbering where
  sequenceNumber := 1
  built := 0
  header := none
  replies := []

/-- `get_next_seq_number`, for the header of the reply. -/
def build (n : Numbering) : Numbering :=
  { n with
    sequenceNumber := int32 (n.sequenceNumber + 1)
    built := n.built + 1
    header := some n.sequenceNumber }

/-- A step of the worker. The number of the header is taken while the handler runs; no one else
takes any. -/
def step (n : Numbering) : WorkerPc → WorkerPc → Numbering
  | .idle, _ => { n with header := none }
  | .reply job, _ => { n with header := none, replies := n.replies ++ [(job, n.header)] }
  | _, .find .clean job => if job.request.buildsHeader then n.build else n
  | _, _ => n

/-- The sequence fields along `reply_jobs`. -/
def sequences (n : Numbering) : List Int := n.replies.filterMap Prod.snd

end Numbering

/-! ## Histories -/

structure History where
  state : State Unit
  /-- What has been put on `request_jobs`. -/
  queued : List Job
  verdicts : List Verdict
  numbering : Numbering
  /-- What has left `reply_jobs`. -/
  left : List Job

namespace History

def start : History where
  state := Pipeline.start
  queued := []
  verdicts := []
  numbering := .start
  left := []

/-- What the responder takes from `reply_jobs`. -/
def departure (s : State Unit) : Action Unit → List Job
  | .responder =>
    match s.responder with
    | .idle => s.replyJobs.head?.toList
    | _ => []
  | _ => []

def verdict (s : State Unit) : Action Unit → List Verdict
  | .worker _ => verdictOf s.store (s.workers ())
  | _ => []

def number (n : Numbering) (s s' : State Unit) : Action Unit → Numbering
  | .worker _ => n.step (s.workers ()) (s'.workers ())
  | _ => n

/-- What is to be noted of a step. -/
def next (h : History) (a : Action Unit) (s' : State Unit) : History where
  state := s'
  queued := h.queued ++ h.state.arrival a
  verdicts := h.verdicts ++ verdict h.state a
  numbering := number h.numbering h.state s' a
  left := h.left ++ departure h.state a

/-- A step of the threads, with what happens in it. -/
def exec (h : History) (a : Action Unit) : Option History :=
  (Pipeline.exec h.state a).map (h.next a)

/-- Nothing is on its way any more. -/
structure Drained (h : History) : Prop where
  requestJobs : h.state.requestJobs = []
  replyJobs : h.state.replyJobs = []
  worker : h.state.workers () = .idle

end History

/-! ## A step of the worker -/

/-- `cleanup_session` is asked about the job in hand, and decides whether it is answered. -/
theorem verdictOf_sessionStep {st st' : Store} {pc pc' : WorkerPc}
    (h : sessionStep st pc = some (st', pc')) :
    pc.untested.toList = (verdictOf st pc).map Verdict.job ++ pc'.untested.toList ∧
      keptJobs (verdictOf st pc) = pc'.replying.toList ∧ pc.replying = none := by
  cases handlingStep_of_sessionStep h with
  | @found purpose | @insert purpose => cases purpose <;> exact ⟨rfl, rfl, rfl⟩
  | push =>
    unfold afterPush
    split <;> exact ⟨rfl, rfl, rfl⟩
  | @access _ _ next => cases next <;> exact ⟨rfl, rfl, rfl⟩
  | terminated hterm =>
    simp only [verdictOf, keptJobs, hterm]
    exact ⟨rfl, rfl, rfl⟩
  | @drop session job hterm hempty | @keep session job hterm hempty =>
    have hkept : (Verdict.mk job false).kept = !job.replyEmpty := rfl
    simp only [verdictOf, keptJobs, hterm]
    rw [List.filter_singleton, hkept, hempty]
    exact ⟨rfl, rfl, rfl⟩
  | missing | pop | last | others | unqueue | release => exact ⟨rfl, rfl, rfl⟩

theorem keptJobs_append (vs vs' : List Verdict) :
    keptJobs (vs ++ vs') = keptJobs vs ++ keptJobs vs' := by
  rw [keptJobs, List.filter_append, List.map_append]
  rfl

theorem keptJobs_sublist (vs : List Verdict) : (keptJobs vs).Sublist (vs.map Verdict.job) :=
  List.filter_sublist.map _

/-! ## Where the transactions are -/

/-- Every transaction queued has been decided about, is in hand, or waits; every one to be answered
has left, waits for the responder, or is about to be put on `reply_jobs`. -/
structure Accounts (h : History) : Prop where
  queued : h.queued = h.verdicts.map Verdict.job ++
    ((h.state.workers ()).untested.toList ++ h.state.requestJobs)
  kept : keptJobs h.verdicts = h.left ++ (h.state.replyJobs ++
    (h.state.workers ()).replying.toList)
  replies : h.numbering.replies.map Prod.fst = h.left ++ h.state.replyJobs
  fresh : (h.queued.map Job.address).Pairwise (· < ·) ∧
    ∀ job ∈ h.queued, job.address < h.state.nextJob

theorem accounts_start : Accounts .start where
  queued := rfl
  kept := rfl
  replies := rfl
  fresh := ⟨List.Pairwise.nil, by rintro job ⟨⟩⟩

/-- A new transaction has a new address. -/
theorem Accounts.arrive {h : History} (hacc : Accounts h) {job : Job}
    (haddress : job.address = h.state.nextJob) :
    ((h.queued ++ [job]).map Job.address).Pairwise (· < ·) ∧
      ∀ job' ∈ h.queued ++ [job], job'.address < h.state.nextJob + 1 := by
  obtain ⟨hpairwise, hlt⟩ := hacc.fresh
  constructor
  · rw [List.map_append, List.pairwise_append]
    refine ⟨hpairwise, List.pairwise_singleton _ _, fun x hx y hy => ?_⟩
    obtain ⟨job', hmem, rfl⟩ := List.mem_map.1 hx
    rw [List.map_singleton, List.mem_singleton, haddress] at hy
    rw [hy]
    exact hlt job' hmem
  · intro job' hmem
    rcases List.mem_append.1 hmem with hmem | hmem
    · exact Nat.lt_succ_of_lt (hlt job' hmem)
    · rw [List.mem_singleton.1 hmem, haddress]
      exact Nat.lt_succ_self _

/-- A step of the loop that queues nothing, or of the responder that takes nothing. -/
theorem Accounts.quiet {h : History} (hacc : Accounts h) {a : Action Unit} {s' : State Unit}
    (hloop : a ≠ .worker ()) (harrival : h.state.arrival a = [])
    (hdeparture : History.departure h.state a = [])
    (hworkers : s'.workers () = h.state.workers ())
    (hrequests : s'.requestJobs = h.state.requestJobs) (hreplies : s'.replyJobs = h.state.replyJobs)
    (hnext : s'.nextJob = h.state.nextJob) : Accounts (h.next a s') := by
  have hverdict : History.verdict h.state a = [] := by
    cases a with
    | worker => exact absurd rfl hloop
    | _ => rfl
  have hnumber : History.number h.numbering h.state s' a = h.numbering := by
    cases a with
    | worker => exact absurd rfl hloop
    | _ => rfl
  have hqueued' : (h.next a s').queued = h.queued := by
    show h.queued ++ _ = _
    rw [harrival, List.append_nil]
  have hverdicts' : (h.next a s').verdicts = h.verdicts := by
    show h.verdicts ++ _ = _
    rw [hverdict, List.append_nil]
  have hleft' : (h.next a s').left = h.left := by
    show h.left ++ _ = _
    rw [hdeparture, List.append_nil]
  have hnumbering' : (h.next a s').numbering = h.numbering := hnumber
  have hstate' : (h.next a s').state = s' := rfl
  constructor
  · rw [hqueued', hverdicts', hstate', hworkers, hrequests, hacc.queued]
  · rw [hverdicts', hleft', hstate', hworkers, hreplies, hacc.kept]
  · rw [hnumbering', hleft', hstate', hreplies, hacc.replies]
  · rw [hqueued', hstate', hnext]
    exact hacc.fresh

/-- A transaction is put on `request_jobs`. -/
theorem Accounts.request {h : History} (hacc : Accounts h) {a : Action Unit} {s' : State Unit}
    {job : Job} (hloop : a ≠ .worker ()) (hresponder : a ≠ .responder)
    (harrival : h.state.arrival a = [job]) (haddress : job.address = h.state.nextJob)
    (hworkers : s'.workers () = h.state.workers ())
    (hrequests : s'.requestJobs = h.state.requestJobs ++ [job])
    (hreplies : s'.replyJobs = h.state.replyJobs) (hnext : s'.nextJob = h.state.nextJob + 1) :
    Accounts (h.next a s') := by
  have hqueued' : (h.next a s').queued = h.queued ++ [job] := congrArg (h.queued ++ ·) harrival
  have hverdicts' : (h.next a s').verdicts = h.verdicts := by
    cases a with
    | worker => exact absurd rfl hloop
    | _ => exact List.append_nil _
  have hleft' : (h.next a s').left = h.left := by
    cases a with
    | responder => exact absurd rfl hresponder
    | _ => exact List.append_nil _
  have hnumbering' : (h.next a s').numbering = h.numbering := by
    cases a with
    | worker => exact absurd rfl hloop
    | _ => rfl
  have hstate' : (h.next a s').state = s' := rfl
  constructor
  · rw [hqueued', hverdicts', hstate', hworkers, hrequests, hacc.queued]
    simp only [List.append_assoc]
  · rw [hverdicts', hleft', hstate', hworkers, hreplies, hacc.kept]
  · rw [hnumbering', hleft', hstate', hreplies, hacc.replies]
  · rw [hqueued', hstate', hnext]
    exact hacc.arrive haddress

/-- What a step of the worker is to be noted for. -/
theorem History.next_worker (h : History) (s' : State Unit) :
    h.next (.worker ()) s' =
      { state := s'
        queued := h.queued
        verdicts := h.verdicts ++ verdictOf h.state.store (h.state.workers ())
        numbering := h.numbering.step (h.state.workers ()) (s'.workers ())
        left := h.left } := by
  simp only [History.next, State.arrival, History.verdict, History.number, History.departure,
    List.append_nil]

/-- A step of the worker at which there is nothing to note. -/
theorem History.next_goto (h : History) {s : State Unit} {pc pc' : WorkerPc}
    (hpc : h.state.workers () = pc) (hverdict : verdictOf h.state.store pc = []) :
    h.next (.worker ()) (s.goto () pc') =
      { state := s.goto () pc'
        queued := h.queued
        verdicts := h.verdicts
        numbering := h.numbering.step pc pc'
        left := h.left } := by
  rw [History.next_worker, hpc, hverdict, State.goto_workers_self, List.append_nil]

theorem Accounts.take {h : History} (hacc : Accounts h) {job : Job} {jobs : List Job}
    (hpc : h.state.workers () = .idle) (hjobs : h.state.requestJobs = job :: jobs) :
    Accounts (h.next (.worker ())
      ({ h.state with requestJobs := jobs }.goto () (.find .add job))) := by
  obtain ⟨hqueued, hkept, hreplies, hfresh⟩ := hacc
  rw [hpc] at hqueued hkept
  rw [History.next_goto h hpc rfl]
  constructor
  · show h.queued = _
    rw [hqueued, hjobs, State.goto_workers_self]
    rfl
  · rw [State.goto_workers_self]
    exact hkept
  · exact hreplies
  · exact hfresh

theorem Accounts.put {h : History} (hacc : Accounts h) {job : Job}
    (hpc : h.state.workers () = .reply job) :
    Accounts (h.next (.worker ()) ({ h.state with
      replyJobs := h.state.replyJobs ++ [job]
      replied := h.state.replied ++ [job] }.goto () .idle)) := by
  obtain ⟨hqueued, hkept, hreplies, hfresh⟩ := hacc
  rw [hpc] at hqueued hkept
  rw [History.next_goto h hpc rfl]
  constructor
  · rw [State.goto_workers_self]
    exact hqueued
  · rw [State.goto_workers_self]
    exact hkept.trans (congrArg (h.left ++ ·) (List.append_nil _).symm)
  · show (h.numbering.replies ++ [(job, _)]).map Prod.fst = h.left ++ (h.state.replyJobs ++ [job])
    rw [List.map_append, hreplies, List.append_assoc]
    rfl
  · exact hfresh

/-- Handling a job takes no header off and puts none on `reply_jobs`. -/
theorem Numbering.replies_step (n : Numbering) {pc pc' : WorkerPc} (hpc : pc.replying = none) :
    (n.step pc pc').replies = n.replies := by
  unfold Numbering.step
  split
  · rfl
  · cases hpc
  · split <;> rfl
  · rfl

theorem Accounts.handle {h : History} (hacc : Accounts h) {store : Store} {pc : WorkerPc}
    (hstep : sessionStep h.state.store (h.state.workers ()) = some (store, pc)) :
    Accounts (h.next (.worker ()) ({ h.state with store := store }.goto () pc)) := by
  obtain ⟨hqueued, hkept, hreplies, hfresh⟩ := hacc
  obtain ⟨huntested, hverdict, hreplying⟩ := verdictOf_sessionStep hstep
  rw [History.next_worker, State.goto_workers_self]
  constructor
  · show h.queued = _
    rw [hqueued, huntested, State.goto_workers_self, List.map_append]
    simp only [List.append_assoc]
    rfl
  · show keptJobs (h.verdicts ++ _) = _
    rw [keptJobs_append, hkept, hverdict, hreplying, State.goto_workers_self]
    simp only [Option.toList_none, List.append_nil, List.append_assoc]
    rfl
  · exact (congrArg _ (h.numbering.replies_step hreplying)).trans hreplies
  · exact hfresh

theorem Accounts.receive {h : History} (hacc : Accounts h) {job : Job} {jobs : List Job}
    (hresponder : h.state.responder = .idle) (hjobs : h.state.replyJobs = job :: jobs) :
    Accounts (h.next .responder
      { h.state with responder := .check job, replyJobs := jobs }) := by
  obtain ⟨hqueued, hkept, hreplies, hfresh⟩ := hacc
  have hnext : h.next .responder { h.state with responder := .check job, replyJobs := jobs } =
      { h with
        state := { h.state with responder := .check job, replyJobs := jobs }
        left := h.left ++ [job] } := by
    simp only [History.next, State.arrival, History.verdict, History.number, History.departure,
      hresponder, hjobs, List.append_nil, List.head?_cons, Option.toList_some]
  rw [hjobs] at hkept hreplies
  rw [hnext]
  constructor
  · exact hqueued
  · rw [hkept]
    simp
  · rw [hreplies]
    simp
  · exact hfresh

theorem Accounts.step {h h' : History} {a : Action Unit} (hacc : Accounts h)
    (hexec : h.exec a = some h') : Accounts h' := by
  obtain ⟨s', hstep, rfl⟩ := Option.map_eq_some_iff.1 hexec
  cases step_of_exec hstep with
  | @request fd conn request locals failed hmain hopen hfd =>
    have harrival : h.state.arrival (.request fd request locals failed) =
        [⟨h.state.nextJob, fd, conn, false, request, locals, failed⟩] := by
      simp only [State.arrival, hopen]
    exact hacc.request (by simp) (by simp) harrival rfl rfl rfl rfl rfl
  | @connect fd conn hmain =>
    have harrival : h.state.arrival .main =
        [⟨h.state.nextJob, fd, conn, true, .acceptNotify, default, false⟩] := by
      simp only [State.arrival, hmain]
    exact hacc.request (by simp) (by simp) harrival rfl rfl rfl rfl rfl
  | take hpc hjobs => exact hacc.take hpc hjobs
  | put hpc => exact hacc.put hpc
  | handle hsession => exact hacc.handle hsession
  | receive hresponder hjobs => exact hacc.receive hresponder hjobs
  | announce hmain | close hmain | forget hmain | hit hmain | miss hmain | insert hmain
  | mark hmain =>
    exact hacc.quiet (by simp) (by simp only [State.arrival, hmain]) rfl rfl rfl rfl rfl
  | accept | hangup => exact hacc.quiet (by simp) rfl rfl rfl rfl rfl rfl
  | check hresponder | send hresponder =>
    exact hacc.quiet (by simp) rfl (by simp only [History.departure, hresponder]) rfl rfl rfl rfl

/-! ## The numbers along the replies -/

/-- As long as the `int` does not overflow: the next number is beyond those of all headers, and
they come in increasing order. Once the handler has returned there is a header if it builds one. -/
structure Numbered (n : Numbering) (pc : WorkerPc) : Prop where
  next : n.built < 2 ^ 31 - 1 → n.sequenceNumber = n.built + 1
  increasing : n.built < 2 ^ 31 - 1 → (n.sequences ++ n.header.toList).Pairwise (· < ·)
  bounded : n.built < 2 ^ 31 - 1 → ∀ x ∈ n.sequences ++ n.header.toList, x ≤ n.built
  header : pc ≠ .idle → n.header.isSome = pc.returned.any (·.request.buildsHeader)
  headers : ∀ r ∈ n.replies, r.2.isSome = r.1.request.buildsHeader

theorem numbered_start : Numbered .start .idle where
  next _ := rfl
  increasing _ := List.Pairwise.nil
  bounded _ := by rintro x ⟨⟩
  header hpc := absurd rfl hpc
  headers := by rintro r ⟨⟩

namespace Numbered

variable {n : Numbering} {pc pc' : WorkerPc}

/-- A new transaction has no header yet. -/
theorem take (h : Numbered n .idle) (job : Job) :
    Numbered (n.step .idle (.find .add job)) (.find .add job) where
  next := h.next
  increasing hbuilt := by
    show (n.sequences ++ []).Pairwise _
    exact (h.increasing hbuilt).sublist (List.Sublist.append_left (List.nil_sublist _) _)
  bounded hbuilt x hx := by
    have hmem : x ∈ n.sequences ++ [] := hx
    rw [List.append_nil] at hmem
    exact h.bounded hbuilt x (List.mem_append_left _ hmem)
  header _ := rfl
  headers := h.headers

theorem put {job : Job} (h : Numbered n (.reply job)) :
    Numbered (n.step (.reply job) .idle) .idle := by
  have hsequences : (n.step (.reply job) .idle).sequences ++
      (n.step (.reply job) .idle).header.toList = n.sequences ++ n.header.toList := by
    show (n.replies ++ [(job, n.header)]).filterMap Prod.snd ++ [] = _
    rw [List.append_nil, List.filterMap_append]
    cases n.header <;> rfl
  constructor
  · exact h.next
  · rw [hsequences]
    exact h.increasing
  · rw [hsequences]
    exact h.bounded
  · exact fun hpc => absurd rfl hpc
  · intro r hr
    rcases List.mem_append.1 hr with hr | hr
    · exact h.headers r hr
    · rw [List.mem_singleton.1 hr]
      exact h.header (by simp)

/-- A step that leaves the numbers alone. -/
theorem goto (h : Numbered n pc) (hpc : pc ≠ .idle)
    (hreturned : pc' = .idle ∨ pc'.returned = pc.returned) : Numbered n pc' where
  next := h.next
  increasing := h.increasing
  bounded := h.bounded
  header hpc' := by
    rw [hreturned.resolve_left hpc']
    exact h.header hpc
  headers := h.headers

/-- The handler has built a header. -/
theorem build (h : Numbered n pc) (hpc : pc ≠ .idle) (hreturned : pc.returned = none) {job : Job}
    (hjob : job.request.buildsHeader = true) : Numbered n.build (.find .clean job) := by
  have hnone : n.header = none := by
    have hheader := h.header hpc
    rw [hreturned] at hheader
    exact Option.isNone_iff_eq_none.1 (by simpa using hheader)
  have hless : n.build.built < 2 ^ 31 - 1 → n.built < 2 ^ 31 - 1 := Nat.lt_of_succ_lt
  have hold : n.built < 2 ^ 31 - 1 → ∀ x ∈ n.sequences, x ≤ n.built := fun hbuilt x hx =>
    h.bounded hbuilt x (List.mem_append_left _ hx)
  constructor
  · intro hbuilt
    have hsucc : n.built + 1 < 2 ^ 31 - 1 := hbuilt
    show int32 (n.sequenceNumber + 1) = ((n.built + 1 : Nat) : Int) + 1
    rw [h.next (hless hbuilt)]
    exact int32_of_lt (by omega : n.built + 1 + 1 < 2 ^ 31)
  · intro hbuilt
    show (n.sequences ++ [n.sequenceNumber]).Pairwise (· < ·)
    rw [List.pairwise_append]
    have hinc := h.increasing (hless hbuilt)
    rw [hnone, Option.toList_none, List.append_nil] at hinc
    refine ⟨hinc, List.pairwise_singleton _ _, fun x hx y hy => ?_⟩
    rw [List.mem_singleton.1 hy, h.next (hless hbuilt)]
    exact Int.lt_add_one_of_le (hold (hless hbuilt) x hx)
  · intro hbuilt x hx
    show x ≤ ((n.built + 1 : Nat) : Int)
    rcases List.mem_append.1 hx with hx | hx
    · have hle := hold (hless hbuilt) x hx
      omega
    · rw [List.mem_singleton.1 hx, h.next (hless hbuilt)]
      omega
  · intro _
    exact hjob.symm
  · exact h.headers

/-- A job whose handler builds no header. -/
theorem skip (h : Numbered n pc) (hpc : pc ≠ .idle) (hreturned : pc.returned = none) {job : Job}
    (hjob : job.request.buildsHeader = false) : Numbered n (.find .clean job) where
  next := h.next
  increasing := h.increasing
  bounded := h.bounded
  header _ := by
    rw [h.header hpc, hreturned]
    exact hjob.symm
  headers := h.headers

end Numbered

/-- The handler returns at one step; at the others nothing changes in this respect. -/
theorem returned_sessionStep {st st' : Store} {pc pc' : WorkerPc}
    (h : sessionStep st pc = some (st', pc')) :
    (∃ job, pc' = .find .clean job ∧ pc.returned = none) ∨
      ((∀ job, pc' ≠ .find .clean job) ∧ (pc' = .idle ∨ pc'.returned = pc.returned)) := by
  cases handlingStep_of_sessionStep h with
  | @found purpose | @missing purpose | @insert purpose =>
    cases purpose <;> exact Or.inr ⟨by rintro job ⟨⟩, Or.inr rfl⟩
  | @push _ job =>
    unfold afterPush
    split
    · exact Or.inr ⟨by rintro job ⟨⟩, Or.inr rfl⟩
    · exact Or.inl ⟨job, rfl, rfl⟩
  | @access _ _ next job =>
    cases next with
    | done => exact Or.inl ⟨job, rfl, rfl⟩
    | _ => exact Or.inr ⟨by rintro job ⟨⟩, Or.inr rfl⟩
  | pop | terminated | keep | last | unqueue => exact Or.inr ⟨by rintro job ⟨⟩, Or.inr rfl⟩
  | drop | others | release => exact Or.inr ⟨by rintro job ⟨⟩, Or.inl rfl⟩

theorem Numbered.handle {n : Numbering} {st st' : Store} {pc pc' : WorkerPc} (h : Numbered n pc)
    (hstep : sessionStep st pc = some (st', pc')) : Numbered (n.step pc pc') pc' := by
  have hidle : pc ≠ .idle := by
    rintro rfl
    cases hstep
  have hreply : ∀ job, pc ≠ .reply job := by
    rintro job rfl
    cases hstep
  rcases returned_sessionStep hstep with ⟨job, rfl, hreturned⟩ | ⟨hclean, hreturned⟩
  · have hnumber : n.step pc (.find .clean job) =
        if job.request.buildsHeader then n.build else n := by
      cases pc with
      | idle => exact absurd rfl hidle
      | reply job => exact absurd rfl (hreply job)
      | _ => rfl
    rw [hnumber]
    cases hjob : job.request.buildsHeader with
    | true => exact h.build hidle hreturned hjob
    | false => exact h.skip hidle hreturned hjob
  · have hnumber : n.step pc pc' = n := by
      unfold Numbering.step
      split
      · exact absurd rfl hidle
      · exact absurd rfl (hreply _)
      · exact absurd rfl (hclean _)
      · rfl
    rw [hnumber]
    exact h.goto hidle hreturned

theorem Numbered.history {h h' : History} {a : Action Unit}
    (hnum : Numbered h.numbering (h.state.workers ())) (hexec : h.exec a = some h') :
    Numbered h'.numbering (h'.state.workers ()) := by
  obtain ⟨s', hstep, rfl⟩ := Option.map_eq_some_iff.1 hexec
  show Numbered (History.number h.numbering h.state s' a) (s'.workers ())
  cases step_of_exec hstep with
  | take hpc hjobs =>
    simp only [History.number, State.goto_workers_self]
    rw [hpc] at hnum ⊢
    exact hnum.take _
  | put hpc =>
    simp only [History.number, State.goto_workers_self]
    rw [hpc] at hnum ⊢
    exact hnum.put
  | handle hsession =>
    simp only [History.number, State.goto_workers_self]
    exact hnum.handle hsession
  | _ => exact hnum

/-! ## Runs -/

theorem mem_keptJobs {vs : List Verdict} {job : Job} :
    job ∈ keptJobs vs ↔ Verdict.mk job false ∈ vs ∧ job.replyEmpty = false := by
  unfold keptJobs
  rw [List.mem_map]
  constructor
  · rintro ⟨⟨job', terminated⟩, hv, rfl⟩
    obtain ⟨hmem, hkept⟩ := List.mem_filter.1 hv
    rw [Verdict.kept, Bool.and_eq_true, Bool.not_eq_true', Bool.not_eq_true'] at hkept
    obtain ⟨rfl, hempty⟩ := hkept
    exact ⟨hmem, hempty⟩
  · rintro ⟨hmem, hempty⟩
    refine ⟨⟨job, false⟩, List.mem_filter.2 ⟨hmem, ?_⟩, rfl⟩
    rw [Verdict.kept, hempty]
    rfl

/-- What is dropped, of the jobs that have been decided about once. -/
theorem not_mem_keptJobs {vs : List Verdict} (hnodup : (vs.map Verdict.job).Nodup) {job : Job}
    (hjob : job ∈ vs.map Verdict.job) :
    job ∉ keptJobs vs ↔ job.replyEmpty ∨ Verdict.mk job true ∈ vs := by
  obtain ⟨⟨job', terminated⟩, hmem, rfl⟩ := List.mem_map.1 hjob
  have honce : ∀ b, Verdict.mk job' b ∈ vs → b = terminated := fun b hb =>
    congrArg Verdict.terminated (List.inj_on_of_nodup_map hnodup hb hmem rfl)
  rw [mem_keptJobs]
  constructor
  · intro hnot
    cases terminated with
    | true => exact Or.inr hmem
    | false => exact Or.inl (by simpa [hmem] using hnot)
  · rintro (hempty | hterm) ⟨hmem', hempty'⟩
    · rw [hempty] at hempty'
      cases hempty'
    · cases (honce true hterm).trans (honce false hmem').symm

/-- **What becomes of the transactions.** In every run with one worker, the transactions that have
left `reply_jobs` are some of those queued, in their order and without duplicates; once nothing is
on its way, those that are missing are the ones with an empty reply and the ones whose session
`cleanup_session` has found terminated; and along `reply_jobs` the sequence fields of the headers
increase until the `int` they come from overflows. -/
theorem replies_of_run {as : List (Action Unit)} {h : History}
    (run : Lts.Run History.exec (fun _ _ => True) .start as h) :
    h.left.Sublist h.queued ∧ (h.queued.map Job.address).Nodup ∧
      (h.Drained → ∀ job ∈ h.queued,
        (job ∉ h.left ↔ job.replyEmpty ∨ Verdict.mk job true ∈ h.verdicts)) ∧
      h.numbering.replies.map Prod.fst = h.left ++ h.state.replyJobs ∧
      (∀ r ∈ h.numbering.replies, r.2.isSome = r.1.request.buildsHeader) ∧
      (h.numbering.built < 2 ^ 31 - 1 → h.numbering.sequences.Pairwise (· < ·)) := by
  have hacc : Accounts h :=
    run.invariant (fun hacc _ hexec => hacc.step hexec) accounts_start
  have hnum : Numbered h.numbering (h.state.workers ()) := by
    have hstep : ∀ {g : History} {a : Action Unit} {g' : History},
        Numbered g.numbering (g.state.workers ()) → True → g.exec a = some g' →
          Numbered g'.numbering (g'.state.workers ()) := fun hnum _ hexec => hnum.history hexec
    exact run.invariant hstep numbered_start
  have hnodup : (h.queued.map Job.address).Nodup := hacc.fresh.1.imp Nat.ne_of_lt
  refine ⟨?_, hnodup, fun hdrained job hjob => ?_, hacc.replies, hnum.headers, fun hbuilt => ?_⟩
  · have hleft : h.left.Sublist (keptJobs h.verdicts) := by
      rw [hacc.kept]
      exact List.sublist_append_left _ _
    have hdecided : (h.verdicts.map Verdict.job).Sublist h.queued := by
      rw [hacc.queued]
      exact List.sublist_append_left _ _
    exact (hleft.trans (keptJobs_sublist _)).trans hdecided
  · have hqueued : h.queued = h.verdicts.map Verdict.job := by
      rw [hacc.queued, hdrained.worker, hdrained.requestJobs]
      exact List.append_nil _
    have hkept : keptJobs h.verdicts = h.left := by
      rw [hacc.kept, hdrained.worker, hdrained.replyJobs]
      exact List.append_nil _
    rw [hqueued] at hjob hnodup
    rw [← hkept]
    exact not_mem_keptJobs (hnodup.of_map _) hjob
  · exact (hnum.increasing hbuilt).sublist (List.sublist_append_left _ _)

/-- A client connects and closes its connection again; of what it sends, an abort is answered, a
`CONNECT_CLOSE` is not. -/
def abortThenClose : List (Action Unit) :=
  [.accept 4, .main, .main] ++ List.replicate 8 (.worker ()) ++
    [.request 4 .dataAbort default false, .request 4 .connectClose default false] ++
    List.replicate 25 (.worker ()) ++ List.replicate 6 .responder

theorem replies_of_run_abortThenClose : ∃ h : History,
    Lts.Run History.exec (fun _ _ => True) .start abortThenClose h ∧ h.Drained ∧
      h.queued.length = 3 ∧ h.left.length = 2 ∧ h.left.Sublist h.queued ∧
      (∀ job ∈ h.queued, (job ∉ h.left ↔ job.replyEmpty ∨ Verdict.mk job true ∈ h.verdicts)) := by
  have run : Lts.Run History.exec (fun _ _ => True) .start abortThenClose _ :=
    Lts.Run.of_execAll rfl
  refine ⟨_, run, ⟨rfl, rfl, rfl⟩, rfl, rfl, (replies_of_run run).1, ?_⟩
  exact (replies_of_run run).2.2.1 ⟨rfl, rfl, rfl⟩

end Pipeline

end GlfsNdmp
