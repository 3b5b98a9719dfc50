import GlfsNdmp.Lib.Balance
import GlfsNdmp.Pipeline
import Mathlib.Tactic.Abel

/-!
# Who has a transaction

The loop allocates a transaction for every connection it accepts and every request it receives. From
there on it is passed on: it waits on `request_jobs`, is in the hand of a worker, waits on
`reply_jobs`, is in the hand of the responder, and is freed by whoever has it last. `owned_of_run`:
whatever the number of workers and the schedule, a transaction is in one place at a time until it
is freed, and it is freed once.
-/

namespace GlfsNdmp

/-- The transaction a worker has in hand. -/
def WorkerPc.owned (pc : WorkerPc) : Option Job := pc.handling.or pc.replying

@[simp] theorem WorkerPc.owned_idle : WorkerPc.idle.owned = none := rfl

theorem WorkerPc.owned_of_handling {pc : WorkerPc} {job : Job} (h : pc.handling = some job) :
    pc.owned = some job := by
  rw [owned, h, Option.some_or]

/-- `free(txn)` in `xdr_decode_encode`: what a worker frees as it returns to `run_job`. -/
def WorkerPc.frees (st : Store) : WorkerPc → List Job
  | .test session job =>
    if (st.memory session).isTerminated = false ∧ job.replyEmpty then [job] else []
  | .count session job => if (st.memory session).jobs = [] then [] else [job]
  | .release _ job => [job]
  | .idle | .find _ _ | .insert _ _ | .push _ _ | .access _ _ _ | .pop _ _ | .unqueue _ _
  | .reply _ => []

/-- A worker goes on with its transaction or frees it. -/
theorem owned_of_sessionStep {st st' : Store} {pc pc' : WorkerPc}
    (h : sessionStep st pc = some (st', pc')) :
    pc'.owned.toList ++ pc.frees st = pc.owned.toList := by
  have hkeeps : ∀ {pc pc' : WorkerPc} {job : Job}, pc.handling = some job →
      pc'.handling = some job → pc.frees st = [] →
      pc'.owned.toList ++ pc.frees st = pc.owned.toList := by
    intro pc pc' job hpc hpc' hfrees
    rw [WorkerPc.owned_of_handling hpc, WorkerPc.owned_of_handling hpc', hfrees, List.append_nil]
  cases handlingStep_of_sessionStep h with
  | found | insert => exact hkeeps rfl (afterLookup_handling _ _ _) rfl
  | push => exact hkeeps rfl (afterPush_handling _) rfl
  | access => exact hkeeps rfl (afterAccess_handling _ _ _) rfl
  | missing | pop | unqueue => exact hkeeps rfl rfl rfl
  | terminated hterm => exact hkeeps rfl rfl (if_neg (by simp [hterm]))
  | last hjobs => exact hkeeps rfl rfl (if_pos hjobs)
  | drop hterm hempty => exact if_pos ⟨hterm, hempty⟩
  | keep hterm hempty =>
    rw [WorkerPc.frees, if_neg (by simp [hempty])]
    rfl
  | others hjobs => exact if_neg hjobs
  | release => rfl

namespace Pipeline

variable {ι : Type*}

/-! ## Places -/

namespace State

/-- `malloc` of a transaction that is queued. The one `handle_a_client_request` makes for a socket
that turns out closed is freed on the spot. -/
def allocates (s : State ι) : Action ι → List Job
  | .request fd request locals failed =>
    match s.kernel fd with
    | some conn => [⟨s.nextJob, fd, conn, false, request, locals, failed⟩]
    | none => []
  | .main =>
    match s.main with
    | .announced fd conn => [⟨s.nextJob, fd, conn, true, .acceptNotify, default, false⟩]
    | _ => []
  | .accept _ | .hangup _ | .worker _ | .responder => []

/-- `free` of a transaction: by a worker, or by the responder, whether it sent the reply or found
the session gone. -/
def frees (s : State ι) : Action ι → List Job
  | .worker i => (s.workers i).frees s.store
  | .responder =>
    match s.responder with
    | .idle => []
    | .check job => if job.fd ∈ s.sessions then [] else [job]
    | .send job => [job]
  | .accept _ | .request _ _ _ _ | .hangup _ | .main => []

variable [Fintype ι]

/-- All transactions some thread or queue has, each as often as it is there. -/
def held (s : State ι) : Multiset Job :=
  s.requestJobs + ∑ i, ((s.workers i).owned.toList : Multiset Job) + s.replyJobs +
    s.responder.job.toList

end State

variable [Fintype ι] [DecidableEq ι]

/-- A worker moves: what it had in hand is missing, what it has now is added. -/
theorem held_goto (s : State ι) (i : ι) (pc : WorkerPc) :
    (s.goto i pc).held + ((s.workers i).owned.toList : Multiset Job) =
      s.held + (pc.owned.toList : Multiset Job) := by
  have hworkers := sum_update (fun pc => (pc.owned.toList : Multiset Job)) s.workers i pc
  calc (s.goto i pc).held + ((s.workers i).owned.toList : Multiset Job)
      = s.requestJobs + (∑ j, ((Function.update s.workers i pc j).owned.toList : Multiset Job) +
          (s.workers i).owned.toList) + s.replyJobs + s.responder.job.toList := by
        simp only [State.held, State.goto]
        abel
    _ = s.held + (pc.owned.toList : Multiset Job) := by
        rw [hworkers, State.held]
        abel

/-- A worker that handles its transaction keeps it or frees it. -/
theorem held_handle {s : State ι} {i : ι} {st st' : Store} {pc : WorkerPc}
    (h : sessionStep st (s.workers i) = some (st', pc)) :
    (s.goto i pc).held + ((s.workers i).frees st : Multiset Job) = s.held := by
  have hgoto := held_goto s i pc
  rw [← owned_of_sessionStep h, ← Multiset.coe_add, add_comm (pc.owned.toList : Multiset Job),
    ← add_assoc] at hgoto
  exact add_right_cancel hgoto

/-- **A step passes transactions on**: what it frees is missing, what it allocates is added. -/
theorem held_of_step {s s' : State ι} {a : Action ι} (h : Step s a s') :
    s'.held + (s.frees a : Multiset Job) = s.held + (s.allocates a : Multiset Job) := by
  cases h with
  | request hmain hopen hfd =>
    simp only [State.held, State.frees, State.allocates, hopen, ← Multiset.coe_add]
    abel
  | connect hmain =>
    simp only [State.held, State.frees, State.allocates, hmain, ← Multiset.coe_add]
    abel
  | @take i job jobs hpc hjobs =>
    have hgoto := held_goto { s with requestJobs := jobs } i (.find .add job)
    have hqueue : State.held { s with requestJobs := jobs } + (([job] : List Job) : Multiset Job) =
        s.held := by
      simp only [State.held, hjobs, ← Multiset.singleton_add, ← Multiset.cons_coe, Multiset.coe_nil]
      abel
    rw [hpc] at hgoto
    rw [State.frees, State.allocates, hpc]
    exact (hgoto.trans hqueue).trans (add_zero _).symm
  | @put i job hpc =>
    have hgoto := held_goto { s with
      replyJobs := s.replyJobs ++ [job]
      replied := s.replied ++ [job] } i .idle
    have hqueue : State.held { s with
        replyJobs := s.replyJobs ++ [job]
        replied := s.replied ++ [job] } = s.held + (([job] : List Job) : Multiset Job) := by
      simp only [State.held, ← Multiset.coe_add]
      abel
    rw [hpc, hqueue] at hgoto
    rw [State.frees, State.allocates, hpc]
    exact congrArg (· + 0) (add_right_cancel (hgoto.trans (add_zero _)))
  | @handle i store pc hstep =>
    rw [State.frees, State.allocates, Multiset.coe_nil, add_zero]
    exact held_handle (s := { s with store := store }) hstep
  | @receive job jobs hresponder hjobs =>
    simp only [State.held, State.frees, State.allocates, hresponder, hjobs, ResponderPc.job,
      Option.toList_none, Option.toList_some, ← Multiset.cons_coe, ← Multiset.singleton_add]
    abel
  | @check job hresponder =>
    simp only [State.held, State.frees, State.allocates, hresponder]
    by_cases hfd : job.fd ∈ s.sessions
    · rw [if_pos hfd, if_pos hfd]
      rfl
    · rw [if_neg hfd, if_neg hfd]
      exact add_right_comm _ _ _
  | @send job hresponder =>
    simp only [State.held, State.frees, State.allocates, hresponder]
    exact add_right_comm _ _ _
  | announce hmain | close hmain | forget hmain | hit hmain | miss hmain | insert hmain
  | mark hmain =>
    simp only [State.held, State.frees, State.allocates, hmain]
  | accept | hangup => rfl

/-! ## Runs -/

omit [Fintype ι] in
/-- Transactions are allocated at one address after the other. -/
theorem addresses_of_step {s s' : State ι} {a : Action ι} (h : Step s a s') :
    List.range s.nextJob ++ (s.allocates a).map Job.address = List.range s'.nextJob := by
  cases h with
  | request hmain hopen hfd =>
    simp only [State.allocates, hopen, List.map_cons, List.map_nil, List.range_succ]
  | connect hmain =>
    simp only [State.allocates, hmain, List.map_cons, List.map_nil, List.range_succ]
  | announce hmain | close hmain | forget hmain | hit hmain | miss hmain | insert hmain
  | mark hmain =>
    simp only [State.allocates, hmain, List.map_nil, List.append_nil]
  | _ => exact List.append_nil _

/-- The transactions that have been allocated, and those that have been freed, in a run. -/
structure Owned (s : State ι) (allocated freed : List Job) : Prop where
  /-- What is allocated is held or has been freed. -/
  conserved : (allocated : Multiset Job) = s.held + freed
  /-- No transaction is in two places. -/
  once : (s.held.map Job.address).Nodup
  /-- None is freed twice. -/
  freed_once : (freed.map Job.address).Nodup
  /-- None is held after it has been freed. -/
  apart : ∀ job ∈ s.held, ∀ job' ∈ freed, job.address ≠ job'.address

/-- What has been allocated is held or has been freed. -/
theorem conserved_of_run {as : List (Action ι)} {s : State ι}
    (run : Lts.Run exec (fun _ _ => True) start as s) :
    (Lts.log exec State.allocates start as : Multiset Job) =
      s.held + Lts.log exec State.frees start as := by
  have hstart : (start : State ι).held = 0 := by simp [State.held, start, ResponderPc.job]
  have hrun : s.held + Lts.log exec State.frees start as =
      (start : State ι).held + Lts.log exec State.allocates start as :=
    run.conserved fun hexec => held_of_step (step_of_exec hexec)
  rw [hrun, hstart, zero_add]

/-- A notification is handed over and sent; meanwhile the client asks for something. -/
def acceptAndAsk : List (Action Unit) :=
  [.accept 4, .main, .main] ++ List.replicate 8 (.worker ()) ++
    .request 4 .errorMessage default false :: List.replicate 3 .responder

end Pipeline

end GlfsNdmp
