import GlfsNdmp.Backlog
import GlfsNdmp.Reclaim

/-!
# One worker does what the serial server does

`xdrDecodeEncode` handles a transaction in one step, on a registry that is a list of records. The
threads handle it access by access, on records in memory, while the loop goes on receiving. With
one worker the difference does not show: both leave of a session what `Outcome.settle` says of its
jobs, the serial server transaction by transaction (`final_settle`), the threads once the jobs of
the session are done (`settle_of_run`). `serial_of_run` puts the two together, for the record and
for the transactions that are answered.
-/

namespace GlfsNdmp

/-! ## The serial registry -/

namespace Server

/-- The registry holds an id once. -/
def Distinct (srv : Server) : Prop := (srv.registry.map SessionInfo.sessionId).Nodup

variable {srv : Server}

theorem session_eq_record (srv : Server) (id : Nat) :
    srv.session id = (srv.record id).getD (SessionInfo.fresh id) :=
  sessionOf_eq srv.registry id

theorem record_update {f : SessionInfo → SessionInfo} (hf : ∀ s, (f s).sessionId = s.sessionId)
    (srv : Server) (id : Nat) : (srv.update id f).record id = some (f (srv.session id)) :=
  find?_updateSession hf srv.registry

theorem record_update_other {f : SessionInfo → SessionInfo}
    (hf : ∀ s, (f s).sessionId = s.sessionId) (srv : Server) {id id' : Nat} (h : id ≠ id') :
    (srv.update id f).record id' = srv.record id' :=
  find?_updateSession_other hf h srv.registry

theorem record_congr {srv' : Server} (h : srv'.registry = srv.registry) (id : Nat) :
    srv'.record id = srv.record id := by
  rw [record, record, h]

theorem Distinct.congr (h : srv.Distinct) {srv' : Server} (heq : srv'.registry = srv.registry) :
    srv'.Distinct := by
  unfold Distinct
  rw [heq]
  exact h

/-- A look-up adds a record only if the id is not there. -/
theorem Distinct.update (h : srv.Distinct) (id : Nat) {f : SessionInfo → SessionInfo}
    (hf : ∀ s, (f s).sessionId = s.sessionId) : (srv.update id f).Distinct := by
  show ((updateSession id f srv.registry).map _).Nodup
  rw [updateSession, Fifo.map_modifyFirst hf, getSessionInfo]
  cases hfind : srv.registry.find? (sessionInfoCmp id) with
  | some s => exact h
  | none =>
    show ((srv.registry ++ [SessionInfo.fresh id]).map _).Nodup
    rw [List.map_append, List.nodup_append]
    refine ⟨h, List.nodup_singleton _, fun x hx y hy => ?_⟩
    obtain ⟨s, hs, rfl⟩ := List.mem_map.1 hx
    rw [List.mem_singleton.1 hy]
    simpa [sessionInfoCmp] using List.find?_eq_none.1 hfind s hs

theorem Distinct.dispatch (h : srv.Distinct) (txn : ClientTxn) : (srv.dispatch txn).1.Distinct := by
  rcases srv.dispatch_registry txn with ⟨hreg, -⟩ | hreg
  · exact h.congr hreg
  · exact (h.update txn.sessionId (sessionEffect_sessionId txn.request txn.locals)).congr hreg

theorem Distinct.cleanupSession (h : srv.Distinct) (txn : ClientTxn) :
    (srv.cleanupSession txn).1.Distinct := by
  have hpop := h.update txn.sessionId (SessionInfo.removeJob_sessionId txn.address)
  simp only [Server.cleanupSession]
  split
  · split
    · exact hpop.sublist (List.eraseP_sublist.map _)
    · exact hpop
  · exact hpop

theorem record_dispatch_other (srv : Server) {txn : ClientTxn} {id : Nat} (h : txn.sessionId ≠ id) :
    (srv.dispatch txn).1.record id = srv.record id := by
  rcases srv.dispatch_registry txn with ⟨hreg, -⟩ | hreg
  · exact record_congr hreg id
  · rw [← srv.record_update_other (sessionEffect_sessionId txn.request txn.locals) h]
    exact record_congr hreg _

end Server

/-! ## One transaction -/

/-- The job is the transaction on its way through the threads. -/
structure Job.Carries (job : Job) (txn : ClientTxn) : Prop where
  address : job.address = txn.address
  fd : job.fd = txn.sessionId
  request : job.request = txn.request
  locals : job.locals = txn.locals

/-- What a job makes of a record when its handler is not disturbed. -/
theorem Job.prog_run (job : Job) (r : SessionInfo) :
    (job.prog.getD .done).run r = sessionEffect job.request job.locals r := by
  unfold Job.prog
  cases hprog : job.request.prog job.locals job.failed with
  | none => exact (sessionEffect_of_no_prog hprog r).symm
  | some prog => exact GlfsNdmp.prog_run hprog r

namespace Server

variable {srv : Server}

/-- `cleanup_session` leaves of the record what the job leaves of it. -/
theorem cleanupSession_record (h : srv.Distinct) {txn : ClientTxn} {job : Job}
    (haddress : job.address = txn.address) :
    (srv.cleanupSession txn).1.record txn.sessionId =
        (job.cleanup (srv.session txn.sessionId)).record ∧
      (srv.cleanupSession txn).2 = (srv.session txn.sessionId).isTerminated := by
  have hf := SessionInfo.removeJob_sessionId txn.address
  have hpop := h.update txn.sessionId hf
  have hrecord := srv.record_update hf txn.sessionId
  rw [Job.cleanup, Job.finish, haddress]
  simp only [Server.cleanupSession, srv.session_update hf]
  by_cases hterm : ((srv.session txn.sessionId).removeJob txn.address).isTerminated
  · rw [if_pos hterm, if_pos hterm]
    by_cases hjobs : ((srv.session txn.sessionId).removeJob txn.address).jobs = []
    · rw [if_pos hjobs, if_pos hjobs]
      refine ⟨?_, hterm.symm⟩
      rw [hf, Server.session, sessionOf_sessionId]
      exact Fifo.find?_eraseP_self hpop
    · rw [if_neg hjobs, if_neg hjobs]
      exact ⟨hrecord, hterm.symm⟩
  · rw [if_neg hterm, if_neg hterm]
    exact ⟨hrecord, (Bool.eq_false_of_not_eq_true hterm).symm⟩

theorem record_cleanupSession_other (srv : Server) {txn : ClientTxn} {id : Nat}
    (h : txn.sessionId ≠ id) : (srv.cleanupSession txn).1.record id = srv.record id := by
  have hupd := srv.record_update_other (SessionInfo.removeJob_sessionId txn.address) h
  simp only [Server.cleanupSession]
  split
  · split
    · refine (Fifo.find?_eraseP_other ?_ _).trans hupd
      intro s hs
      rw [Server.session, sessionOf_sessionId, sessionInfoCmp, beq_iff_eq] at hs
      simp [sessionInfoCmp, hs, h]
    · exact hupd
  · exact hupd

end Server

theorem xdrDecodeEncode_distinct (srv : Server) (txn : ClientTxn) (h : srv.Distinct) :
    (xdrDecodeEncode srv txn).1.Distinct := by
  have hpush := h.update txn.sessionId (SessionInfo.addJob_sessionId txn.address)
  exact (hpush.dispatch txn).cleanupSession txn

theorem xdrDecodeEncode_record_other (srv : Server) {txn : ClientTxn} {id : Nat}
    (h : txn.sessionId ≠ id) : (xdrDecodeEncode srv txn).1.record id = srv.record id := by
  have hpush := srv.record_update_other (SessionInfo.addJob_sessionId txn.address) h
  exact ((Server.record_cleanupSession_other _ h).trans (Server.record_dispatch_other _ h)).trans
    hpush

/-- A transaction is answered unless its session is terminated or its reply is empty. -/
theorem xdrDecodeEncode_isSome (srv : Server) (txn : ClientTxn) :
    (xdrDecodeEncode srv txn).2.isSome =
      !((((srv.addJobToSession txn).dispatch txn).1.cleanupSession txn).2 ||
        ((srv.addJobToSession txn).dispatch txn).2.isEmpty) := by
  simp only [xdrDecodeEncode]
  cases (((srv.addJobToSession txn).dispatch txn).1.cleanupSession txn).2 ||
    ((srv.addJobToSession txn).dispatch txn).2.isEmpty <;> rfl

/-- **The serial step does what its job does**: it leaves the same of the record, and answers if
the job's reply is let through. -/
theorem xdrDecodeEncode_outcome {srv : Server} (h : srv.Distinct) {txn : ClientTxn} {job : Job}
    (hjob : job.Carries txn) :
    (xdrDecodeEncode srv txn).1.record txn.sessionId =
        (job.outcome (srv.record txn.sessionId)).record ∧
      (job.outcome (srv.record txn.sessionId)).replies =
        if (xdrDecodeEncode srv txn).2.isSome then [job] else [] := by
  have hpush : (srv.addJobToSession txn).Distinct :=
    h.update txn.sessionId (SessionInfo.addJob_sessionId txn.address)
  have hfound : job.found (srv.record txn.sessionId) = srv.session txn.sessionId := by
    rw [srv.session_eq_record, Job.found, hjob.fd]
  -- The record as the handler leaves it.
  have hhandled : (job.prog.getD .done).run ((srv.session txn.sessionId).addJob job.address) =
      ((srv.addJobToSession txn).dispatch txn).1.session txn.sessionId := by
    rw [Job.prog_run, hjob.request, hjob.locals, hjob.address, srv.dispatch_addJob_session]
  obtain ⟨hrecord, hterm⟩ := Server.cleanupSession_record (hpush.dispatch txn) hjob.address
  rw [Job.outcome, hfound, Job.add, Job.handle, hhandled]
  refine ⟨hrecord, ?_⟩
  have hempty : ((srv.addJobToSession txn).dispatch txn).2.isEmpty = job.replyEmpty := by
    rw [Server.dispatch_isEmpty, Job.replyEmpty, hjob.request, hjob.locals]
  have hsome : (xdrDecodeEncode srv txn).2.isSome =
      !((((srv.addJobToSession txn).dispatch txn).1.session txn.sessionId).isTerminated ||
        job.replyEmpty) := by
    rw [← hempty, ← hterm, xdrDecodeEncode_isSome]
  rw [hsome, Job.cleanup, Job.finish]
  show (if (((srv.addJobToSession txn).dispatch txn).1.session txn.sessionId).isTerminated then _
    else _ : Outcome).replies = _
  cases (((srv.addJobToSession txn).dispatch txn).1.session txn.sessionId).isTerminated with
  | true => rfl
  | false => cases job.replyEmpty <;> rfl

/-! ## Serial runs -/

/-- The transactions of a session that are answered. -/
def answeredOf (id : Nat) (evs : List ServerEvent) : List ClientTxn :=
  (evs.filter fun e => e.input.sessionId == id && e.output.isSome).map (·.input)

theorem answeredOf_cons_other {id : Nat} {e : ServerEvent} (h : e.input.sessionId ≠ id)
    (evs : List ServerEvent) : answeredOf id (e :: evs) = answeredOf id evs := by
  unfold answeredOf
  rw [List.filter_cons_of_neg (by simp [h])]

theorem answeredOf_cons {id : Nat} {e : ServerEvent} (h : e.input.sessionId = id)
    (evs : List ServerEvent) : answeredOf id (e :: evs) =
      (if e.output.isSome then [e.input] else []) ++ answeredOf id evs := by
  unfold answeredOf
  cases hout : e.output.isSome with
  | true =>
    rw [List.filter_cons_of_pos (by simp [h, hout]), List.map_cons]
    rfl
  | false =>
    rw [List.filter_cons_of_neg (by simp [hout])]
    rfl

/-- **The serial server settles the jobs of every session.** -/
theorem final_settle {srv : Server} (h : srv.Distinct) {id : Nat} {txns : List ClientTxn}
    {jobs : List Job}
    (hjobs : List.Forall₂ Job.Carries jobs (txns.filter (·.sessionId == id))) :
    ((Outcome.mk (srv.record id) []).settle jobs).record =
        (Mealy.final xdrDecodeEncode srv txns).record id ∧
      List.Forall₂ Job.Carries ((Outcome.mk (srv.record id) []).settle jobs).replies
        (answeredOf id (Mealy.trace xdrDecodeEncode srv txns)) := by
  induction txns generalizing srv jobs with
  | nil =>
    cases hjobs
    exact ⟨rfl, .nil⟩
  | cons txn txns ih =>
    have hnext := xdrDecodeEncode_distinct srv txn h
    by_cases hid : txn.sessionId = id
    · subst hid
      rw [List.filter_cons_of_pos (by simp)] at hjobs
      obtain ⟨job, jobs, hjob, hrest, rfl⟩ := List.forall₂_cons_right_iff.1 hjobs
      obtain ⟨hrecord, hreplies⟩ := xdrDecodeEncode_outcome h hjob
      obtain ⟨hfinal, hanswers⟩ := ih hnext hrest
      rw [hrecord] at hfinal hanswers
      rw [Outcome.settle_cons, Outcome.next, Outcome.settle_mk, List.nil_append, hreplies,
        Mealy.trace_cons, answeredOf_cons (show txn.sessionId = txn.sessionId from rfl)]
      refine ⟨hfinal, List.rel_append ?_ hanswers⟩
      split
      · exact .cons hjob .nil
      · exact .nil
    · rw [List.filter_cons_of_neg (by simp [hid])] at hjobs
      obtain ⟨hfinal, hanswers⟩ := ih hnext hjobs
      rw [xdrDecodeEncode_record_other srv hid] at hfinal hanswers
      rw [Mealy.trace_cons, answeredOf_cons_other hid]
      exact ⟨hfinal, hanswers⟩

/-! ## Runs of the threads -/

/-- An outcome with the replies that were let through before. -/
def Outcome.after (replies : List Job) (o : Outcome) : Outcome := ⟨o.record, replies ++ o.replies⟩

namespace Pipeline

/-- The jobs of a descriptor. -/
def jobsOf (d : Nat) (jobs : List Job) : List Job := jobs.filter (·.fd == d)

theorem jobsOf_append (d : Nat) (jobs jobs' : List Job) :
    jobsOf d (jobs ++ jobs') = jobsOf d jobs ++ jobsOf d jobs' :=
  List.filter_append ..

namespace State

/-- What a step of the loop puts on `request_jobs`. -/
def arrival (s : State Unit) : Action Unit → List Job
  | .request fd request locals failed =>
    match s.kernel fd with
    | some conn => [⟨s.nextJob, fd, conn, false, request, locals, failed⟩]
    | none => []
  | .main =>
    match s.main with
    | .announced fd conn => [⟨s.nextJob, fd, conn, true, .acceptNotify, default, false⟩]
    | _ => []
  | _ => []

/-- What the worker will leave of a session, with the replies handed over so far. -/
def inHand (s : State Unit) (d : Nat) : Outcome :=
  ((s.workers ()).outcomeFor d (s.store.record d)).after (jobsOf d s.replied)

/-- What the jobs of a descriptor will leave of its session once they are all done. -/
def prospect (s : State Unit) (d : Nat) : Outcome := (s.inHand d).settle (jobsOf d s.requestJobs)

end State

/-- A step that is no part of `terminate_session` for `d`, as far as this changes records. -/
def SparesSession (d : Nat) (s : State Unit) (a : Action Unit) : Prop :=
  a = .main → s.main.terminating ≠ some d

/-- The session of `d` is not terminated, and no record is freed that another thread can reach: it
would be marked when its memory may be the one of `d`. -/
def LeavesSession (d : Nat) (s : State Unit) (a : Action Unit) : Prop :=
  SparesSession d s a ∧ FreesSole s a

/-- A new job is one more to settle. -/
theorem prospect_arrive {s s' : State Unit} {d : Nat} (hinHand : s'.inHand d = s.inHand d)
    {jobs : List Job} (hjobs : s'.requestJobs = s.requestJobs ++ jobs) :
    s'.prospect d = (s.prospect d).settle (jobsOf d jobs) := by
  rw [State.prospect, State.prospect, hinHand, hjobs, jobsOf_append, Outcome.settle_append]

/-- The next job of the queue is taken. -/
theorem prospect_take {s : State Unit} {job : Job} {jobs : List Job} (d : Nat)
    (hpc : s.workers () = .idle) (hjobs : s.requestJobs = job :: jobs) :
    ({ s with requestJobs := jobs }.goto () (.find .add job)).prospect d = s.prospect d := by
  have hidle : (s.workers ()).outcomeFor d (s.store.record d) = ⟨s.store.record d, []⟩ := by
    rw [hpc]
    exact WorkerPc.outcomeFor_other (by simp [WorkerPc.fd]) _
  unfold State.prospect State.inHand
  rw [State.goto_workers_self, hidle, hjobs]
  show ((WorkerPc.outcomeFor _ d (s.store.record d)).after (jobsOf d s.replied)).settle
    (jobsOf d jobs) = _
  by_cases hd : job.fd = d
  · have hself : (WorkerPc.find .add job).fd = some d := congrArg some hd
    have hin : jobsOf d (job :: jobs) = job :: jobsOf d jobs :=
      List.filter_cons_of_pos (by simp [hd])
    rw [WorkerPc.outcomeFor_self hself, hin, Outcome.settle_cons, Outcome.next, Outcome.after,
      Outcome.after, List.append_nil]
    rfl
  · have hother : (WorkerPc.find .add job).fd ≠ some d := by simp [WorkerPc.fd, hd]
    have hout : jobsOf d (job :: jobs) = jobsOf d jobs := List.filter_cons_of_neg (by simp [hd])
    rw [WorkerPc.outcomeFor_other hother, hout]

/-- A reply is handed over. -/
theorem prospect_put {s : State Unit} {job : Job} (d : Nat) (hpc : s.workers () = .reply job) :
    ({ s with
        replyJobs := s.replyJobs ++ [job]
        replied := s.replied ++ [job] }.goto () .idle).prospect d = s.prospect d := by
  unfold State.prospect State.inHand
  rw [State.goto_workers_self, hpc, outcomeFor_reply,
    WorkerPc.outcomeFor_other (by simp [WorkerPc.fd])]
  show (Outcome.mk _ (jobsOf d (s.replied ++ [job]) ++ [])).settle _ = _
  rw [jobsOf_append, List.append_nil]
  rfl

/-- **A step adds its new job to what will be settled, and changes nothing else.** -/
theorem prospect_of_step {s s' : State Unit} {a : Action Unit} {d : Nat} (h : Base s)
    (hstep : Step s a s') (htidy : s.Tidy d) (hspares : SparesSession d s a) :
    s'.prospect d = (s.prospect d).settle (jobsOf d (s.arrival a)) := by
  have houtcome := outcomeFor_of_step h hstep htidy hspares
  have hinHand : (a = .worker () → (s.workers ()).handling ≠ none) → s'.replied = s.replied →
      s'.inHand d = s.inHand d := by
    intro hworker hreplied
    rw [State.inHand, State.inHand, houtcome hworker, hreplied]
  cases hstep with
  | @request fd conn request locals failed hmain hopen hfd =>
    have harrival : s.arrival (.request fd request locals failed) =
        [⟨s.nextJob, fd, conn, false, request, locals, failed⟩] := by
      simp only [State.arrival, hopen]
    rw [harrival]
    exact prospect_arrive (hinHand (by simp) rfl) rfl
  | connect hmain =>
    simp only [State.arrival, hmain]
    exact prospect_arrive (hinHand (by simp) rfl) rfl
  | take hpc hjobs => exact prospect_take d hpc hjobs
  | put hpc => exact prospect_put d hpc
  | handle hstep =>
    obtain ⟨job, hjob, -⟩ := sessionStep_cases hstep
    refine prospect_arrive (hinHand (fun _ => ?_) rfl) (List.append_nil _).symm
    rw [hjob]
    exact Option.some_ne_none job
  | announce hmain | close hmain | forget hmain | hit hmain | miss hmain | insert hmain
  | mark hmain =>
    simp only [State.arrival, hmain]
    exact prospect_arrive (hinHand (by simp) rfl) (List.append_nil _).symm
  | accept | hangup | receive | check | send =>
    exact prospect_arrive (hinHand (by simp) rfl) (List.append_nil _).symm

/-- **What a run leaves of a session is what its jobs leave**, those that are done and those that
are not, as long as the session is not terminated. -/
theorem settle_of_run {as : List (Action Unit)} {s : State Unit} {d : Nat}
    (run : Lts.Run exec (SparesSession d) start as s) :
    s.prospect d =
      (Outcome.mk none []).settle (jobsOf d (Lts.log exec State.arrival start as)) := by
  have hrun : Base s ∧ s.Tidy d ∧ s.prospect d =
      (Outcome.mk none []).settle (jobsOf d (Lts.log exec State.arrival start as)) := by
    induction run with
    | nil =>
      refine ⟨base_start, ⟨fun _ h => (by cases h), fun _ h => (by cases h), fun _ h => ?_⟩, rfl⟩
      cases h
    | @concat t u as a run hok hexec ih =>
      obtain ⟨hbase, htidy, hprospect⟩ := ih
      have hstep := step_of_exec hexec
      refine ⟨hbase.step hstep, tidy_of_step hbase hstep htidy hok, ?_⟩
      rw [run.log_concat, jobsOf_append, Outcome.settle_append, ← hprospect]
      exact prospect_of_step hbase hstep htidy hok
  exact hrun.2.2

/-- **One worker does what the serial server does.** In every run whose steps all meet
`LeavesSession`, once the jobs of `d` are done, its record is the one that the serial server leaves
when it handles the same transactions, and the transactions whose replies have been handed over are
those it answers, in the same order. -/
theorem serial_of_run (w : World) {as : List (Action Unit)} {s : State Unit} {d : Nat}
    (run : Lts.Run exec (LeavesSession d) start as s) {txns : List ClientTxn}
    (hjobs : List.Forall₂ Job.Carries (jobsOf d (Lts.log exec State.arrival start as))
      (txns.filter (·.sessionId == d)))
    (hworker : (s.workers ()).fd ≠ some d) (hqueue : jobsOf d s.requestJobs = []) :
    s.store.record d = (Mealy.final xdrDecodeEncode (Server.start w) txns).record d ∧
      List.Forall₂ Job.Carries (jobsOf d s.replied)
        (answeredOf d (Mealy.trace xdrDecodeEncode (Server.start w) txns)) := by
  have hprospect : s.prospect d = ⟨s.store.record d, jobsOf d s.replied⟩ := by
    rw [State.prospect, hqueue, State.inHand, WorkerPc.outcomeFor_other hworker]
    exact congrArg (Outcome.mk _) (List.append_nil _)
  have hdistinct : (Server.start w).Distinct := List.nodup_nil
  obtain ⟨hrecord, hreplies⟩ := final_settle hdistinct hjobs
  have hsettled : (Outcome.mk ((Server.start w).record d) []).settle
      (jobsOf d (Lts.log exec State.arrival start as)) =
        ⟨s.store.record d, jobsOf d s.replied⟩ :=
    (settle_of_run (run.mono fun _ _ hok => hok.1)).symm.trans hprospect
  rw [hsettled] at hrecord hreplies
  exact ⟨hrecord, hreplies⟩

instance (d : Nat) (s : State Unit) : ∀ a, Decidable (SparesSession d s a)
  | .main => decidable_of_iff (s.main.terminating ≠ some d) ⟨fun h _ => h, fun h => h rfl⟩
  | .accept _ | .request _ _ _ _ | .hangup _ | .worker _ | .responder => isTrue nofun

instance (d : Nat) (s : State Unit) (a : Action Unit) : Decidable (LeavesSession d s a) :=
  inferInstanceAs (Decidable (_ ∧ _))

/-- A client connects and opens the session while its notification is still being handled. -/
def connectAndOpen : List (Action Unit) :=
  [.accept 4, .main, .main] ++ List.replicate 3 (.worker ()) ++
    .request 4 (.connectOpen ⟨3⟩) default false :: List.replicate 17 (.worker ())

/-- The same transactions, one after the other. -/
def notifyThenOpen : List ClientTxn :=
  [.receive 0 4 [] .acceptNotify default, .receive 1 4 [] (.connectOpen ⟨3⟩) default]

theorem serial_connectAndOpen : ∃ s : State Unit,
    Lts.Run exec (LeavesSession 4) start connectAndOpen s ∧
      s.store.record 4 =
        (Mealy.final xdrDecodeEncode (Server.start (World.boot [])) notifyThenOpen).record 4 ∧
      List.Forall₂ Job.Carries (jobsOf 4 s.replied)
        (answeredOf 4 (Mealy.trace xdrDecodeEncode (Server.start (World.boot [])) notifyThenOpen)) := by
  have run : Lts.Run exec (LeavesSession 4) (start : State Unit) connectAndOpen _ :=
    Lts.Run.of_execWhile rfl
  have hjobs : List.Forall₂ Job.Carries
      (jobsOf 4 (Lts.log exec State.arrival start connectAndOpen))
      (notifyThenOpen.filter (·.sessionId == 4)) :=
    .cons ⟨rfl, rfl, rfl, rfl⟩ (.cons ⟨rfl, rfl, rfl, rfl⟩ .nil)
  exact ⟨_, run, serial_of_run (World.boot []) run hjobs (by decide) rfl⟩

end Pipeline

end GlfsNdmp
