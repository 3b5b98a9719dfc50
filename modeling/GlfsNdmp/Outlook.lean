import GlfsNdmp.Store

/-!
# What the pending jobs will leave of a session

With one worker the jobs of a session are handled one after the other, so what they will leave of
its record, and which replies they will let through, is decided by the record and the jobs alone:
`Job.outcome` is one job handled from start to end, `WorkerPc.outcome` the rest of the job a worker
has in hand.

A record that is marked goes with the next job that is done, and takes its reply with it; where
there is no record, or an unmarked one, an unmarked one stays, and the reply is let through.
-/

namespace GlfsNdmp

/-! ## Handling a job from start to end -/

/-- What handling leaves of the record of a session, and the jobs whose replies it lets through. -/
structure Outcome where
  record : Option SessionInfo
  replies : List Job

namespace Job

/-- `cleanup_session` from its test on, and the decision of `xdr_decode_encode`. -/
def finish (job : Job) (r : SessionInfo) : Outcome :=
  if r.isTerminated then ⟨if r.jobs = [] then none else some r, []⟩
  else ⟨some r, if job.replyEmpty then [] else [job]⟩

def cleanup (job : Job) (r : SessionInfo) : Outcome := job.finish (r.removeJob job.address)

def handle (job : Job) (r : SessionInfo) : Outcome := job.cleanup ((job.prog.getD .done).run r)

/-- From `add_job_to_session` on. -/
def add (job : Job) (r : SessionInfo) : Outcome := job.handle (r.addJob job.address)

/-- The record `get_session_info` returns. -/
def found (job : Job) (r : Option SessionInfo) : SessionInfo := r.getD (SessionInfo.fresh job.fd)

/-- All of `xdr_decode_encode`. -/
def outcome (job : Job) (r : Option SessionInfo) : Outcome := job.add (job.found r)

/-- From a look-up on. -/
def afterLookup (job : Job) (purpose : Purpose) (r : SessionInfo) : Outcome :=
  match purpose with
  | .add => job.add r
  | .handle => job.handle r
  | .clean => job.cleanup r

end Job

/-- What is left to do of the job a worker has in hand. -/
def WorkerPc.outcome (pc : WorkerPc) (r : Option SessionInfo) : Outcome :=
  match pc with
  | .find purpose job | .insert purpose job => job.afterLookup purpose (job.found r)
  | .push _ job => job.add (job.found r)
  | .access _ prog job => job.cleanup (prog.run (job.found r))
  | .pop _ job => job.cleanup (job.found r)
  | .test _ job => job.finish (job.found r)
  | .count _ job => ⟨if (job.found r).jobs = [] then none else some (job.found r), []⟩
  | .unqueue _ _ => ⟨none, []⟩
  | .release _ _ | .idle => ⟨r, []⟩
  | .reply job => ⟨r, [job]⟩

/-- One more job. -/
def Outcome.next (o : Outcome) (job : Job) : Outcome where
  record := (job.outcome o.record).record
  replies := o.replies ++ (job.outcome o.record).replies

/-- Handling a queue of jobs. -/
def Outcome.settle (o : Outcome) (jobs : List Job) : Outcome := jobs.foldl Outcome.next o

theorem Outcome.settle_cons (o : Outcome) (job : Job) (jobs : List Job) :
    o.settle (job :: jobs) = (o.next job).settle jobs := rfl

theorem Outcome.settle_append (o : Outcome) (jobs jobs' : List Job) :
    o.settle (jobs ++ jobs') = (o.settle jobs).settle jobs' :=
  List.foldl_append

/-- A reply that has been let through stays so. -/
theorem Outcome.replies_settle (o : Outcome) (jobs : List Job) :
    o.replies <+: (o.settle jobs).replies := by
  induction jobs generalizing o with
  | nil => exact List.prefix_refl _
  | cons job jobs ih => exact (List.prefix_append _ _).trans (ih (o.next job))

/-- What is left does not depend on the replies so far, and they only go before the later ones. -/
theorem Outcome.settle_mk (r : Option SessionInfo) (replies : List Job) (jobs : List Job) :
    (Outcome.mk r replies).settle jobs =
      ⟨((Outcome.mk r []).settle jobs).record,
        replies ++ ((Outcome.mk r []).settle jobs).replies⟩ := by
  induction jobs generalizing r replies with
  | nil => exact congrArg (Outcome.mk r) (List.append_nil replies).symm
  | cons job jobs ih =>
    rw [Outcome.settle_cons, Outcome.settle_cons, Outcome.next, Outcome.next, ih,
      ih _ ([] ++ _), List.nil_append, List.append_assoc]

/-! ## Marked and unmarked records -/

/-- The fields no program writes. -/
theorem Prog.run_frame (prog : Prog) (r : SessionInfo) :
    (prog.run r).sessionId = r.sessionId ∧ (prog.run r).jobs = r.jobs ∧
      (prog.run r).isTerminated = r.isTerminated := by
  induction prog generalizing r with
  | done => exact ⟨rfl, rfl, rfl⟩
  | enter next ih | exit next ih => exact ih _
  | read field next ih => exact ih _ r
  | write field value next ih =>
    obtain ⟨hid, hjobs, hterm⟩ := ih (r.set field value)
    obtain ⟨hid', hjobs', hterm'⟩ := r.set_frame field value
    exact ⟨hid.trans hid', hjobs.trans hjobs', hterm.trans hterm'⟩

namespace Job

theorem finish_of_not_terminated (job : Job) {r : SessionInfo} (h : r.isTerminated = false) :
    job.finish r = ⟨some r, if job.replyEmpty then [] else [job]⟩ := by
  rw [finish, h]
  rfl

theorem finish_of_terminated (job : Job) {r : SessionInfo} (h : r.isTerminated = true)
    (hjobs : r.jobs = []) : job.finish r = ⟨none, []⟩ := by
  rw [finish, h, if_pos rfl, if_pos hjobs]

/-- A marked record that counts no other job is removed. -/
theorem cleanup_of_terminated (job : Job) {r : SessionInfo} (h : r.isTerminated = true)
    (hjobs : r.jobs = [job.address]) : job.cleanup r = ⟨none, []⟩ := by
  refine job.finish_of_terminated h ?_
  simp [SessionInfo.removeJob, hjobs]

theorem handle_of_terminated (job : Job) {r : SessionInfo} (h : r.isTerminated = true)
    (hjobs : r.jobs = [job.address]) : job.handle r = ⟨none, []⟩ := by
  obtain ⟨-, hjobs', hterm⟩ := (job.prog.getD .done).run_frame r
  exact job.cleanup_of_terminated (hterm.trans h) (hjobs'.trans hjobs)

theorem add_of_terminated (job : Job) {r : SessionInfo} (h : r.isTerminated = true)
    (hjobs : r.jobs = []) : job.add r = ⟨none, []⟩ := by
  refine job.handle_of_terminated h ?_
  simp [SessionInfo.addJob, hjobs]

/-- The replies of a session that is not terminated are let through, and its record stays. -/
structure Lets (job : Job) (o : Outcome) : Prop where
  record : ∃ r, o.record = some r ∧ r.isTerminated = false
  replies : o.replies = if job.replyEmpty then [] else [job]

theorem finish_lets (job : Job) {r : SessionInfo} (h : r.isTerminated = false) :
    job.Lets (job.finish r) := by
  rw [job.finish_of_not_terminated h]
  exact ⟨⟨r, rfl, h⟩, rfl⟩

theorem cleanup_lets (job : Job) {r : SessionInfo} (h : r.isTerminated = false) :
    job.Lets (job.cleanup r) :=
  job.finish_lets h

theorem handle_lets (job : Job) {r : SessionInfo} (h : r.isTerminated = false) :
    job.Lets (job.handle r) :=
  job.cleanup_lets (((job.prog.getD .done).run_frame r).2.2.trans h)

theorem afterLookup_lets (job : Job) (purpose : Purpose) {r : SessionInfo}
    (h : r.isTerminated = false) : job.Lets (job.afterLookup purpose r) := by
  cases purpose with
  | add => exact job.handle_lets h
  | handle => exact job.handle_lets h
  | clean => exact job.cleanup_lets h

theorem found_not_terminated (job : Job) {r : Option SessionInfo}
    (h : ∀ x ∈ r, x.isTerminated = false) : (job.found r).isTerminated = false := by
  cases r with
  | none => rfl
  | some x => exact h x rfl

theorem outcome_lets (job : Job) {r : Option SessionInfo} (h : ∀ x ∈ r, x.isTerminated = false) :
    job.Lets (job.outcome r) :=
  job.handle_lets (job.found_not_terminated h)

end Job

/-- No job removes a record that is not marked. -/
theorem Outcome.settle_not_terminated {o : Outcome} {r : SessionInfo} (h : o.record = some r)
    (hr : r.isTerminated = false) (jobs : List Job) : (o.settle jobs).record ≠ none := by
  induction jobs generalizing o r with
  | nil =>
    intro hnone
    cases h.symm.trans hnone
  | cons job jobs ih =>
    obtain ⟨⟨r', hr', hterm⟩, -⟩ := job.outcome_lets (r := o.record) (by simp [h, hr])
    exact ih (o := o.next job) hr' hterm

/-- Where nothing is left in the end, no job meets a record that is missing. -/
theorem Outcome.settle_none {o : Outcome} (h : o.record = none) {jobs : List Job}
    (hjobs : (o.settle jobs).record = none) : jobs = [] := by
  cases jobs with
  | nil => rfl
  | cons job jobs =>
    obtain ⟨⟨r, hr, hterm⟩, -⟩ := job.outcome_lets (r := o.record) (by simp [h])
    have hleft : (o.next job).record = some r := hr
    exact absurd hjobs (Outcome.settle_not_terminated hleft hterm jobs)

end GlfsNdmp
