import GlfsNdmp.Connections
import GlfsNdmp.Records

/-!
# The jobs that are still to be handled

The server runs one worker (`THREAD_POOL_SIZE`), so the jobs are handled in the order in which the
loop has queued them: the jobs of one descriptor come connection after connection, and those of a
connection start with its accept job (`Ordered.before`).

`State.outlook` is what handling the jobs of a descriptor that are older than a given connection
will leave of its session. `outlook_of_step` says which steps do not change it: all but those of
`terminate_session` for that descriptor.
-/

namespace GlfsNdmp.Pipeline

/-- The job is one of `d`, from before a connection. -/
def older (d conn : Nat) (job : Job) : Bool := job.fd == d && job.conn < conn

theorem older_iff {d conn : Nat} {job : Job} :
    older d conn job = true ↔ job.fd = d ∧ job.conn < conn := by
  simp [older]

namespace State

/-- The jobs that are not done, in the order in which they are handled. -/
def pending (s : State Unit) : List Job := (s.workers ()).handling.toList ++ s.requestJobs

/-- The jobs of `d` in `request_jobs` that are older than a connection. -/
def backlog (s : State Unit) (d conn : Nat) : List Job :=
  s.requestJobs.filter (older d conn)

/-- What handling the older jobs of `d` will leave of its session. -/
def outlook (s : State Unit) (d conn : Nat) : Outcome :=
  ((s.workers ()).outcomeFor d (s.store.record d)).settle (s.backlog d conn)

/-- The reply the worker is about to hand over, if it is one of `d`. -/
def replyFor (s : State Unit) (d : Nat) : List Job :=
  (s.workers ()).replying.toList.filter (·.fd == d)

/-- The registry and the worker agree on the record of `d`. -/
def Tidy (s : State Unit) (d : Nat) : Prop := s.store.Tidy (s.workers ()) d

instance (s : State Unit) (d : Nat) : Decidable (s.Tidy d) :=
  inferInstanceAs (Decidable (s.store.Tidy (s.workers ()) d))

end State

/-! ## The order of the jobs -/

/-- The order of two jobs of a descriptor: by connection, the accept job first. -/
def Before (job job' : Job) : Prop :=
  job.fd = job'.fd → job.conn < job'.conn ∨ job.conn = job'.conn ∧ job'.isTcpConnect = false

structure Ordered (s : State Unit) : Prop where
  before : s.pending.Pairwise Before
  conn_lt : ∀ job ∈ s.pending, job.conn < s.nextConn
  current : ∀ job ∈ s.pending, ∀ conn, s.Current job.fd conn → job.conn ≤ conn
  announced : ∀ fd conn, s.main.announcing = some (fd, conn) →
    ∀ job ∈ s.pending, job.fd = fd → job.conn < conn

theorem ordered_start : Ordered start where
  before := List.Pairwise.nil
  conn_lt _ h := by cases h
  current _ h := by cases h
  announced _ _ h := by cases h

/-- A request of a client. -/
def Action.asks (a : Action Unit) (job : Job) : Prop :=
  a = .request job.fd job.request job.locals job.failed ∧ job.isTcpConnect = false

/-- Where a new job comes from: it is a request of a client, or the accept job of its connection. -/
structure Arrives (s : State Unit) (a : Action Unit) (job : Job) : Prop where
  opened : s.kernel job.fd = some job.conn
  kind : a.asks job ∨ job.request = .acceptNotify ∧ job.isTcpConnect = true ∧
    s.main.announcing = some (job.fd, job.conn)

/-- A job is queued, or some are done. -/
theorem pending_of_step {s s' : State Unit} {a : Action Unit} (hconn : Connections s)
    (h : Step s a s') :
    s'.pending.Sublist s.pending ∨
      ∃ job, s'.pending = s.pending ++ [job] ∧ Arrives s a job ∧ s'.kernel = s.kernel ∧
        s'.main.ended = none ∧ s'.main.announcing = none := by
  cases h with
  | @request fd conn request locals failed hmain hopen hfd =>
    right
    refine ⟨_, (List.append_assoc _ _ _).symm, ⟨hopen, Or.inl ⟨rfl, rfl⟩⟩, rfl, ?_, ?_⟩
    · exact (congrArg MainPc.ended hmain).trans rfl
    · exact (congrArg MainPc.announcing hmain).trans rfl
  | @connect fd conn hmain =>
    right
    have hopen := hconn.opened fd conn (by rw [hmain]; rfl)
    exact ⟨_, (List.append_assoc _ _ _).symm,
      ⟨hopen, Or.inr ⟨rfl, rfl, by rw [hmain]; rfl⟩⟩, rfl, rfl, rfl⟩
  | @take i job jobs hpc hjobs =>
    left
    rw [State.pending, State.pending, State.goto_workers_self, hpc, hjobs]
    exact List.Sublist.refl _
  | @put i job hpc =>
    left
    rw [State.pending, State.pending, State.goto_workers_self, hpc]
    exact List.Sublist.refl _
  | @handle i store pc hstep =>
    left
    obtain ⟨job, hjob, hpc⟩ := sessionStep_cases hstep
    rw [State.pending, State.pending, State.goto_workers_self, hjob]
    rcases hpc with hpc | rfl | ⟨session, -, -, -, rfl⟩
    · rw [hpc]
      exact List.Sublist.refl _
    · exact List.sublist_cons_self job s.requestJobs
    · exact List.sublist_cons_self job s.requestJobs
  | _ => exact Or.inl (List.Sublist.refl _)

theorem announcing_of_step {s s' : State Unit} {a : Action Unit} (h : Step s a s')
    {fd conn : Nat} (hannouncing : s'.main.announcing = some (fd, conn)) :
    s.main.announcing = some (fd, conn) ∨ a = .accept fd ∧ conn = s.nextConn := by
  cases h with
  | accept =>
    cases hannouncing
    exact Or.inr ⟨rfl, rfl⟩
  | announce hmain =>
    cases hannouncing
    exact Or.inl (by rw [hmain]; rfl)
  | hangup | connect | close | forget | hit | miss | insert | mark => cases hannouncing
  | _ => exact Or.inl hannouncing

theorem Ordered.step {s s' : State Unit} {a : Action Unit} (h : Ordered s) (hconn : Connections s)
    (hstep : Step s a s') : Ordered s' := by
  rcases pending_of_step hconn hstep with hsub | ⟨job, hpending, hjob, hkernel, hended, hnone⟩
  · refine ⟨h.before.sublist hsub, fun job hmem => ?_, fun job hmem conn hc => ?_,
      fun fd conn hc job hmem hfd => ?_⟩
    · exact Nat.lt_of_lt_of_le (h.conn_lt job (hsub.subset hmem)) (nextConn_le hstep)
    · rcases hconn.current_of_step hstep hc with hc | ⟨-, rfl⟩
      · exact h.current job (hsub.subset hmem) conn hc
      · exact Nat.le_of_lt (h.conn_lt job (hsub.subset hmem))
    · rcases announcing_of_step hstep hc with hc | ⟨-, rfl⟩
      · exact h.announced fd conn hc job (hsub.subset hmem) hfd
      · exact h.conn_lt job (hsub.subset hmem)
  · have hcurrent : s.Current job.fd job.conn := Or.inl hjob.opened
    refine ⟨?_, fun job' hmem => ?_, fun job' hmem conn hc => ?_, fun fd conn hc => ?_⟩
    · rw [hpending]
      refine List.pairwise_append.2 ⟨h.before, List.pairwise_singleton _ _, fun old hold x hx => ?_⟩
      rw [List.mem_singleton.1 hx]
      intro hfd
      rcases hjob.kind with ⟨-, hfirst⟩ | ⟨-, -, hannounced⟩
      · have hle := h.current old hold job.conn (hfd ▸ hcurrent)
        rcases Nat.lt_or_eq_of_le hle with hlt | heq
        · exact Or.inl hlt
        · exact Or.inr ⟨heq, hfirst⟩
      · exact Or.inl (h.announced job.fd job.conn hannounced old hold hfd)
    · refine Nat.lt_of_lt_of_le ?_ (nextConn_le hstep)
      rw [hpending] at hmem
      rcases List.mem_append.1 hmem with hmem | hmem
      · exact h.conn_lt job' hmem
      · rw [List.mem_singleton.1 hmem]
        exact hconn.current_lt job.fd job.conn hcurrent
    · rw [State.Current, hkernel, hended] at hc
      rcases hc with hc | ⟨⟨⟩⟩
      rw [hpending] at hmem
      rcases List.mem_append.1 hmem with hmem | hmem
      · exact h.current job' hmem conn (Or.inl hc)
      · rw [List.mem_singleton.1 hmem] at hc ⊢
        exact Nat.le_of_eq (Option.some.inj (hjob.opened.symm.trans hc))
    · rw [hnone] at hc
      cases hc

/-! ## Pointers -/

/-- All pointers are to records of the session they are used for. -/
structure Points (s : State Unit) : Prop where
  sound : s.store.Sound (s.workers ())
  marked : ∀ fd conn a, s.main = .mark fd conn a →
    a < s.store.nextAddress ∧ (s.store.memory a).sessionId = fd

theorem points_start : Points start where
  sound := ⟨List.nodup_nil, fun _ h => (by cases h), fun _ h => by cases h⟩
  marked _ _ _ h := by cases h

theorem Points.step {s s' : State Unit} {a : Action Unit} (h : Points s) (hstep : Step s a s') :
    Points s' := by
  cases hstep with
  | accept | hangup | announce | connect | close | forget =>
    exact ⟨h.sound, fun _ _ _ hc => by cases hc⟩
  | request | receive | check | send => exact ⟨h.sound, h.marked⟩
  | hit _ hfind =>
    refine ⟨h.sound.works (s.store.works_touch _ 0), fun _ _ _ hc => ?_⟩
    cases hc
    exact ⟨h.sound.lt _ (List.mem_of_find?_eq_some hfind), Store.sessionId_of_find hfind⟩
  | miss => exact ⟨h.sound.works (s.store.works_touch _ 0), fun _ _ _ hc => by cases hc⟩
  | @insert fd conn hmain =>
    refine ⟨h.sound.insert fd, fun _ _ _ hc => ?_⟩
    cases hc
    refine ⟨Nat.lt_succ_self _, ?_⟩
    rw [Store.memory_insert_self]
    rfl
  | mark =>
    exact ⟨h.sound.works (s.store.works_modify _ fun _ => rfl), fun _ _ _ hc => by cases hc⟩
  | take | put =>
    refine ⟨?_, h.marked⟩
    rw [State.goto_workers_self]
    exact h.sound.goto fun _ hc => by cases hc
  | @handle i store pc hstep =>
    have hsession := SessionStep.of_sessionStep hstep
    refine ⟨?_, fun fd conn a hc => ?_⟩
    · rw [State.goto_workers_self]
      exact hsession.sound h.sound
    · obtain ⟨hlt, hid⟩ := h.marked fd conn a hc
      exact ⟨Nat.lt_of_lt_of_le hlt hsession.keepsIds.1, (hsession.keepsIds.2 a hlt).trans hid⟩

/-- What holds in every run with one worker. -/
structure Base (s : State Unit) : Prop where
  connections : Connections s
  ordered : Ordered s
  points : Points s

theorem base_start : Base start := ⟨connections_start, ordered_start, points_start⟩

theorem Base.step {s s' : State Unit} {a : Action Unit} (h : Base s) (hstep : Step s a s') :
    Base s' :=
  ⟨h.connections.step hstep, h.ordered.step h.connections hstep, h.points.step hstep⟩

/-! ## The outlook -/

/-- The other threads do not move the worker. -/
theorem workers_of_step {s s' : State Unit} {a : Action Unit} (h : Step s a s')
    (ha : a ≠ .worker ()) : s'.workers () = s.workers () := by
  cases h with
  | take | put | handle => exact absurd rfl ha
  | _ => rfl

/-- The loop leaves a session alone unless it is about to insert or mark its record. -/
theorem Base.frame {s s' : State Unit} {a : Action Unit} (h : Base s) (hstep : Step s a s')
    (hloop : a ≠ .worker ()) {d : Nat} (hterm : a = .main → s.main.terminating ≠ some d) :
    s.store.Frame d s'.store ∧ s.store.KeepsIds s'.store := by
  have hsame : s.store.Frame d s.store :=
    ⟨rfl, rfl, fun _ ha hid => ⟨ha, hid⟩, fun _ _ _ => rfl⟩
  cases hstep with
  | take | put | handle => exact absurd rfl hloop
  | hit | miss => exact ⟨s.store.frame_touch _ d, Store.KeepsIds.refl _⟩
  | @insert fd conn hmain =>
    rw [hmain] at hterm
    exact ⟨Store.frame_insert h.points.sound.lt fun heq => hterm rfl (congrArg some heq),
      Store.keepsIds_insert _ _⟩
  | @mark fd conn a hmain =>
    rw [hmain] at hterm
    have hworks := s.store.works_modify a fun r => (rfl : r.terminate.sessionId = r.sessionId)
    refine ⟨hworks.frame fun heq => hterm rfl (congrArg some ?_), hworks.keepsIds⟩
    exact (h.points.marked fd conn a hmain).2.symm.trans heq
  | _ => exact ⟨hsame, Store.KeepsIds.refl _⟩

/-- The registry and the worker agree on the record of a session until the loop inserts or marks
it. -/
theorem tidy_of_step {s s' : State Unit} {a : Action Unit} {d : Nat} (h : Base s)
    (hstep : Step s a s') (htidy : s.Tidy d) (hterm : a = .main → s.main.terminating ≠ some d) :
    s'.Tidy d := by
  by_cases hloop : a = .worker ()
  · subst hloop
    cases hstep with
    | take | put =>
      rw [State.Tidy, State.goto_workers_self]
      exact ⟨htidy.only, fun _ hc => (by cases hc), fun _ hc => (by cases hc)⟩
    | handle hstep =>
      rw [State.Tidy, State.goto_workers_self]
      exact ((SessionStep.of_sessionStep hstep).outcomeFor h.points.sound htidy).1
  · obtain ⟨hframe, hkeeps⟩ := h.frame hstep hloop hterm
    rw [State.Tidy, workers_of_step hstep hloop]
    exact htidy.frame hframe h.points.sound hkeeps

/-- What the worker will leave of a session is changed by the loop, which inserts and marks, and by
taking and handing over a job. -/
theorem outcomeFor_of_step {s s' : State Unit} {a : Action Unit} {d : Nat} (h : Base s)
    (hstep : Step s a s') (htidy : s.Tidy d) (hterm : a = .main → s.main.terminating ≠ some d)
    (hworker : a = .worker () → (s.workers ()).handling ≠ none) :
    (s'.workers ()).outcomeFor d (s'.store.record d) =
      (s.workers ()).outcomeFor d (s.store.record d) := by
  by_cases hloop : a = .worker ()
  · subst hloop
    cases hstep with
    | take hpc | put hpc => exact absurd (by rw [hpc]; rfl) (hworker rfl)
    | handle hstep =>
      rw [State.goto_workers_self]
      exact ((SessionStep.of_sessionStep hstep).outcomeFor h.points.sound htidy).2
  · rw [workers_of_step hstep hloop, (h.frame hstep hloop hterm).1.record]

/-- A step after which the worker will leave the same of the session, and the jobs in the queue are
the same. -/
theorem outlook_congr {s s' : State Unit} {d conn : Nat}
    (houtcome : (s'.workers ()).outcomeFor d (s'.store.record d) =
      (s.workers ()).outcomeFor d (s.store.record d))
    (hbacklog : s'.backlog d conn = s.backlog d conn) : s'.outlook d conn = s.outlook d conn := by
  rw [State.outlook, State.outlook, houtcome, hbacklog]

theorem backlog_concat {s s' : State Unit} {job : Job} {d conn : Nat}
    (hjobs : s'.requestJobs = s.requestJobs ++ [job]) (hjob : job.fd = d → conn ≤ job.conn) :
    s'.backlog d conn = s.backlog d conn := by
  rw [State.backlog, State.backlog, hjobs, List.filter_append]
  have hnot : ¬ older d conn job = true := by
    rw [older_iff]
    rintro ⟨hd, hlt⟩
    exact Nat.not_lt.2 (hjob hd) hlt
  rw [List.filter_cons_of_neg hnot, List.filter_nil, List.append_nil]

/-- The next job of the queue is taken. -/
theorem outlook_take {s : State Unit} {job : Job} {jobs : List Job} {d conn : Nat}
    (hpc : s.workers () = .idle) (hjobs : s.requestJobs = job :: jobs)
    (hnext : job.fd = d → job.conn < conn) :
    ({ s with requestJobs := jobs }.goto () (.find .add job)).outlook d conn =
      s.outlook d conn := by
  rw [State.outlook, State.outlook, State.backlog, State.backlog, State.goto_workers_self, hpc,
    hjobs]
  change (WorkerPc.outcomeFor _ d (s.store.record d)).settle (jobs.filter _) = _
  by_cases hd : job.fd = d
  · have hin : older d conn job = true := older_iff.2 ⟨hd, hnext hd⟩
    rw [List.filter_cons_of_pos hin, Outcome.settle_cons]
    refine congrArg (Outcome.settle · _) ?_
    have hself : (WorkerPc.find .add job).fd = some d := congrArg some hd
    rw [WorkerPc.outcomeFor_self hself, WorkerPc.outcomeFor_other (by simp [WorkerPc.fd])]
    rfl
  · have hout : ¬ older d conn job = true := fun hin => hd (older_iff.1 hin).1
    have hother : (WorkerPc.find .add job).fd ≠ some d := by simp [WorkerPc.fd, hd]
    rw [List.filter_cons_of_neg hout, WorkerPc.outcomeFor_other hother,
      WorkerPc.outcomeFor_other (by simp [WorkerPc.fd])]

theorem outcomeFor_reply (job : Job) (d : Nat) (r : Option SessionInfo) :
    (WorkerPc.reply job).outcomeFor d r = ⟨r, [job].filter (·.fd == d)⟩ := by
  unfold WorkerPc.outcomeFor
  by_cases hd : job.fd = d <;> simp [WorkerPc.fd, WorkerPc.outcome, hd]

/-- A reply is handed over. -/
theorem outlook_put {s s' : State Unit} {job : Job} (d conn : Nat) (hpc : s.workers () = .reply job)
    (hpc' : s'.workers () = .idle) (hstore : s'.store = s.store)
    (hjobs : s'.requestJobs = s.requestJobs) :
    (s.outlook d conn).record = (s'.outlook d conn).record ∧
      (s.outlook d conn).replies = s.replyFor d ++ (s'.outlook d conn).replies := by
  have hbacklog : s'.backlog d conn = s.backlog d conn := by
    rw [State.backlog, State.backlog, hjobs]
  have hidle : (s'.workers ()).outcomeFor d (s'.store.record d) = ⟨s.store.record d, []⟩ := by
    rw [hpc', hstore]
    exact WorkerPc.outcomeFor_other (by simp [WorkerPc.fd]) _
  have hreply : (s.workers ()).outcomeFor d (s.store.record d) =
      ⟨s.store.record d, s.replyFor d⟩ := by
    rw [State.replyFor, hpc, outcomeFor_reply]
    rfl
  rw [State.outlook, State.outlook, hidle, hreply, hbacklog, Outcome.settle_mk _ (s.replyFor d)]
  exact ⟨rfl, rfl⟩

/-- A worker that lets a reply through was to do so. -/
theorem replyFor_prefix (s : State Unit) (d conn : Nat) :
    s.replyFor d <+: (s.outlook d conn).replies := by
  refine List.IsPrefix.trans ?_ (Outcome.replies_settle _ _)
  cases hpc : s.workers () with
  | reply job =>
    rw [State.replyFor, hpc, outcomeFor_reply]
    exact List.prefix_refl _
  | _ =>
    rw [State.replyFor, hpc]
    exact List.nil_prefix

/-- The outlook for a session after a step: the same, less the reply that was handed over, if it
was one of the session. -/
structure State.Continues (s : State Unit) (d conn : Nat) (s' : State Unit) : Prop where
  tidy : s'.Tidy d
  record : (s'.outlook d conn).record = (s.outlook d conn).record
  replies : (s'.outlook d conn).replies = (s.outlook d conn).replies ∧
      (s.replyFor d = [] ∨ s'.replyFor d = s.replyFor d) ∨
    (s.outlook d conn).replies = s.replyFor d ++ (s'.outlook d conn).replies ∧
      s'.replyFor d = []

theorem State.Continues.of_eq {s s' : State Unit} {d conn : Nat} (htidy : s'.Tidy d)
    (heq : s'.outlook d conn = s.outlook d conn)
    (hreply : s.replyFor d = [] ∨ s'.replyFor d = s.replyFor d) : s.Continues d conn s' :=
  ⟨htidy, congrArg Outcome.record heq, Or.inl ⟨congrArg Outcome.replies heq, hreply⟩⟩

/-- **What the pending jobs will leave of a session does not change**, unless the loop inserts or
marks its record, or the worker takes a job that does not count. -/
theorem outlook_of_step {s s' : State Unit} {a : Action Unit} {d conn : Nat} (h : Base s)
    (hstep : Step s a s') (htidy : s.Tidy d) (hterm : a = .main → s.main.terminating ≠ some d)
    (hopen : ∀ conn', s.kernel d = some conn' → conn ≤ conn')
    (hnext : ∀ job jobs, s.workers () = .idle → s.requestJobs = job :: jobs →
      s'.requestJobs = jobs → job.fd = d → job.conn < conn) : s.Continues d conn s' := by
  have htidy' := tidy_of_step h hstep htidy hterm
  have houtcome := outcomeFor_of_step h hstep htidy hterm
  have hloop : a ≠ .worker () → s'.backlog d conn = s.backlog d conn → s.Continues d conn s' := by
    intro hne hbacklog
    refine .of_eq htidy' (outlook_congr (houtcome fun hw => absurd hw hne) hbacklog) (Or.inr ?_)
    rw [State.replyFor, State.replyFor, workers_of_step hstep hne]
  cases hstep with
  | @request fd conn' request locals failed hmain hopen' hfd =>
    refine hloop (by simp) (backlog_concat rfl fun heq => hopen conn' ?_)
    exact heq ▸ hopen'
  | @connect fd conn' hmain =>
    refine hloop (by simp) (backlog_concat rfl fun heq => hopen conn' ?_)
    exact heq ▸ h.connections.opened fd conn' (by rw [hmain]; rfl)
  | @take i job jobs hpc hjobs =>
    refine .of_eq htidy' (outlook_take hpc hjobs (hnext job jobs hpc hjobs rfl)) (Or.inl ?_)
    rw [State.replyFor, hpc]
    rfl
  | @put i job hpc =>
    have hidle : ({ s with
        replyJobs := s.replyJobs ++ [job]
        replied := s.replied ++ [job] }.goto i .idle).workers i = .idle :=
      State.goto_workers_self _ _ _
    obtain ⟨hrecord, hreplies⟩ := outlook_put d conn hpc hidle rfl rfl
    refine ⟨htidy', hrecord.symm, Or.inr ⟨hreplies, ?_⟩⟩
    rw [State.replyFor, hidle]
    rfl
  | @handle i store pc hstep =>
    obtain ⟨job, hjob, -⟩ := sessionStep_cases hstep
    refine .of_eq htidy' (outlook_congr (houtcome fun _ => ?_) rfl) (Or.inl ?_)
    · rw [hjob]
      exact Option.some_ne_none job
    · rw [State.replyFor, WorkerPc.replying_of_handling hjob]
      rfl
  | _ => exact hloop (by simp) rfl

/-- Where the worker is idle and no older job is queued, the record is what will be left. -/
theorem outlook_idle {s : State Unit} {d conn : Nat} (hpc : (s.workers ()).fd ≠ some d)
    (hjobs : ∀ job ∈ s.requestJobs, job.fd = d → conn ≤ job.conn) :
    s.outlook d conn = ⟨s.store.record d, []⟩ := by
  have hbacklog : s.backlog d conn = [] := by
    rw [State.backlog, List.filter_eq_nil_iff]
    intro job hjob holder
    obtain ⟨hd, hlt⟩ := older_iff.1 holder
    exact Nat.not_lt.2 (hjobs job hjob hd) hlt
  rw [State.outlook, hbacklog, WorkerPc.outcomeFor_other hpc]
  rfl

/-- When a job is next, the jobs of its descriptor from before its connection are done. -/
theorem outlook_next {s : State Unit} (h : Ordered s) {job : Job} {jobs : List Job}
    (hpc : s.workers () = .idle) (hjobs : s.requestJobs = job :: jobs) :
    s.outlook job.fd job.conn = ⟨s.store.record job.fd, []⟩ := by
  have hbefore := h.before
  rw [State.pending, hpc, hjobs] at hbefore
  refine outlook_idle (by rw [hpc]; exact fun hc => by cases hc) fun k hk hfd => ?_
  rw [hjobs] at hk
  rcases List.mem_cons.1 hk with rfl | hk
  · exact Nat.le_refl _
  · rcases List.rel_of_pairwise_cons hbefore hk hfd.symm with hlt | ⟨heq, -⟩
    · exact Nat.le_of_lt hlt
    · exact Nat.le_of_eq heq

/-- What the worker will do at a record that is not marked is to let the reply through. -/
theorem test_prefix {s : State Unit} {d a : Nat} {job : Job} (conn : Nat) (htidy : s.Tidy d)
    (hsound : s.store.Sound (s.workers ())) (hpc : s.workers () = .test a job) (hfd : job.fd = d)
    (hterm : (s.store.memory a).isTerminated = false) :
    (if job.replyEmpty then [] else [job]) <+: (s.outlook d conn).replies := by
  have hid : (s.store.memory a).sessionId = d := by
    have hpointer := (hsound.pointer a (by rw [hpc]; rfl)).2
    rw [hpc] at hpointer
    exact (Option.some.inj hpointer).symm.trans hfd
  have hfind : s.store.find d = some a := htidy.held a (by rw [hpc]; rfl) (by rw [hpc]; rfl) hid
  have houtcome : (s.workers ()).outcomeFor d (s.store.record d) =
      ⟨some (s.store.memory a), if job.replyEmpty then [] else [job]⟩ := by
    have hself : (WorkerPc.test a job).fd = some d := congrArg some hfd
    rw [hpc, WorkerPc.outcomeFor_self hself, Store.record_of_find hfind]
    exact job.finish_of_not_terminated hterm
  rw [State.outlook, houtcome]
  exact Outcome.replies_settle ⟨some (s.store.memory a), _⟩ (s.backlog d conn)

/-! ## Accept jobs -/

/-- The accept job of a connection is not taken yet. -/
def State.Awaits (s : State Unit) (fd conn : Nat) : Prop :=
  s.main.announcing = some (fd, conn) ∨
    ∃ job ∈ s.requestJobs, job.isTcpConnect = true ∧ job.fd = fd ∧ job.conn = conn

theorem awaits_of_step {s s' : State Unit} {a : Action Unit} (h : Step s a s') {fd conn : Nat}
    (hawaits : s'.Awaits fd conn) :
    s.Awaits fd conn ∨ a = .accept fd ∧ conn = s.nextConn := by
  rcases hawaits with hannouncing | ⟨job, hjob, hfirst, rfl, rfl⟩
  · exact (announcing_of_step h hannouncing).imp_left Or.inl
  · left
    cases h with
    | request =>
      rcases List.mem_append.1 hjob with hjob | hjob
      · exact Or.inr ⟨job, hjob, hfirst, rfl, rfl⟩
      · rw [List.mem_singleton.1 hjob] at hfirst
        cases hfirst
    | connect hmain =>
      rcases List.mem_append.1 hjob with hjob | hjob
      · exact Or.inr ⟨job, hjob, hfirst, rfl, rfl⟩
      · rw [List.mem_singleton.1 hjob, State.Awaits, hmain]
        exact Or.inl rfl
    | take _ hjobs =>
      exact Or.inr ⟨job, hjobs ▸ List.mem_cons_of_mem _ hjob, hfirst, rfl, rfl⟩
    | _ => exact Or.inr ⟨job, hjob, hfirst, rfl, rfl⟩

/-- An accept job that waits goes on waiting, or it is taken. -/
theorem awaits_or_taken {s s' : State Unit} {a : Action Unit} (h : Step s a s') {fd conn : Nat}
    (hawaits : s.Awaits fd conn) :
    s'.Awaits fd conn ∨ ∃ job jobs, s.workers () = .idle ∧ s.requestJobs = job :: jobs ∧
      job.isTcpConnect = true ∧ job.fd = fd ∧ job.conn = conn ∧
      s' = { s with requestJobs := jobs }.goto () (.find .add job) := by
  rcases hawaits with hannouncing | ⟨job, hjob, hfirst, rfl, rfl⟩
  · left
    cases h with
    | accept hmain | request hmain | hangup hmain | close hmain | forget hmain | hit hmain
    | miss hmain | insert hmain | mark hmain =>
      rw [hmain] at hannouncing
      cases hannouncing
    | announce hmain =>
      rw [hmain] at hannouncing
      cases hannouncing
      exact Or.inl rfl
    | connect hmain =>
      rw [hmain] at hannouncing
      cases hannouncing
      exact Or.inr ⟨_, List.mem_append_right _ List.mem_cons_self, rfl, rfl, rfl⟩
    | _ => exact Or.inl hannouncing
  · cases h with
    | request | connect =>
      exact Or.inl (Or.inr ⟨job, List.mem_append_left _ hjob, hfirst, rfl, rfl⟩)
    | @take i head jobs hpc hjobs =>
      rw [hjobs] at hjob
      rcases List.mem_cons.1 hjob with rfl | hjob
      · exact Or.inr ⟨job, jobs, hpc, hjobs, hfirst, rfl, rfl, rfl⟩
      · exact Or.inl (Or.inr ⟨job, hjob, hfirst, rfl, rfl⟩)
    | _ => exact Or.inl (Or.inr ⟨job, hjob, hfirst, rfl, rfl⟩)

/-- While an accept job waits, the jobs of its descriptor that are taken are older. -/
theorem next_of_awaits {s s' : State Unit} {a : Action Unit} (h : Ordered s) (hstep : Step s a s')
    {fd conn : Nat} (hold : s.Awaits fd conn) (hawaits : s'.Awaits fd conn) :
    ∀ job jobs, s.workers () = .idle → s.requestJobs = job :: jobs → s'.requestJobs = jobs →
      job.fd = fd → job.conn < conn := by
  intro job jobs hpc hjobs hjobs' hfd
  have hpending : s.pending = job :: jobs := by rw [State.pending, hpc, hjobs]; rfl
  rcases hold with hannouncing | -
  · exact h.announced fd conn hannouncing job (by simp [hpending]) hfd
  · rcases hawaits with hannouncing | ⟨k, hk, hfirst, hkfd, rfl⟩
    · rcases announcing_of_step hstep hannouncing with hannouncing | ⟨rfl, -⟩
      · exact h.announced fd conn hannouncing job (by simp [hpending]) hfd
      · cases hstep
        exact absurd (congrArg List.length (hjobs.symm.trans hjobs')) (by simp)
    · have hbefore := h.before
      rw [hpending] at hbefore
      rw [hjobs'] at hk
      rcases List.rel_of_pairwise_cons hbefore hk (hfd.trans hkfd.symm) with hlt | ⟨-, hnot⟩
      · exact hlt
      · cases hfirst.symm.trans hnot

end GlfsNdmp.Pipeline
