import GlfsNdmp.Pipeline
import Mathlib.Data.Fintype.Basic

/-!
# Which connection a reply is sent on

A job knows its connection only by its descriptor. When the loop has closed the descriptor and
`accept` returns the number again, a reply to the old connection that is still on its way is sent
on the new one. `sent_own_of_run` says that this is the only way: in every run in which a number
is not taken up again while a reply to it is under way, and no reply is let through for a number
that has changed hands meanwhile, every reply is sent on the connection its request came on.
-/

namespace GlfsNdmp.Pipeline

variable {ι : Type*}

/-! ## Replies on their way -/

/-- The reply to `job` has been let through and not been sent yet. -/
def State.OnItsWay (s : State ι) (job : Job) : Prop :=
  (∃ i, (s.workers i).replying = some job) ∨ job ∈ s.replyJobs ∨ s.responder.job = some job

variable [DecidableEq ι]

theorem replying_goto {s : State ι} {i j : ι} {pc : WorkerPc} {job : Job}
    (h : ((s.goto i pc).workers j).replying = some job) :
    (s.workers j).replying = some job ∨ j = i ∧ pc.replying = some job := by
  by_cases hji : j = i
  · subst hji
    rw [State.goto_workers_self] at h
    exact Or.inr ⟨rfl, h⟩
  · rw [State.goto_workers_other _ _ hji] at h
    exact Or.inl h

/-- A reply is on its way since a worker let it through: at that point the session was not
terminated. -/
theorem onItsWay_of_step {s s' : State ι} {a : Action ι} (h : Step s a s') {job : Job}
    (hjob : s'.OnItsWay job) :
    s.OnItsWay job ∨ ∃ i session, a = .worker i ∧ s.workers i = .test session job ∧
      (s.store.memory session).isTerminated = false ∧ job.replyEmpty = false := by
  cases h with
  | take hpc hjobs =>
    rcases hjob with ⟨j, hj⟩ | hjob
    · rcases replying_goto hj with hj | ⟨-, ⟨⟩⟩
      exact Or.inl (Or.inl ⟨j, hj⟩)
    · exact Or.inl (Or.inr hjob)
  | @put i job' hpc =>
    left
    rcases hjob with ⟨j, hj⟩ | hjob | hjob
    · rcases replying_goto hj with hj | ⟨-, ⟨⟩⟩
      exact Or.inl ⟨j, hj⟩
    · rcases List.mem_append.1 hjob with hjob | hjob
      · exact Or.inr (Or.inl hjob)
      · rw [List.mem_singleton.1 hjob]
        exact Or.inl ⟨i, by rw [hpc]; rfl⟩
    · exact Or.inr (Or.inr hjob)
  | @handle i store pc hstep =>
    rcases hjob with ⟨j, hj⟩ | hjob
    · rcases replying_goto hj with hother | ⟨rfl, hpc⟩
      · exact Or.inl (Or.inl ⟨j, hother⟩)
      · obtain ⟨job', -, hjob | rfl | ⟨session, htest, hterm, hempty, rfl⟩⟩ :=
          sessionStep_cases hstep
        · cases pc <;> cases hpc
          cases hjob
        · cases hpc
        · cases hpc
          exact Or.inr ⟨j, session, rfl, htest, hterm, hempty⟩
    · exact Or.inl (Or.inr hjob)
  | @receive job' jobs hresponder hjobs =>
    left
    rcases hjob with hjob | hjob | hjob
    · exact Or.inl hjob
    · exact Or.inr (Or.inl (hjobs ▸ List.mem_cons_of_mem _ hjob))
    · cases hjob
      exact Or.inr (Or.inl (hjobs ▸ List.mem_cons_self))
  | @check job' hresponder =>
    left
    rcases hjob with hjob | hjob | hjob
    · exact Or.inl hjob
    · exact Or.inr (Or.inl hjob)
    · refine Or.inr (Or.inr ?_)
      rw [hresponder]
      dsimp only at hjob
      split at hjob
      · exact hjob
      · cases hjob
  | send hresponder =>
    left
    rcases hjob with hjob | hjob | hjob
    · exact Or.inl hjob
    · exact Or.inr (Or.inl hjob)
    · cases hjob
  | _ => exact Or.inl hjob

/-- A number stands for a new connection only right after `accept` returned it. -/
theorem kernel_of_step {s s' : State ι} {a : Action ι} (h : Step s a s') {fd conn : Nat}
    (hopen : s'.kernel fd = some conn) :
    s.kernel fd = some conn ∨ a = .accept fd ∧ conn = s.nextConn := by
  cases h with
  | accept =>
    rcases open_of_update hopen with ⟨rfl, ⟨⟩⟩ | ⟨-, hold⟩
    · exact Or.inr ⟨rfl, rfl⟩
    · exact Or.inl hold
  | close =>
    rcases open_of_update hopen with ⟨-, ⟨⟩⟩ | ⟨-, hold⟩
    exact Or.inl hold
  | _ => exact Or.inl hopen

/-- A reply goes out where its descriptor leads at the moment of `send`. -/
theorem sent_of_step {s s' : State ι} {a : Action ι} (h : Step s a s') {d : Delivery}
    (hd : d ∈ s'.sent) :
    d ∈ s.sent ∨ s.responder = .send d.job ∧ s.kernel d.job.fd = some d.conn := by
  cases h with
  | @send job hresponder =>
    dsimp only at hd
    split at hd
    · rename_i conn hopen
      rcases List.mem_append.1 hd with hd | hd
      · exact Or.inl hd
      · rw [List.mem_singleton.1 hd]
        exact Or.inr ⟨hresponder, hopen⟩
    · exact Or.inl hd
  | _ => exact Or.inl hd

/-! ## Runs -/

/-- A worker's next step lets no reply through for a number that has changed hands. -/
def OwnNumberAt (s : State ι) : WorkerPc → Prop
  | .test session job => (s.store.memory session).isTerminated = false → job.replyEmpty = false →
      ∀ conn ∈ s.kernel job.fd, conn = job.conn
  | _ => True

/-- No number is taken up again while a reply to it is on its way, and none is let through for a
number that has changed hands. -/
def NoReuse (s : State ι) : Action ι → Prop
  | .accept fd => ∀ job, s.OnItsWay job → job.fd ≠ fd
  | .worker i => OwnNumberAt s (s.workers i)
  | _ => True

/-- A reply on its way leads to its own connection, or nowhere, and so did all that were sent. -/
structure OwnConnection (s : State ι) : Prop where
  onItsWay : ∀ job, s.OnItsWay job → ∀ conn, s.kernel job.fd = some conn → conn = job.conn
  sent : ∀ d ∈ s.sent, d.conn = d.job.conn

omit [DecidableEq ι] in
theorem ownConnection_start : OwnConnection (start : State ι) where
  onItsWay _ _ _ h := by cases h
  sent _ h := by cases h

theorem OwnConnection.step {s s' : State ι} {a : Action ι} (h : OwnConnection s)
    (hok : NoReuse s a) (hstep : Step s a s') : OwnConnection s' where
  onItsWay job hjob conn hopen := by
    rcases kernel_of_step hstep hopen with hold | ⟨rfl, -⟩
    · rcases onItsWay_of_step hstep hjob with hjob | ⟨i, session, rfl, htest, hterm, hempty⟩
      · exact h.onItsWay job hjob conn hold
      · have hown : OwnNumberAt s (s.workers i) := hok
        rw [htest] at hown
        exact hown hterm hempty conn hold
    · rcases onItsWay_of_step hstep hjob with hjob | ⟨i, session, ⟨⟩, -⟩
      exact absurd rfl (hok job hjob)
  sent d hd := by
    rcases sent_of_step hstep hd with hd | ⟨hresponder, hopen⟩
    · exact h.sent d hd
    · exact h.onItsWay d.job (Or.inr (Or.inr (by rw [hresponder]; rfl))) d.conn hopen

/-- **Every reply is sent on its own connection.** For any number of workers and any schedule of
the loop, the workers and the responder whose steps meet `NoReuse`. -/
theorem sent_own_of_run {as : List (Action ι)} {s : State ι}
    (run : Lts.Run exec NoReuse start as s) : ∀ d ∈ s.sent, d.conn = d.job.conn :=
  (run.invariant (fun h hok hstep => h.step hok (step_of_exec hstep)) ownConnection_start).sent

omit [DecidableEq ι] in
theorem onItsWay_ne_iff {s : State ι} {fd : Nat} :
    (∀ job, s.OnItsWay job → job.fd ≠ fd) ↔
      (∀ i, ∀ job ∈ (s.workers i).replying, job.fd ≠ fd) ∧ (∀ job ∈ s.replyJobs, job.fd ≠ fd) ∧
        ∀ job ∈ s.responder.job, job.fd ≠ fd := by
  constructor
  · intro h
    exact ⟨fun i job hjob => h job (Or.inl ⟨i, hjob⟩), fun job hjob => h job (Or.inr (Or.inl hjob)),
      fun job hjob => h job (Or.inr (Or.inr hjob))⟩
  · rintro ⟨hworkers, hjobs, hresponder⟩ job (⟨i, hjob⟩ | hjob | hjob)
    · exact hworkers i job hjob
    · exact hjobs job hjob
    · exact hresponder job hjob

instance (s : State ι) : ∀ pc, Decidable (OwnNumberAt s pc)
  | .test session job => inferInstanceAs (Decidable
      ((s.store.memory session).isTerminated = false → job.replyEmpty = false →
        ∀ conn ∈ s.kernel job.fd, conn = job.conn))
  | .idle | .find _ _ | .insert _ _ | .push _ _ | .access _ _ _ | .pop _ _ | .count _ _
  | .unqueue _ _ | .release _ _ | .reply _ => instDecidableTrue

instance [Fintype ι] (s : State ι) : ∀ a, Decidable (NoReuse s a)
  | .accept _ => decidable_of_iff' _ onItsWay_ne_iff
  | .worker i => inferInstanceAs (Decidable (OwnNumberAt s (s.workers i)))
  | .request _ _ _ _ | .hangup _ | .main | .responder => instDecidableTrue

/-- One connection is accepted, and its notification goes out. -/
def acceptAndNotify : List (Action Unit) :=
  [.accept 4, .main, .main] ++ List.replicate 8 (.worker ()) ++ List.replicate 3 .responder

theorem sent_own_acceptAndNotify : ∃ s : State Unit,
    Lts.Run exec NoReuse start acceptAndNotify s ∧ s.sent.length = 1 ∧
      ∀ d ∈ s.sent, d.conn = d.job.conn := by
  have run : Lts.Run exec NoReuse (start : State Unit) acceptAndNotify _ :=
    Lts.Run.of_execWhile rfl
  exact ⟨_, run, rfl, sent_own_of_run run⟩

/-- A client hangs up while its notification is on `reply_jobs`; the next client is given the same
number before the responder gets to it. -/
def hangupBeforeSend : List (Action Unit) :=
  [.accept 4, .main, .main] ++ List.replicate 8 (.worker ()) ++
    .hangup 4 :: List.replicate 4 .main ++ [.accept 4, .main] ++ List.replicate 3 .responder

/-- The second connection is sent the notification of the first. -/
theorem not_sent_own_hangupBeforeSend : ∃ s : State Unit,
    Lts.Run exec (fun _ _ => True) start hangupBeforeSend s ∧
      ¬ ∀ d ∈ s.sent, d.conn = d.job.conn := by
  refine ⟨_, Lts.Run.of_execAll rfl, fun h => ?_⟩
  exact absurd (h _ List.mem_cons_self) (by decide)

end GlfsNdmp.Pipeline
