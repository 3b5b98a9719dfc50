import GlfsNdmp.Closing
import GlfsNdmp.Delivery
import GlfsNdmp.Reclaim

/-!
# The notification of a new connection

`NDMP_NOTIFY_CONNECTED` goes the way of every reply: an accept job is queued when a connection is
accepted, and its reply is sent if the session is not terminated when the job is handled. With one
worker and one responder replies come out in the order of their requests. `notified_of_run` says
when that makes the notification the first message on each connection, and the only one of its kind:
clients do not send its message number themselves; a number is taken up again when no reply to it is
on its way, and either no job of it is pending and its record is not marked, or it is and one job,
which takes the record away, is still to be done; and no record is freed while another thread has a
pointer to it, whose memory could be another session's by the time it is marked.
-/

namespace GlfsNdmp.Pipeline

/-! ## What is sent, and what is going to be -/

namespace State

/-- The jobs whose replies have been let through and not been sent, in the order of sending. -/
def onWay (s : State Unit) : List Job :=
  s.responder.job.toList ++ (s.replyJobs ++ (s.workers ()).replying.toList)

/-- The jobs whose replies were sent on a connection. -/
def deliveries (s : State Unit) (conn : Nat) : List Job :=
  (s.sent.filter (·.conn == conn)).map (·.job)

/-- The replies sent on a connection, and after them those on their way to its descriptor. -/
def answers (s : State Unit) (fd conn : Nat) : List Job :=
  s.deliveries conn ++ s.onWay.filter (·.fd == fd)

/-- The reply the responder has taken is the next one. -/
theorem onWay_responder {s : State Unit} {job : Job} (h : s.responder.job = some job) :
    s.onWay = job :: (s.replyJobs ++ (s.workers ()).replying.toList) := by
  rw [onWay, h]
  rfl

theorem mem_onWay {s : State Unit} {job : Job} : job ∈ s.onWay ↔ s.OnItsWay job := by
  simp only [onWay, OnItsWay, List.mem_append, Option.mem_toList]
  constructor
  · rintro (h | h | h)
    · exact Or.inr (Or.inr h)
    · exact Or.inr (Or.inl h)
    · exact Or.inl ⟨(), h⟩
  · rintro (⟨⟨⟩, h⟩ | h | h)
    · exact Or.inr (Or.inr h)
    · exact Or.inr (Or.inl h)
    · exact Or.inl h

end State

/-- A reply is let through at the test. -/
structure LetsThrough (s : State Unit) (job : Job) : Prop where
  test : ∃ x, s.workers () = .test x job ∧ (s.store.memory x).isTerminated = false
  replyEmpty : job.replyEmpty = false

theorem onWay_handle {s : State Unit} {store : Store} {pc : WorkerPc}
    (h : sessionStep s.store (s.workers ()) = some (store, pc)) :
    ({ s with store := store }.goto () pc).onWay = s.onWay ∧ pc.replying = none ∨
      ∃ job, LetsThrough s job ∧ pc = .reply job ∧
        ({ s with store := store }.goto () pc).onWay = s.onWay ++ [job] := by
  obtain ⟨job, hjob, hpc⟩ := sessionStep_cases h
  rw [State.onWay, State.onWay, State.goto_workers_self, WorkerPc.replying_of_handling hjob]
  rcases hpc with hpc | rfl | ⟨x, htest, hterm, hempty, rfl⟩
  · rw [WorkerPc.replying_of_handling hpc]
    exact Or.inl ⟨rfl, rfl⟩
  · exact Or.inl ⟨rfl, rfl⟩
  · refine Or.inr ⟨job, ⟨⟨x, htest, hterm⟩, hempty⟩, rfl, ?_⟩
    simp [WorkerPc.replying, State.goto]

/-- The answers on an open connection change only where the worker lets a reply through: the
responder sends what is on its way. -/
theorem answers_of_step {s s' : State Unit} {a : Action Unit} (hconn : Connections s)
    (hstep : Step s a s') {fd conn : Nat} (hopen : s.kernel fd = some conn)
    (hfd : fd ∈ s.sessions ∨ ∀ job ∈ s.onWay, job.fd ≠ fd) :
    s'.answers fd conn = s.answers fd conn ∨
      ∃ job, LetsThrough s job ∧ a = .worker () ∧ s'.workers () = .reply job ∧ job.fd = fd ∧
        s'.answers fd conn = s.answers fd conn ++ [job] := by
  cases hstep with
  | take hpc =>
    left
    rw [State.answers, State.answers, State.onWay, State.onWay, State.goto_workers_self, hpc]
    rfl
  | put hpc =>
    left
    rw [State.answers, State.answers, State.onWay, State.onWay, State.goto_workers_self, hpc]
    simp [WorkerPc.replying, State.goto, State.deliveries]
  | handle hsession =>
    rcases onWay_handle hsession with ⟨hsame, -⟩ | ⟨job, hlets, rfl, happend⟩
    · left
      rw [State.answers, State.answers, hsame]
      rfl
    · rw [State.answers, State.answers, happend, List.filter_append]
      by_cases hjob : job.fd = fd
      · refine Or.inr ⟨job, hlets, rfl, State.goto_workers_self _ _ _, hjob, ?_⟩
        simp [hjob, State.deliveries, State.goto]
      · left
        simp [hjob, State.deliveries, State.goto]
  | receive hresponder hjobs =>
    left
    rw [State.answers, State.answers, State.onWay, State.onWay, hresponder, hjobs]
    rfl
  | @check job hresponder =>
    left
    have hway := State.onWay_responder (hresponder ▸ rfl : s.responder.job = some job)
    by_cases hsession : job.fd ∈ s.sessions
    · rw [State.answers, State.answers, hway, State.onWay, if_pos hsession]
      rfl
    · have hne : job.fd ≠ fd := by
        rcases hfd with hfd | hfd
        · exact fun heq => hsession (heq ▸ hfd)
        · exact hfd job (hway ▸ List.mem_cons_self)
      rw [State.answers, State.answers, hway, State.onWay, if_neg hsession]
      simp [ResponderPc.job, hne, State.deliveries]
  | @send job hresponder =>
    left
    have hway := State.onWay_responder (hresponder ▸ rfl : s.responder.job = some job)
    rw [State.answers, State.answers, hway, State.onWay]
    cases hkernel : s.kernel job.fd with
    | none =>
      have hne : job.fd ≠ fd := fun heq => by
        rw [heq, hopen] at hkernel
        cases hkernel
      simp [ResponderPc.job, hne, State.deliveries]
    | some conn' =>
      by_cases hjob : job.fd = fd
      · rw [hjob, hopen] at hkernel
        cases hkernel
        simp [ResponderPc.job, hjob, State.deliveries]
      · have hne : conn' ≠ conn := fun heq =>
          hjob (hconn.current_inj job.fd fd conn (Or.inl (heq ▸ hkernel)) (Or.inl hopen))
        simp [ResponderPc.job, hjob, hne, State.deliveries]
  | _ => exact Or.inl rfl

/-! ## The notification comes first -/

/-- The first message is the reply to the connection's accept job, and no later one is a
notification. -/
def Heralds (conn : Nat) (jobs : List Job) : Prop :=
  ∃ job rest, jobs = job :: rest ∧ job.isTcpConnect = true ∧ job.conn = conn ∧
    job.isNotify = true ∧ ∀ k ∈ rest, k.isNotify = false

theorem Heralds.concat {conn : Nat} {jobs : List Job} (h : Heralds conn jobs) {k : Job}
    (hk : k.isNotify = false) : Heralds conn (jobs ++ [k]) := by
  obtain ⟨job, rest, rfl, hfirst, hconn, hnotify, hrest⟩ := h
  refine ⟨job, rest ++ [k], rfl, hfirst, hconn, hnotify, fun k' hk' => ?_⟩
  rcases List.mem_append.1 hk' with hk' | hk'
  · exact hrest k' hk'
  · rwa [List.mem_singleton.1 hk']

theorem Heralds.of_append {conn : Nat} {jobs jobs' : List Job} (h : Heralds conn (jobs ++ jobs')) :
    jobs = [] ∨ Heralds conn jobs := by
  cases jobs with
  | nil => exact Or.inl rfl
  | cons job jobs =>
    obtain ⟨job, rest, heq, hfirst, hconn, hnotify, hrest⟩ := h
    cases heq
    exact Or.inr ⟨job, jobs, rfl, hfirst, hconn, hnotify, fun k hk =>
      hrest k (List.mem_append_left _ hk)⟩

/-- Nothing was or will be sent on a connection before its accept job is handled, and the record
that job will find is not marked. -/
structure State.Silent (s : State Unit) (fd conn : Nat) : Prop where
  answers : s.answers fd conn = []
  tidy : s.Tidy fd
  replies : (s.outlook fd conn).replies = []
  record : ∀ r ∈ (s.outlook fd conn).record, r.isTerminated = false

/-- No reply to the number is on its way, and it is left with a record that is not marked, if any,
and no job, or with a marked one and a single job still to be done. -/
structure State.Quiet (s : State Unit) (fd : Nat) : Prop where
  onWay : ∀ job ∈ s.onWay, job.fd ≠ fd
  left : s.Tidy fd ∧ (∀ r ∈ s.store.record fd, r.isTerminated = false) ∧ s.unfinished fd = [] ∨
    ∃ a ∈ s.store.find fd, s.LastJob fd a ∧ (s.store.memory a).isTerminated = true

/-- Clients do not send 0xf001, a number is taken up again when it is quiet, and a record is freed
by the one thread that can reach it. -/
def AnnouncesFirst (s : State Unit) : Action Unit → Prop
  | .accept fd => s.Quiet fd
  | .request _ request _ _ => request.isNotify = false
  | .worker i => FreesSole s (.worker i)
  | .hangup _ | .main | .responder => True

/-- The invariant of these runs. On an open connection nothing is answered while the accept job
waits (`awaited`) and while it is handled (`handled`), and afterwards the notification comes first
(`answered`). -/
structure Notifies (s : State Unit) : Prop where
  base : Base s
  pending : ∀ job ∈ s.pending, job.isNotify = job.isTcpConnect
  onWay : ∀ job ∈ s.onWay, job.isNotify = job.isTcpConnect
  sent : ∀ d ∈ s.sent, d.job.isNotify = d.job.isTcpConnect ∧ d.conn < s.nextConn
  awaited : ∀ fd conn, s.kernel fd = some conn → s.Awaits fd conn → s.Silent fd conn
  handled : ∀ job, (s.workers ()).handling = some job → job.isTcpConnect = true →
    s.kernel job.fd = some job.conn → s.answers job.fd job.conn = [] ∧ s.Tidy job.fd ∧
      ((s.workers ()).outcome (s.store.record job.fd)).replies = [job]
  younger : ∀ fd conn, s.kernel fd = some conn → ¬ s.Awaits fd conn →
    ∀ job ∈ s.pending, job.fd = fd → job.isTcpConnect = true → job.conn = conn
  answered : ∀ fd conn, s.kernel fd = some conn → ¬ s.Awaits fd conn →
    (∀ job, (s.workers ()).handling = some job → job.isTcpConnect = true → job.fd = fd →
      job.conn ≠ conn) → Heralds conn (s.answers fd conn)
  first : ∀ conn, s.deliveries conn = [] ∨ Heralds conn (s.deliveries conn)

/-- The jobs of a quiet number let no reply through and leave no marked record. -/
theorem State.Quiet.outlook {s : State Unit} {fd : Nat} (h : s.Quiet fd) (hbase : Base s) :
    s.Tidy fd ∧ (s.outlook fd s.nextConn).replies = [] ∧
      ∀ r ∈ (s.outlook fd s.nextConn).record, r.isTerminated = false := by
  have hreply : s.replyFor fd = [] := by
    refine List.filter_eq_nil_iff.2 fun job hjob => ?_
    have hway : job ∈ s.onWay := by simp [State.onWay, Option.mem_toList.1 hjob]
    simpa using h.onWay job hway
  rcases h.left with ⟨htidy, hrecord, hdone⟩ | ⟨a, -, hlast, hterm⟩
  · rw [outlook_of_done hdone]
    exact ⟨htidy, hreply, hrecord⟩
  · have hdoomed := hlast.doomed hterm (requestJobs_lt hbase.ordered)
    refine ⟨hdoomed.tidy, hdoomed.replies.trans hreply, fun r hr => ?_⟩
    rw [hdoomed.record] at hr
    cases hr

theorem notifies_start : Notifies start where
  base := base_start
  pending _ h := by cases h
  onWay _ h := by cases h
  sent _ h := by cases h
  awaited _ _ h := by cases h
  handled _ h := by cases h
  younger _ _ h := by cases h
  answered _ _ h := by cases h
  first _ := Or.inl rfl

namespace Notifies

variable {s s' : State Unit} {a : Action Unit}

/-- The responder does not drop what is on its way to an open connection. -/
theorem mem_sessions (h : Notifies s) {fd conn : Nat} (hopen : s.kernel fd = some conn) :
    fd ∈ s.sessions ∨ ∀ job ∈ s.onWay, job.fd ≠ fd := by
  rcases h.base.connections.mem_sessions fd conn hopen with hmain | hmem
  · right
    intro job hjob hfd
    have hawaits : s.Awaits fd conn := Or.inl (by rw [hmain]; rfl)
    have hnil := (List.append_eq_nil_iff.1 (h.awaited fd conn hopen hawaits).answers).2
    have hmem : job ∈ s.onWay.filter (·.fd == fd) := List.mem_filter.2 ⟨hjob, by simp [hfd]⟩
    rw [hnil] at hmem
    cases hmem
  · exact Or.inl hmem

theorem step_awaited (h : Notifies s) (hok : AnnouncesFirst s a) (hstep : Step s a s')
    {fd conn : Nat} (hopen : s'.kernel fd = some conn) (hawaits : s'.Awaits fd conn) :
    s'.Silent fd conn := by
  rcases kernel_of_step hstep hopen with hopen | ⟨rfl, rfl⟩
  · rcases awaits_of_step hstep hawaits with hold | ⟨-, rfl⟩
    · have hsilent := h.awaited fd conn hopen hold
      have hcont := outlook_of_step h.base hstep hsilent.tidy
        (fun _ => h.base.connections.not_terminating hopen)
        (fun conn' hopen' => Nat.le_of_eq (Option.some.inj (hopen.symm.trans hopen')))
        (next_of_awaits h.base.ordered hstep hold hawaits)
      refine ⟨?_, hcont.tidy, ?_, by rw [hcont.record]; exact hsilent.record⟩
      · rcases answers_of_step h.base.connections hstep hopen (h.mem_sessions hopen) with
          hsame | ⟨job, hlets, -, -, hfd, -⟩
        · exact hsame.trans hsilent.answers
        · obtain ⟨x, htest, hterm⟩ := hlets.test
          have hprefix :=
            test_prefix conn hsilent.tidy h.base.points.sound htest hfd hterm
          rw [hsilent.replies, hlets.replyEmpty] at hprefix
          cases List.prefix_nil.1 hprefix
      · rcases hcont.replies with ⟨heq, -⟩ | ⟨heq, -⟩
        · exact heq.trans hsilent.replies
        · rw [hsilent.replies] at heq
          exact (List.append_eq_nil_iff.1 heq.symm).2
    · exact absurd (h.base.connections.current_lt fd _ (Or.inl hopen)) (Nat.lt_irrefl _)
  · have hquiet : s.Quiet fd := hok
    obtain ⟨htidy, hreplies, hrecord⟩ := hquiet.outlook h.base
    cases hstep
    refine ⟨?_, htidy, hreplies, hrecord⟩
    have hdeliveries : s.sent.filter (·.conn == s.nextConn) = [] := by
      rw [List.filter_eq_nil_iff]
      intro d hd
      simpa using Nat.ne_of_lt (h.sent d hd).2
    have hway : s.onWay.filter (·.fd == fd) = [] := by
      rw [List.filter_eq_nil_iff]
      intro job hjob
      simpa using hquiet.onWay job hjob
    change (s.sent.filter (·.conn == s.nextConn)).map _ ++ s.onWay.filter (·.fd == fd) = []
    rw [hdeliveries, hway]
    rfl

/-- A number that is open was open before, unless its accept job waits. -/
theorem open_of_step (hstep : Step s a s') {fd conn : Nat} (hopen : s'.kernel fd = some conn)
    (hawaits : ¬ s'.Awaits fd conn) : s.kernel fd = some conn := by
  rcases kernel_of_step hstep hopen with hopen | ⟨rfl, rfl⟩
  · exact hopen
  · cases hstep
    exact absurd (Or.inl rfl) hawaits

theorem replyEmpty_of_notify {job : Job} (h : job.isNotify = true) : job.replyEmpty = false := by
  unfold Job.isNotify NdmpRequest.isNotify at h
  unfold Job.replyEmpty
  cases hrequest : job.request with
  | acceptNotify => rfl
  | _ =>
    rw [hrequest] at h
    cases h

theorem step_handled (h : Notifies s) (hstep : Step s a s') {job : Job}
    (hjob : (s'.workers ()).handling = some job) (hfirst : job.isTcpConnect = true)
    (hopen : s'.kernel job.fd = some job.conn) : s'.answers job.fd job.conn = [] ∧
      s'.Tidy job.fd ∧ ((s'.workers ()).outcome (s'.store.record job.fd)).replies = [job] := by
  have hanswers : s.kernel job.fd = some job.conn →
      s'.answers job.fd job.conn = s.answers job.fd job.conn := by
    intro hopen
    rcases answers_of_step h.base.connections hstep hopen (h.mem_sessions hopen) with
      hsame | ⟨k, -, -, hpc, -, -⟩
    · exact hsame
    · rw [hpc] at hjob
      cases hjob
  by_cases ha : a = .worker ()
  · subst ha
    have htidy : s.Tidy job.fd → s'.Tidy job.fd := fun htidy =>
      tidy_of_step h.base hstep htidy (by simp)
    cases hstep with
    | @take _ head jobs hpc hjobs =>
      rw [State.goto_workers_self] at hjob
      cases hjob
      have hawaits : s.Awaits job.fd job.conn :=
        Or.inr ⟨job, by simp [hjobs], hfirst, rfl, rfl⟩
      have hsilent := h.awaited job.fd job.conn hopen hawaits
      have hrecord := hsilent.record
      rw [outlook_next h.base.ordered hpc hjobs] at hrecord
      have hlets := job.afterLookup_lets .add (job.found_not_terminated hrecord)
      have hnotify := h.pending job (by simp [State.pending, hjobs])
      rw [hfirst] at hnotify
      refine ⟨(hanswers hopen).trans hsilent.answers, htidy hsilent.tidy, ?_⟩
      rw [State.goto_workers_self]
      refine hlets.replies.trans ?_
      rw [replyEmpty_of_notify hnotify]
      rfl
    | put =>
      rw [State.goto_workers_self] at hjob
      cases hjob
    | @handle _ store pc hsession =>
      rw [State.goto_workers_self] at hjob ⊢
      obtain ⟨job', hjob', hpc⟩ := sessionStep_cases hsession
      have hsame : job' = job := by
        rcases hpc with hpc | rfl | ⟨x, -, -, -, rfl⟩
        · exact Option.some.inj (hpc.symm.trans hjob)
        · cases hjob
        · cases hjob
      subst hsame
      obtain ⟨hnone, hbefore, hreplies⟩ := h.handled job' hjob' hfirst hopen
      obtain ⟨-, houtcome⟩ := (SessionStep.of_sessionStep hsession).own h.base.points.sound
        hbefore (WorkerPc.fd_of_handling hjob')
      exact ⟨(hanswers hopen).trans hnone, htidy hbefore,
        (congrArg Outcome.replies houtcome).trans hreplies⟩
  · rw [workers_of_step hstep ha] at hjob ⊢
    have hpending : job ∈ s.pending := List.mem_append_left _ (Option.mem_toList.2 hjob)
    rcases kernel_of_step hstep hopen with hopen | ⟨-, heq⟩
    · obtain ⟨hnone, htidy, hreplies⟩ := h.handled job hjob hfirst hopen
      have hterm := h.base.connections.not_terminating hopen
      refine ⟨(hanswers hopen).trans hnone, ?_, ?_⟩
      · exact tidy_of_step h.base hstep htidy fun _ => hterm
      · rw [(h.base.frame hstep ha fun _ => hterm).1.record, hreplies]
    · exact absurd heq (Nat.ne_of_lt (h.base.ordered.conn_lt job hpending))

theorem step_younger (h : Notifies s) (hstep : Step s a s') {fd conn : Nat}
    (hopen : s'.kernel fd = some conn) (hawaits : ¬ s'.Awaits fd conn) {job : Job}
    (hjob : job ∈ s'.pending) (hfd : job.fd = fd) (hfirst : job.isTcpConnect = true) :
    job.conn = conn := by
  have hold := open_of_step hstep hopen hawaits
  by_cases hwaited : s.Awaits fd conn
  · rcases awaits_or_taken hstep hwaited with hwaits | ⟨head, jobs, hpc, hjobs, -, hhead, rfl, rfl⟩
    · exact absurd hwaits hawaits
    · have hpending : s.pending = head :: jobs := by rw [State.pending, hpc, hjobs]; rfl
      rw [State.pending, State.goto_workers_self] at hjob
      rcases List.mem_cons.1 hjob with rfl | hjob
      · rfl
      · have hbefore := h.base.ordered.before
        rw [hpending] at hbefore
        rcases List.rel_of_pairwise_cons hbefore hjob (hhead.trans hfd.symm) with hlt | ⟨-, hnot⟩
        · have hle := h.base.ordered.current job
            (hpending ▸ List.mem_cons_of_mem _ hjob) head.conn (Or.inl (hfd ▸ hold))
          exact absurd hlt (Nat.not_lt.2 hle)
        · cases hfirst.symm.trans hnot
  · rcases pending_of_step h.base.connections hstep with hsub | ⟨k, hpending, hk, -⟩
    · exact h.younger fd conn hold hwaited job (hsub.subset hjob) hfd hfirst
    · rw [hpending] at hjob
      rcases List.mem_append.1 hjob with hjob | hjob
      · exact h.younger fd conn hold hwaited job hjob hfd hfirst
      · cases List.mem_singleton.1 hjob
        exact Option.some.inj (hk.opened.symm.trans (hfd ▸ hold))

/-- An accept job that is done with has been let through. -/
theorem handled_done (h : Notifies s) (hstep : Step s a s') {job : Job}
    (hjob : (s.workers ()).handling = some job) (hfirst : job.isTcpConnect = true)
    (hopen : s.kernel job.fd = some job.conn) (hdone : (s'.workers ()).handling ≠ some job) :
    Heralds job.conn (s'.answers job.fd job.conn) := by
  obtain ⟨hnone, htidy, hreplies⟩ := h.handled job hjob hfirst hopen
  have ha : a = .worker () := by
    by_contra ha
    rw [workers_of_step hstep ha] at hdone
    exact hdone hjob
  subst ha
  cases hstep with
  | take hpc | put hpc =>
    rw [hpc] at hjob
    cases hjob
  | @handle i store pc hsession =>
    rw [State.goto_workers_self] at hdone
    obtain ⟨-, houtcome⟩ := (SessionStep.of_sessionStep hsession).own h.base.points.sound htidy
      (WorkerPc.fd_of_handling hjob)
    rw [← houtcome] at hreplies
    obtain ⟨job', hjob', hpc⟩ := sessionStep_cases hsession
    cases hjob.symm.trans hjob'
    rcases hpc with hpc | rfl | ⟨x, -, -, -, rfl⟩
    · exact absurd hpc hdone
    · cases hreplies
    · rcases onWay_handle hsession with ⟨-, ⟨⟩⟩ | ⟨k, -, ⟨⟩, happend⟩
      have hnotify := h.pending job (List.mem_append_left _ (Option.mem_toList.2 hjob))
      have hanswers : State.answers ({ s with store := store }.goto () (.reply job)) job.fd job.conn =
          s.answers job.fd job.conn ++ [job] := by
        rw [State.answers, State.answers, happend, List.filter_append]
        simp [State.deliveries, State.goto]
      rw [hanswers, hnone]
      exact ⟨job, [], rfl, hfirst, rfl, hnotify.trans hfirst, fun _ hk => by cases hk⟩

theorem step_answered (h : Notifies s) (hstep : Step s a s') {fd conn : Nat}
    (hopen : s'.kernel fd = some conn) (hawaits : ¬ s'.Awaits fd conn)
    (hhandled : ∀ job, (s'.workers ()).handling = some job → job.isTcpConnect = true →
      job.fd = fd → job.conn ≠ conn) : Heralds conn (s'.answers fd conn) := by
  have hold := open_of_step hstep hopen hawaits
  have hwaited : ¬ s.Awaits fd conn := by
    intro hwaited
    rcases awaits_or_taken hstep hwaited with
      hwaits | ⟨job, jobs, -, -, hfirst, hfd, hconn, rfl⟩
    · exact hawaits hwaits
    · exact hhandled job (by rw [State.goto_workers_self]; rfl) hfirst hfd hconn
  by_cases hhandling : ∃ job, (s.workers ()).handling = some job ∧ job.isTcpConnect = true ∧
      job.fd = fd ∧ job.conn = conn
  · obtain ⟨job, hjob, hfirst, rfl, rfl⟩ := hhandling
    exact h.handled_done hstep hjob hfirst hold fun hjob' => hhandled job hjob' hfirst rfl rfl
  · have hheralds := h.answered fd conn hold hwaited fun job hjob hfirst hfd hconn =>
      hhandling ⟨job, hjob, hfirst, hfd, hconn⟩
    rcases answers_of_step h.base.connections hstep hold (h.mem_sessions hold) with
      hsame | ⟨job, hlets, -, -, hfd, happend⟩
    · rwa [hsame]
    · obtain ⟨x, htest, -⟩ := hlets.test
      have hjob : (s.workers ()).handling = some job := by rw [htest]; rfl
      have hpending : job ∈ s.pending := List.mem_append_left _ (Option.mem_toList.2 hjob)
      have hlater : job.isTcpConnect = false := by
        by_contra hfirst
        rw [Bool.not_eq_false] at hfirst
        exact hhandling ⟨job, hjob, hfirst, hfd,
          h.younger fd conn hold hwaited job hpending hfd hfirst⟩
      rw [happend]
      exact hheralds.concat ((h.pending job hpending).trans hlater)

theorem step_pending (h : Notifies s) (hok : AnnouncesFirst s a) (hstep : Step s a s') {job : Job}
    (hjob : job ∈ s'.pending) : job.isNotify = job.isTcpConnect := by
  rcases pending_of_step h.base.connections hstep with hsub | ⟨k, hpending, hk, -⟩
  · exact h.pending job (hsub.subset hjob)
  · rw [hpending] at hjob
    rcases List.mem_append.1 hjob with hjob | hjob
    · exact h.pending job hjob
    · cases List.mem_singleton.1 hjob
      rcases hk.kind with ⟨rfl, hlater⟩ | ⟨hrequest, hfirst, -⟩
      · rw [hlater]
        exact hok
      · rw [hfirst, Job.isNotify, hrequest]
        rfl

theorem step_onWay (h : Notifies s) (hstep : Step s a s') {job : Job} (hjob : job ∈ s'.onWay) :
    job.isNotify = job.isTcpConnect := by
  rcases onItsWay_of_step hstep (State.mem_onWay.1 hjob) with hjob | ⟨⟨⟩, x, -, htest, -⟩
  · exact h.onWay job (State.mem_onWay.2 hjob)
  · refine h.pending job (List.mem_append_left _ ?_)
    rw [htest]
    exact List.mem_singleton_self _

theorem step_sent (h : Notifies s) (hstep : Step s a s') {d : Delivery} (hd : d ∈ s'.sent) :
    d.job.isNotify = d.job.isTcpConnect ∧ d.conn < s'.nextConn := by
  rcases sent_of_step hstep hd with hd | ⟨hresponder, hopen⟩
  · obtain ⟨hproper, hlt⟩ := h.sent d hd
    exact ⟨hproper, Nat.lt_of_lt_of_le hlt (nextConn_le hstep)⟩
  · have hmem : d.job ∈ s.onWay := State.mem_onWay.2 (Or.inr (Or.inr (by rw [hresponder]; rfl)))
    refine ⟨h.onWay d.job hmem, Nat.lt_of_lt_of_le ?_ (nextConn_le hstep)⟩
    exact h.base.connections.current_lt d.job.fd d.conn (Or.inl hopen)

end Notifies

/-- Messages are sent on open connections only. -/
theorem deliveries_of_step {s s' : State Unit} {a : Action Unit} (hstep : Step s a s')
    (conn : Nat) :
    s'.deliveries conn = s.deliveries conn ∨ ∃ fd, s'.kernel fd = some conn := by
  cases hstep with
  | @send job =>
    cases hkernel : s.kernel job.fd with
    | none =>
      left
      simp [State.deliveries]
    | some conn' =>
      by_cases heq : conn' = conn
      · exact Or.inr ⟨job.fd, heq ▸ hkernel⟩
      · left
        simp [State.deliveries, heq]
  | _ => exact Or.inl rfl

/-- What has been sent on an open connection starts with its notification. -/
theorem first_of_open {s : State Unit} {fd conn : Nat}
    (hawaited : s.Awaits fd conn → s.Silent fd conn)
    (hhandled : ∀ job, (s.workers ()).handling = some job → job.isTcpConnect = true →
      job.fd = fd → job.conn = conn → s.answers fd conn = [])
    (hanswered : ¬ s.Awaits fd conn → (∀ job, (s.workers ()).handling = some job →
      job.isTcpConnect = true → job.fd = fd → job.conn ≠ conn) → Heralds conn (s.answers fd conn)) :
    s.deliveries conn = [] ∨ Heralds conn (s.deliveries conn) := by
  by_cases hwaits : s.Awaits fd conn
  · exact Or.inl (List.append_eq_nil_iff.1 (hawaited hwaits).answers).1
  · by_cases hhandling : ∃ job, (s.workers ()).handling = some job ∧ job.isTcpConnect = true ∧
        job.fd = fd ∧ job.conn = conn
    · obtain ⟨job, hjob, hfirst, hfd, hconn⟩ := hhandling
      exact Or.inl (List.append_eq_nil_iff.1 (hhandled job hjob hfirst hfd hconn)).1
    · refine (hanswered hwaits fun job hjob hfirst hfd hconn => ?_).of_append
      exact hhandling ⟨job, hjob, hfirst, hfd, hconn⟩

theorem Notifies.step {s s' : State Unit} {a : Action Unit} (h : Notifies s)
    (hok : AnnouncesFirst s a) (hstep : Step s a s') : Notifies s' where
  base := h.base.step hstep
  pending _ hjob := h.step_pending hok hstep hjob
  onWay _ hjob := h.step_onWay hstep hjob
  sent _ hd := h.step_sent hstep hd
  awaited _ _ hopen hawaits := h.step_awaited hok hstep hopen hawaits
  handled _ hjob hfirst hopen := h.step_handled hstep hjob hfirst hopen
  younger _ _ hopen hawaits _ hjob hfd hfirst := h.step_younger hstep hopen hawaits hjob hfd hfirst
  answered _ _ hopen hawaits hhandled := h.step_answered hstep hopen hawaits hhandled
  first conn := by
    rcases deliveries_of_step hstep conn with hsame | ⟨fd, hopen⟩
    · rw [hsame]
      exact h.first conn
    · refine first_of_open (fun hawaits => h.step_awaited hok hstep hopen hawaits) ?_
        fun hawaits hhandled => h.step_answered hstep hopen hawaits hhandled
      rintro job hjob hfirst rfl rfl
      exact (h.step_handled hstep hjob hfirst hopen).1

/-! ## Runs -/

/-- The accept job of a connection has not been handled and sent yet. -/
def State.Underway (s : State Unit) (fd conn : Nat) : Prop :=
  s.main.announcing = some (fd, conn) ∨
    ∃ job, (job ∈ s.pending ∨ job ∈ s.onWay) ∧ job.isTcpConnect = true ∧ job.conn = conn

/-- Every connection that is open when its accept job has been handled and sent has been sent one
notification; it is the first message on the connection, and no other job's reply is one. -/
structure Notified (s : State Unit) : Prop where
  sent : ∀ fd conn, s.kernel fd = some conn → ¬ s.Underway fd conn → s.deliveries conn ≠ []
  first : ∀ conn, s.deliveries conn = [] ∨ Heralds conn (s.deliveries conn)
  source : ∀ d ∈ s.sent, d.job.isNotify = true → d.job.isTcpConnect = true

theorem Notifies.notified {s : State Unit} (h : Notifies s) : Notified s where
  sent fd conn hopen hunderway hnone := by
    have hawaits : ¬ s.Awaits fd conn := by
      rintro (hannouncing | ⟨job, hjob, hfirst, -, hconn⟩)
      · exact hunderway (Or.inl hannouncing)
      · exact hunderway (Or.inr ⟨job, Or.inl (List.mem_append_right _ hjob), hfirst, hconn⟩)
    have hheralds := h.answered fd conn hopen hawaits fun job hjob hfirst _ hconn =>
      hunderway (Or.inr ⟨job, Or.inl (List.mem_append_left _ (Option.mem_toList.2 hjob)), hfirst,
        hconn⟩)
    obtain ⟨job, rest, heq, hfirst, hconn, -⟩ := hheralds
    rw [State.answers, hnone, List.nil_append] at heq
    have hmem : job ∈ s.onWay.filter (·.fd == fd) := heq ▸ List.mem_cons_self
    exact hunderway (Or.inr ⟨job, Or.inr (List.mem_filter.1 hmem).1, hfirst, hconn⟩)
  first := h.first
  source d hd hnotify := (h.sent d hd).1 ▸ hnotify

/-- **Each connection is notified once, before anything else is sent.** With one worker and any
schedule whose steps meet `AnnouncesFirst`. -/
theorem notified_of_run {as : List (Action Unit)} {s : State Unit}
    (run : Lts.Run exec AnnouncesFirst start as s) : Notified s :=
  (run.invariant (fun h hok hstep => h.step hok (step_of_exec hstep)) notifies_start).notified

theorem State.quiet_iff {s : State Unit} {fd : Nat} :
    s.Quiet fd ↔ (∀ job ∈ s.onWay, job.fd ≠ fd) ∧
      (s.Tidy fd ∧ (∀ r ∈ s.store.record fd, r.isTerminated = false) ∧ s.unfinished fd = [] ∨
        ∃ a ∈ s.store.find fd, s.LastJob fd a ∧ (s.store.memory a).isTerminated = true) :=
  ⟨fun h => ⟨h.onWay, h.left⟩, fun h => ⟨h.1, h.2⟩⟩

instance (s : State Unit) (fd : Nat) : Decidable (s.Quiet fd) := decidable_of_iff' _ State.quiet_iff

instance (s : State Unit) : ∀ a, Decidable (AnnouncesFirst s a)
  | .accept fd => inferInstanceAs (Decidable (s.Quiet fd))
  | .request _ request _ _ => inferInstanceAs (Decidable (request.isNotify = false))
  | .worker i => inferInstanceAs (Decidable (FreesSole s (.worker i)))
  | .hangup _ | .main | .responder => instDecidableTrue

/-- A client is notified and sends a request that is answered. -/
def notifyThenAnswer : List (Action Unit) :=
  acceptAndNotify ++ .request 4 .dataAbort default false :: List.replicate 13 (.worker ()) ++
    List.replicate 3 .responder

theorem notified_notifyThenAnswer : ∃ s : State Unit,
    Lts.Run exec AnnouncesFirst start notifyThenAnswer s ∧ s.sent.length = 2 ∧ Notified s := by
  have run : Lts.Run exec AnnouncesFirst (start : State Unit) notifyThenAnswer _ :=
    Lts.Run.of_execWhile rfl
  exact ⟨_, run, rfl, notified_of_run run⟩

/-- A client is notified and sends 0xf001 itself. -/
def notifyThenNotify : List (Action Unit) :=
  acceptAndNotify ++ .request 4 .acceptNotify default false :: List.replicate 7 (.worker ()) ++
    List.replicate 3 .responder

/-- It is sent a second notification. -/
theorem not_notified_notifyThenNotify : ∃ s : State Unit,
    Lts.Run exec (fun _ _ => True) start notifyThenNotify s ∧ ¬ Notified s := by
  refine ⟨_, Lts.Run.of_execAll rfl, fun h => ?_⟩
  exact absurd (h.source _ (List.mem_cons_of_mem _ List.mem_cons_self) rfl) (by decide)

end GlfsNdmp.Pipeline
