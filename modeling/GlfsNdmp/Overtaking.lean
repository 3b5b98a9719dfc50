import GlfsNdmp.Ownership
import Mathlib.Algebra.Order.BigOperators.Group.Finset
import Mathlib.Data.Fintype.Card

/-!
# How far replies get out of order

Several workers take requests off one queue and put their replies on another, each when it is done.
So a reply may leave before one to an earlier request.

**Theorem (`overtaken_of_run`).** Of the requests received before a request, fewer are answered
after it than there are workers; one worker keeps the order.

A request that is answered has been taken off the queue, and with it all that were received before;
those not answered yet are in the hands of the other workers. Addresses of jobs tell what has been
received before what.
-/

namespace GlfsNdmp.Pipeline

variable {ι : Type*}

/-! ## Counting -/

/-- Of these jobs, how many were received before. -/
def earlier (address : Nat) (jobs : List Job) : Nat := jobs.countP (·.address < address)

theorem earlier_append (address : Nat) (as bs : List Job) :
    earlier address (as ++ bs) = earlier address as + earlier address bs := List.countP_append

theorem earlier_singleton (address : Nat) (job : Job) :
    earlier address [job] = if job.address < address then 1 else 0 := by
  simp [earlier, List.countP_cons]

theorem earlier_eq_zero {address : Nat} {jobs : List Job}
    (h : ∀ job ∈ jobs, address ≤ job.address) :
    earlier address jobs = 0 := by
  rw [earlier, List.countP_eq_zero]
  intro job hjob
  simpa using h job hjob

/-- What a worker has in hand is one job at most. -/
theorem earlier_owned_le (address : Nat) (pc : WorkerPc) :
    earlier address pc.owned.toList ≤ 1 := by
  cases pc.owned with
  | none => exact Nat.zero_le 1
  | some job =>
    rw [Option.toList_some, earlier_singleton]
    split <;> decide

/-- How many workers have such a job in hand. -/
def State.holding [Fintype ι] (s : State ι) (address : Nat) : Nat :=
  ∑ i, earlier address (s.workers i).owned.toList

section
variable [Fintype ι] [DecidableEq ι] (s : State ι) (i : ι) (address : Nat)

theorem holding_goto (pc : WorkerPc) :
    (s.goto i pc).holding address + earlier address (s.workers i).owned.toList =
      s.holding address + earlier address pc.owned.toList :=
  sum_update (fun pc : WorkerPc => earlier address pc.owned.toList) s.workers i pc

/-- A worker that has nothing in hand leaves the others. -/
theorem holding_idle_lt : (s.goto i .idle).holding address < Fintype.card ι := by
  have hlt : (s.goto i .idle).holding address < ∑ _j : ι, 1 := by
    refine Finset.sum_lt_sum (fun j _ => earlier_owned_le address _) ⟨i, Finset.mem_univ i, ?_⟩
    rw [State.goto_workers_self]
    exact Nat.zero_lt_one
  rwa [← Finset.card_eq_sum_ones, Finset.card_univ] at hlt

end

/-! ## The order of jobs -/

/-- A job that was received, and taken off the queue before what is left there. -/
def Taken (s : State ι) (job : Job) : Prop :=
  job.address < s.nextJob ∧ ∀ job' ∈ s.requestJobs, job.address < job'.address

/-- Jobs leave the queue in the order they were received in, and are sent in the order they were
answered in. -/
structure InOrder (s : State ι) : Prop where
  queued : s.requestJobs.Pairwise fun job job' => job.address < job'.address
  received : ∀ job ∈ s.requestJobs, job.address < s.nextJob
  handed : ∀ i, ∀ job ∈ (s.workers i).owned, Taken s job
  replied : ∀ job ∈ s.replied, Taken s job
  sent : (s.sent.map Delivery.job ++ s.responder.job.toList ++ s.replyJobs).Sublist s.replied

theorem inOrder_start : InOrder (start : State ι) where
  queued := .nil
  received := by simp [start]
  handed := by simp [start]
  replied := by simp [start]
  sent := .slnil

section
variable {s s' : State ι} {a : Action ι}

/-- The loop puts the next job behind all others. -/
theorem InOrder.queue (h : InOrder s) {job : Job} (hjob : job.address = s.nextJob) (main : MainPc) :
    InOrder { s with
      main := main
      requestJobs := s.requestJobs ++ [job]
      nextJob := s.nextJob + 1 } := by
  have htaken : ∀ job' : Job, Taken s job' → Taken { s with
      main := main
      requestJobs := s.requestJobs ++ [job]
      nextJob := s.nextJob + 1 } job' := by
    intro job' htaken
    refine ⟨Nat.lt_succ_of_lt htaken.1, fun job'' hmem => ?_⟩
    rcases List.mem_append.1 hmem with hmem | hmem
    · exact htaken.2 job'' hmem
    · rw [List.mem_singleton.1 hmem, hjob]
      exact htaken.1
  refine ⟨?_, ?_, fun i job' hmem => htaken _ (h.handed i job' hmem),
    fun job' hmem => htaken _ (h.replied job' hmem), h.sent⟩
  · refine List.pairwise_append.2
      ⟨h.queued, List.pairwise_singleton _ _, fun job' hmem job'' hlast => ?_⟩
    rw [List.mem_singleton.1 hlast, hjob]
    exact h.received job' hmem
  · intro job' hmem
    rcases List.mem_append.1 hmem with hmem | hmem
    · exact Nat.lt_succ_of_lt (h.received job' hmem)
    · rw [List.mem_singleton.1 hmem, hjob]
      exact Nat.lt_succ_self _

variable [DecidableEq ι]

/-- A worker moves, and what it has then in hand has been taken. -/
theorem InOrder.goto (h : InOrder s) {i : ι} {pc : WorkerPc}
    (hpc : ∀ job ∈ pc.owned, Taken s job) : InOrder (s.goto i pc) where
  queued := h.queued
  received := h.received
  handed j job hmem := by
    by_cases hj : j = i
    · subst hj
      rw [State.goto_workers_self] at hmem
      exact hpc job hmem
    · rw [State.goto_workers_other _ _ hj] at hmem
      exact h.handed j job hmem
  replied := h.replied
  sent := h.sent

theorem inOrder_of_step (h : InOrder s) (hstep : Step s a s') : InOrder s' := by
  cases hstep with
  | request hmain hopen hfd => exact h.queue rfl _
  | connect hmain => exact h.queue rfl _
  | @take i job jobs hpc hjobs =>
    have hqueued := h.queued
    rw [hjobs, List.pairwise_cons] at hqueued
    have hmem : ∀ job' ∈ jobs, job' ∈ s.requestJobs := by
      rw [hjobs]
      exact fun job' => List.mem_cons_of_mem _
    have htaken : ∀ job' : Job, Taken s job' → Taken { s with requestJobs := jobs } job' :=
      fun job' htaken => ⟨htaken.1, fun job'' hjob'' => htaken.2 job'' (hmem job'' hjob'')⟩
    have hless : InOrder { s with requestJobs := jobs } :=
      ⟨hqueued.2, fun job' hjob' => h.received job' (hmem job' hjob'),
        fun j job' hjob' => htaken _ (h.handed j job' hjob'),
        fun job' hjob' => htaken _ (h.replied job' hjob'), h.sent⟩
    refine hless.goto ?_
    rintro job' ⟨⟩
    exact ⟨h.received job (by rw [hjobs]; exact List.mem_cons_self), hqueued.1⟩
  | @put i job hpc =>
    have hjob : Taken s job := h.handed i job (by rw [hpc]; rfl)
    have hmore : InOrder { s with
        replyJobs := s.replyJobs ++ [job]
        replied := s.replied ++ [job] } := by
      refine ⟨h.queued, h.received, h.handed, ?_, ?_⟩
      · intro job' hmem
        rcases List.mem_append.1 hmem with hmem | hmem
        · exact h.replied job' hmem
        · rw [List.mem_singleton.1 hmem]
          exact hjob
      · rw [← List.append_assoc]
        exact h.sent.append (List.Sublist.refl _)
    exact hmore.goto (by rintro job' ⟨⟩)
  | @handle i store pc hstep =>
    have hsame : InOrder { s with store := store } :=
      ⟨h.queued, h.received, h.handed, h.replied, h.sent⟩
    refine hsame.goto fun job hmem => h.handed i job (Option.mem_toList.1 ?_)
    rw [← owned_of_sessionStep hstep]
    exact List.mem_append_left _ (Option.mem_toList.2 hmem)
  | @receive job jobs hresponder hjobs =>
    have hsent := h.sent
    rw [hresponder, hjobs] at hsent
    exact { h with sent := by simpa [ResponderPc.job] using hsent }
  | @check job hresponder =>
    have hsent := h.sent
    rw [hresponder] at hsent
    refine { h with sent := ?_ }
    split
    · exact hsent
    · exact ((List.append_sublist_append_left _).2 (List.nil_sublist _)).append (.refl _)
        |>.trans hsent
  | @send job hresponder =>
    have hsent := h.sent
    rw [hresponder] at hsent
    refine { h with sent := ?_ }
    split
    · simpa [ResponderPc.job] using hsent
    · exact ((List.append_sublist_append_left _).2 (List.nil_sublist _)).append (.refl _)
        |>.trans hsent
  | _ => exact { h with }

end

/-! ## Overtaking -/

/-- Of the requests received before one that is answered, those answered later and those in the
hands of workers are fewer than there are workers. -/
def FewLate [Fintype ι] (s : State ι) : Prop :=
  ∀ pre job post, s.replied = pre ++ job :: post →
    earlier job.address post + s.holding job.address < Fintype.card ι

/-- What holds throughout a run. -/
def Orderly [Fintype ι] (s : State ι) : Prop := InOrder s ∧ FewLate s

section
variable [Fintype ι] [DecidableEq ι] {s s' : State ι} {a : Action ι}

/-- A worker that gets no earlier job in hand. -/
theorem FewLate.goto (h : FewLate s) {i : ι} {pc : WorkerPc}
    (hpc : ∀ job ∈ s.replied, earlier job.address pc.owned.toList ≤
      earlier job.address (s.workers i).owned.toList) : FewLate (s.goto i pc) := by
  intro pre job post hreplied
  have hold := h pre job post hreplied
  have hgoto := holding_goto s i job.address pc
  have hjob := hpc job (by rw [show s.replied = _ from hreplied]; simp)
  omega

theorem fewLate_of_step (horder : InOrder s) (h : FewLate s) (hstep : Step s a s') :
    FewLate s' := by
  cases hstep with
  | @take i job jobs hpc hjobs =>
    have hless : FewLate { s with requestJobs := jobs } := h
    refine hless.goto fun job' hmem => ?_
    have htaken := (horder.replied job' hmem).2 job (by rw [hjobs]; exact List.mem_cons_self)
    rw [earlier_eq_zero]
    · exact Nat.zero_le _
    · intro job'' hmem''
      have heq : job'' = job := List.mem_singleton.1 hmem''
      rw [heq]
      exact Nat.le_of_lt htaken
  | @put i job hpc =>
    intro pre job' post hreplied
    have hlt := holding_idle_lt s i job'.address
    have hgoto := holding_goto s i job'.address .idle
    have howned : (s.workers i).owned = some job := by rw [hpc]; rfl
    rw [howned, Option.toList_some, WorkerPc.owned_idle, Option.toList_none] at hgoto
    show earlier job'.address post + (s.goto i .idle).holding job'.address < _
    rcases List.eq_nil_or_concat post with rfl | ⟨post, last, rfl⟩
    · -- the reply put on the queue is this one
      rw [show earlier job'.address [] = 0 from rfl, Nat.zero_add]
      exact hlt
    · -- it is a later one
      have hsplit : s.replied ++ [job] = (pre ++ job' :: post) ++ [last] := by
        rw [show s.replied ++ [job] = _ from hreplied, List.concat_eq_append, List.append_assoc,
          List.cons_append]
      obtain ⟨hbefore, hlast⟩ := List.append_inj' hsplit rfl
      obtain rfl : job = last := List.singleton_inj.1 hlast
      have hold := h pre job' post hbefore
      rw [List.concat_eq_append, earlier_append]
      have hnone : earlier job'.address [] = 0 := rfl
      omega
  | @handle i store pc hstep =>
    have hsame : FewLate { s with store := store } := h
    refine hsame.goto fun job _ => ?_
    have howned := owned_of_sessionStep hstep
    show _ ≤ earlier job.address (s.workers i).owned.toList
    rw [← howned, earlier_append]
    exact Nat.le_add_right _ _
  | _ => exact h

theorem orderly_of_run {as : List (Action ι)}
    (run : Lts.Run exec (fun _ _ => True) start as s) : Orderly s := by
  refine run.invariant (fun h _ hexec => ?_) ⟨inOrder_start, ?_⟩
  · have hstep := step_of_exec hexec
    exact ⟨inOrder_of_step h.1 hstep, fewLate_of_step h.1 h.2 hstep⟩
  · intro pre job post hreplied
    simp [start] at hreplied

/-- **Replies overtake few.** For any number of workers and any schedule: of the requests received
before one whose reply is sent, fewer are answered after it than there are workers. -/
theorem overtaken_of_run {as : List (Action ι)}
    (run : Lts.Run exec (fun _ _ => True) start as s) {pre post : List Delivery} {d : Delivery}
    (hsent : s.sent = pre ++ d :: post) :
    post.countP (fun late => late.job.address < d.job.address) < Fintype.card ι := by
  obtain ⟨horder, hfew⟩ := orderly_of_run run
  -- what is sent is found among what was answered, in the same order
  have hsub := horder.sent
  rw [hsent, List.map_append, List.map_cons, List.append_assoc, List.append_assoc,
    List.cons_append] at hsub
  obtain ⟨before, _, hreplied, -, hcons⟩ := List.append_sublist_iff.1 hsub
  obtain ⟨upto, behind, rfl, hmem, hpost⟩ := List.cons_sublist_iff.1 hcons
  obtain ⟨between, between', rfl⟩ := List.append_of_mem hmem
  have hlate := hfew (before ++ between) d.job (between' ++ behind) (by simp [hreplied])
  have hcount : post.countP (fun late => late.job.address < d.job.address) =
      earlier d.job.address (post.map Delivery.job) := by
    rw [earlier, List.countP_map]
    rfl
  have hle : earlier d.job.address (post.map Delivery.job) ≤ earlier d.job.address behind :=
    ((List.sublist_append_left _ _).trans hpost).countP_le
  rw [earlier_append] at hlate
  omega

end

/-- Two workers take two requests of a client, and the second is answered first. -/
def answerSecondFirst : List (Action Bool) :=
  [.accept 4, .main, .main] ++ List.replicate 8 (.worker true) ++ List.replicate 3 .responder ++
    [.request 4 .errorMessage default false, .request 4 .errorMessage default false,
      .worker true] ++ List.replicate 7 (.worker false) ++ List.replicate 3 .responder ++
    List.replicate 6 (.worker true) ++ List.replicate 3 .responder

/-- One reply is late, which is as many as two workers allow. -/
theorem overtaken_answerSecondFirst : ∃ (s : State Bool) (pre post : List Delivery) (d : Delivery),
    Lts.Run exec (fun _ _ => True) start answerSecondFirst s ∧ s.sent = pre ++ d :: post ∧
      post.countP (fun late => late.job.address < d.job.address) = 1 ∧
      post.countP (fun late => late.job.address < d.job.address) < Fintype.card Bool := by
  have run : Lts.Run exec (fun _ _ => True) (start : State Bool) answerSecondFirst _ :=
    Lts.Run.of_execAll rfl
  exact ⟨_, [_], [_], _, run, rfl, rfl, overtaken_of_run run (show _ = [_] ++ _ :: [_] from rfl)⟩

end GlfsNdmp.Pipeline
