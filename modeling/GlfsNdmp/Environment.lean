import GlfsNdmp.SessionRun

/-!
# Whose environment `DATA_GET_ENV` returns

The environment is one static of the process. It is written by every `DATA_START_BACKUP`, which
copies the pairs of its request, and by every accepted `DATA_STOP`, which clears it, in whichever
session they come. So a session reads its own environment only as long as no other session's
request is the last to have written, or happens to have written the same.

`getEnv_independent_iff` states this as a property of two runs: the one that was made, and the one
in which the requests of another session are left out.
-/

namespace GlfsNdmp

open Register

/-! ## The history of the environment -/

/-- What a request writes to the environment. -/
def environmentWrite (e : ServerEvent) : Option (List NdmpPval) :=
  match e.input.request with
  | .dataStartBackup request => some request.env
  | .dataStop => if dataStopError (recordOf e).dataState = NdmpError.noErr then some [] else none
  | _ => none

theorem environmentWrite_getD (e : ServerEvent) (env : List NdmpPval) :
    (environmentWrite e).getD env = environmentEffect e.input.request (recordOf e) env := by
  unfold environmentWrite environmentEffect environmentAfterStop
  cases e.input.request with
  | dataStop =>
    by_cases h : dataStopError (recordOf e).dataState = NdmpError.noErr
    · simp only [h, if_true, Option.getD_some]
    · simp only [h, if_false, Option.getD_none]
  | _ => rfl

/-- **The environment is the last one written, whichever session wrote it.** -/
theorem environment_final (w : World) (txns : List ClientTxn) :
    (Mealy.final xdrDecodeEncode (Server.start w) txns).environment =
      (lastWrite environmentWrite (Mealy.trace xdrDecodeEncode (Server.start w) txns)).getD [] :=
  final_eq_lastWrite Server.environment xdrDecodeEncode_noneTerminated
    (fun srv txn _ => (xdrDecodeEncode_environment srv txn).trans
      (environmentWrite_getD (eventOf srv txn) _).symm) (Server.noneTerminated_start w) txns

/-! ## What a session is answered -/

def NdmpRequest.isGetEnv : NdmpRequest → Bool
  | .dataGetEnv => true
  | _ => false

/-- The pairs in the body of a reply to `DATA_GET_ENV`. -/
def NdmpReplyBody.environment : NdmpReplyBody → Option (List NdmpPval)
  | .dataGetEnv env => some env
  | _ => none

def TxnReply.environment : TxnReply → Option (List NdmpPval)
  | .message reply => reply.body.bind NdmpReplyBody.environment
  | _ => none

/-- The pairs a `DATA_GET_ENV` of session `id` is answered with. -/
def environmentAnswer (id : Nat) (e : ServerEvent) : Option (List NdmpPval) :=
  if e.input.sessionId = id then e.output.bind TxnReply.environment else none

@[simp] theorem TxnReply.environment_reply (srv : Server) (txn : ClientTxn) (error : Int)
    (body : NdmpReplyBody) : (srv.reply txn error body).2.environment =
      if error = NdmpError.noErr then body.environment else none := by
  show Option.bind (if error = _ then _ else _) _ = _
  split <;> rfl

theorem TxnReply.environment_of_isEmpty {reply : TxnReply} (h : reply.isEmpty) :
    reply.environment = none := by
  cases reply with
  | message => cases h
  | _ => rfl

/-- The state check of `ndmp_data_get_env` lets every state pass. -/
theorem ndmpDataGetEnv_eq (s : SessionInfo) (env : List NdmpPval) :
    ndmpDataGetEnv s env = (NdmpError.noErr.code, env) := by
  refine if_pos ?_
  by_cases h : s.dataState = NdmpDataState.active
  · right
    rw [h]
    decide
  · exact Or.inl h

theorem dispatch_environmentReply (srv : Server) (txn : ClientTxn) :
    (srv.dispatch txn).2.environment =
      if txn.request.isGetEnv then some srv.environment else none := by
  unfold Server.dispatch
  cases txn.request with
  | dataGetEnv =>
    simp only [ndmpDataGetEnv_eq, TxnReply.environment_reply]
    rfl
  | config request =>
    simp only
    split
    · exact TxnReply.environment_reply _ _ _ _
    · rfl
  | acceptNotify | connectClose | dataGetState | errorMessage => rfl
  | _ =>
    refine (TxnReply.environment_reply _ _ _ _).trans ?_
    split <;> rfl

/-- Every `DATA_GET_ENV` is answered, with the environment as it is. -/
theorem environmentAnswer_eventOf {srv : Server} (h : srv.NoneTerminated) (txn : ClientTxn)
    (id : Nat) : environmentAnswer id (eventOf srv txn) =
      if txn.sessionId = id ∧ txn.request.isGetEnv then some srv.environment else none := by
  have hreply := dispatch_environmentReply (srv.addJobToSession txn) txn
  unfold environmentAnswer eventOf
  simp only [xdrDecodeEncode_reply srv txn (h _)]
  by_cases hid : txn.sessionId = id
  · simp only [hid, if_true, true_and]
    split
    · rename_i hempty
      rw [TxnReply.environment_of_isEmpty hempty] at hreply
      exact hreply
    · exact hreply
  · simp only [hid, if_false, false_and]

/-! ## Leaving a session out -/

/-- The run without the requests of session `B`. -/
def leaveOut (B : Nat) (txns : List ClientTxn) : List ClientTxn :=
  txns.filter fun txn => txn.sessionId ≠ B

theorem leaveOut_concat (B : Nat) (txns : List ClientTxn) (txn : ClientTxn) :
    leaveOut B (txns ++ [txn]) =
      if txn.sessionId = B then leaveOut B txns else leaveOut B txns ++ [txn] := by
  unfold leaveOut
  rw [List.filter_append, List.filter_singleton]
  by_cases h : txn.sessionId = B <;> simp [h]

/-- The other sessions' records do not notice. -/
theorem session_leaveOut {A B : Nat} (h : A ≠ B) (w : World) (txns : List ClientTxn) :
    (Mealy.final xdrDecodeEncode (Server.start w) (leaveOut B txns)).session A =
      (Mealy.final xdrDecodeEncode (Server.start w) txns).session A := by
  have hreach := Mealy.final_invariant xdrDecodeEncode xdrDecodeEncode_noneTerminated
    (Server.noneTerminated_start w)
  induction txns using List.reverseRecOn with
  | nil => rfl
  | append_singleton txns txn ih =>
    rw [leaveOut_concat, Mealy.final_append, Mealy.final_cons, Mealy.final_nil]
    by_cases hB : txn.sessionId = B
    · rw [if_pos hB, ih, xdrDecodeEncode_session_other _ txn (hB ▸ Ne.symm h)]
    · rw [if_neg hB, Mealy.final_append, Mealy.final_cons, Mealy.final_nil]
      by_cases hA : txn.sessionId = A
      · subst hA
        rw [xdrDecodeEncode_session _ txn (hreach _ _), xdrDecodeEncode_session _ txn (hreach _ _),
          ih]
      · rw [xdrDecodeEncode_session_other _ txn hA, xdrDecodeEncode_session_other _ txn hA, ih]

/-- What a request writes is decided by the request and the record of its session. -/
theorem environmentWrite_congr {e e' : ServerEvent} (hinput : e.input = e'.input)
    (hrecord : recordOf e = recordOf e') : environmentWrite e = environmentWrite e' := by
  rw [environmentWrite, environmentWrite, hinput, hrecord]

/-- The events that are not of session `B`. -/
def notOf (B : Nat) (e : ServerEvent) : Bool := e.input.sessionId ≠ B

/-- The run without session `B` writes what the other sessions wrote in the run with it. -/
theorem lastWrite_leaveOut (B : Nat) (w : World) (txns : List ClientTxn) :
    lastWrite environmentWrite (Mealy.trace xdrDecodeEncode (Server.start w) (leaveOut B txns)) =
      lastWrite environmentWrite
        ((Mealy.trace xdrDecodeEncode (Server.start w) txns).filter (notOf B)) := by
  induction txns using List.reverseRecOn with
  | nil => rfl
  | append_singleton txns txn ih =>
    rw [leaveOut_concat, Mealy.trace_append, Mealy.trace_cons, Mealy.trace_nil, List.filter_append,
      List.filter_singleton]
    by_cases hB : txn.sessionId = B
    · rw [if_pos hB, ih]
      simp [notOf, hB]
    · have hwrite : environmentWrite
          (eventOf (Mealy.final xdrDecodeEncode (.start w) (leaveOut B txns)) txn) =
          environmentWrite (eventOf (Mealy.final xdrDecodeEncode (.start w) txns) txn) :=
        environmentWrite_congr rfl (session_leaveOut hB w txns)
      have hnot : notOf B (eventOf (Mealy.final xdrDecodeEncode (.start w) txns) txn) = true :=
        decide_eq_true hB
      rw [if_neg hB, Mealy.trace_append, Mealy.trace_cons, Mealy.trace_nil]
      change lastWrite environmentWrite (_ ++ [eventOf _ txn]) =
        lastWrite environmentWrite (_ ++ bif notOf B (eventOf _ txn) then [eventOf _ txn] else [])
      rw [hnot, cond_true, lastWrite_concat, lastWrite_concat, hwrite, ih]

/-! ## The two runs -/

/-- The answers to the `DATA_GET_ENV`s of session `id`, in order. -/
def environmentAnswers (id : Nat) (w : World) (txns : List ClientTxn) : List (List NdmpPval) :=
  (Mealy.trace xdrDecodeEncode (Server.start w) txns).filterMap (environmentAnswer id)

theorem environmentAnswers_concat (id : Nat) (w : World) (txns : List ClientTxn)
    (txn : ClientTxn) :
    environmentAnswers id w (txns ++ [txn]) = environmentAnswers id w txns ++
      if txn.sessionId = id ∧ txn.request.isGetEnv
      then [(Mealy.final xdrDecodeEncode (Server.start w) txns).environment] else [] := by
  have hreach := Mealy.final_invariant xdrDecodeEncode xdrDecodeEncode_noneTerminated
    (Server.noneTerminated_start w) txns
  unfold environmentAnswers
  rw [Mealy.trace_append, Mealy.trace_cons, Mealy.trace_nil, List.filterMap_append]
  congr 1
  change List.filterMap _ [eventOf _ txn] = _
  rw [List.filterMap_cons, environmentAnswer_eventOf hreach]
  split_ifs <;> rfl

/-- The two runs answer session `A` alike, if and only if at each of its `DATA_GET_ENV`s they hold
the same environment. -/
theorem environmentAnswers_eq_iff {A B : Nat} (h : A ≠ B) (w : World) (txns : List ClientTxn) :
    environmentAnswers A w txns = environmentAnswers A w (leaveOut B txns) ↔
      ∀ as txn bs, txns = as ++ txn :: bs → txn.sessionId = A → txn.request.isGetEnv →
        (Mealy.final xdrDecodeEncode (Server.start w) as).environment =
          (Mealy.final xdrDecodeEncode (Server.start w) (leaveOut B as)).environment := by
  induction txns using List.reverseRecOn with
  | nil => simp [leaveOut]
  | append_singleton txns txn ih =>
    -- The step adds one place, and with it at most one answer to either run.
    rw [Mealy.forall_place_concat, ← ih, environmentAnswers_concat, leaveOut_concat]
    by_cases hA : txn.sessionId = A
    · have hB : txn.sessionId ≠ B := hA ▸ h
      rw [if_neg hB, environmentAnswers_concat]
      by_cases hget : txn.request.isGetEnv
      · simp [hA, hget, List.append_singleton_inj]
      · simp [hA, hget]
    · by_cases hB : txn.sessionId = B
      · simp [hB, Ne.symm h]
      · simp [hA, hB, environmentAnswers_concat]

/-- Whenever session `A` asks for the environment and the last request to have written it is one
of session `B`, that request wrote the pairs the other sessions had left. -/
def ForeignWritesAgree (A B : Nat) (evs : List ServerEvent) : Prop :=
  ∀ pre e post, evs = pre ++ e :: post → e.input.sessionId = A → e.input.request.isGetEnv →
    ∀ x, lastWriter environmentWrite pre = some x → x.input.sessionId = B →
      environmentWrite x = some ((lastWrite environmentWrite (pre.filter (notOf B))).getD [])

/-- **The environment of a session.** For any two sessions, and any run in which they and others
take part, `A`'s `DATA_GET_ENV`s return what they return without the requests of `B`, if and only
if `B` is never the last to have written another environment than the other sessions left. -/
theorem getEnv_independent_iff (w : World) (txns : List ClientTxn) {A B : Nat} (h : A ≠ B) :
    environmentAnswers A w txns = environmentAnswers A w (leaveOut B txns) ↔
      ForeignWritesAgree A B (Mealy.trace xdrDecodeEncode (Server.start w) txns) := by
  rw [environmentAnswers_eq_iff h]
  have hword : ∀ as,
      (Mealy.final xdrDecodeEncode (Server.start w) as).environment =
          (Mealy.final xdrDecodeEncode (Server.start w) (leaveOut B as)).environment ↔
        ∀ x, lastWriter environmentWrite (Mealy.trace xdrDecodeEncode (Server.start w) as) =
            some x → x.input.sessionId = B → environmentWrite x =
          some ((lastWrite environmentWrite
            ((Mealy.trace xdrDecodeEncode (Server.start w) as).filter (notOf B))).getD []) := by
    intro as
    rw [environment_final, environment_final, lastWrite_leaveOut, lastWrite_filter_iff]
    simp [notOf]
  constructor
  · intro hprop pre e post hev hid hget
    obtain ⟨as, bs, rfl, rfl, -, -, -⟩ := Mealy.trace_eq_append_cons _ hev
    exact (hword as).1 (hprop as e.input bs rfl hid hget)
  · intro hcond as txn bs hsplit hid hget
    rw [hsplit, Mealy.trace_append_cons] at hcond
    exact (hword as).2 (hcond _ _ _ rfl hid hget)

/-- Session 5 asks for a backup, then session 4 for the environment. -/
def backupThenGetEnv : List ClientTxn :=
  [.receive 0 5 "10.0.0.2".toList (.dataStartBackup ⟨"dump".toList,
      [⟨"FILESYSTEM".toList, "/home".toList⟩, ⟨"USER".toList, "eve".toList⟩]⟩) default,
    .receive 1 4 "10.0.0.3".toList .dataGetEnv default]

/-- Both find a file in which the path has its entry. -/
def homeConfigured : World := .boot "10.0.0.1 /bu\nvol 10.0.0.2/home eve\n".toList

theorem getEnv_independent_backupThenGetEnv :
    environmentAnswers 4 homeConfigured backupThenGetEnv =
        environmentAnswers 4 homeConfigured (leaveOut 5 backupThenGetEnv) ↔
      ForeignWritesAgree 4 5
        (Mealy.trace xdrDecodeEncode (Server.start homeConfigured) backupThenGetEnv) :=
  getEnv_independent_iff homeConfigured backupThenGetEnv (by decide)

/-- Session 4 is answered with the pairs session 5 sent. -/
theorem getEnv_dependent_backupThenGetEnv :
    environmentAnswers 4 homeConfigured backupThenGetEnv ≠
      environmentAnswers 4 homeConfigured (leaveOut 5 backupThenGetEnv) := by
  have hwith : environmentAnswers 4 homeConfigured backupThenGetEnv =
      [[⟨"FILESYSTEM".toList, "/home".toList⟩, ⟨"USER".toList, "eve".toList⟩]] := by decide
  have hwithout : environmentAnswers 4 homeConfigured (leaveOut 5 backupThenGetEnv) = [[]] := by
    decide
  rw [hwith, hwithout]
  decide

end GlfsNdmp
