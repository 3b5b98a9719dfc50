import GlfsNdmp.Environment
import GlfsNdmp.Limits

/-!
# What `DATA_GET_ENV` answers

`DATA_GET_ENV` is meant for the time after a backup: it returns the pairs of the request that was
served, until a `DATA_STOP` ends the operation, and is refused in the states in which there is no
operation. The handler refuses it in no state, and the pairs are those of the request that came
last, served or not. What lies outside of the eight slots for pairs, or of the 64 bytes of a string,
does not come back, if anything does.

`environmentServed_iff` says which runs do not notice.
-/

namespace GlfsNdmp

open Register

/-! ## The answer -/

/-- A request of the server's is answered with this error. -/
def answeredWith (e : ServerEvent) : Option Int := e.output.bind TxnReply.error

/-- The pairs in the answer. -/
def answeredPairs (e : ServerEvent) : Option (List NdmpPval) := e.output.bind TxnReply.environment

theorem answeredNoErr_iff (e : ServerEvent) :
    answeredNoErr e ↔ answeredWith e = some (NdmpError.noErr : Int) := by
  rw [answeredNoErr, beq_iff_eq]
  rfl

/-- Every `DATA_GET_ENV` is answered, with the environment as it is. -/
theorem getEnv_eventOf {srv : Server} (h : srv.NoneTerminated) {txn : ClientTxn}
    (hget : txn.request.isGetEnv) :
    answeredWith (eventOf srv txn) = some (NdmpError.noErr : Int) ∧
      answeredPairs (eventOf srv txn) = some srv.environment := by
  have hpairs := environmentAnswer_eventOf h txn txn.sessionId
  rw [environmentAnswer, eventOf_input, if_pos rfl, if_pos ⟨rfl, hget⟩] at hpairs
  refine ⟨(answeredNoErr_iff _).1 ((answeredNoErr_iff_dispatch (h _)).2 ?_), hpairs⟩
  cases hreq : txn.request with
  | dataGetEnv =>
    unfold Server.dispatch
    simp only [hreq, ndmpDataGetEnv_eq]
    rfl
  | _ =>
    rw [hreq] at hget
    cases hget

/-! ## The pairs of a backup -/

/-- The pairs a `DATA_START_BACKUP` comes with. -/
def pairsSent (e : ServerEvent) : Option (List NdmpPval) :=
  match e.input.request with
  | .dataStartBackup request => some request.env
  | _ => none

/-- A backup that was served, or a stop that was: either decides which pairs are to be had. -/
def decidesPairs (e : ServerEvent) : Bool :=
  ((pairsSent e).isSome || e.input.request.isStop) && answeredNoErr e

/-- Outside the stops that succeed, the environment is written by the backups. -/
theorem environmentWrite_eq_pairsSent {e : ServerEvent} (hterm : e.before.NoneTerminated)
    (he : e = eventOf e.before e.input)
    (h : e.input.request.isStop → answeredNoErr e = false) :
    environmentWrite e = pairsSent e := by
  unfold environmentWrite pairsSent
  cases hreq : e.input.request with
  | dataStop =>
    have hrefused := h (by rw [hreq]; rfl)
    rw [he, answeredNoErr_eventOf (hterm _) (by rw [hreq]; rfl)
      (by rw [hreq]; rfl), decide_eq_false_iff_not] at hrefused
    exact if_neg hrefused
  | _ => rfl

/-! ## Served as asked -/

/-- The states of an operation that is on, or over and not yet stopped. -/
def Operating (dataState : Int) : Prop :=
  dataState = NdmpDataState.active ∨ dataState = NdmpDataState.halted

instance (dataState : Int) : Decidable (Operating dataState) := inferInstanceAs (Decidable (_ ∨ _))

/-- A `DATA_GET_ENV` in such a state, after a backup that was served and that no other such backup
and no stop that succeeded has followed, and the pairs of the backup. -/
def AsksFor (evs : List ServerEvent) (bs : List ServerEvent) (e : ServerEvent)
    (pairs : List NdmpPval) : Prop :=
  ∃ as b post, evs = as ++ b :: bs ++ e :: post ∧ pairsSent b = some pairs ∧ answeredNoErr b ∧
    (∀ x ∈ bs, decidesPairs x = false) ∧ e.input.request.isGetEnv ∧
      Operating (recordOf e).dataState

/-- What holds of every request up to a `DATA_GET_ENV`. -/
def UpToGetEnv (evs : List ServerEvent) (P : ServerEvent → Prop) : Prop :=
  ∀ pre e post, evs = pre ++ e :: post → e.input.request.isGetEnv → ∀ x ∈ pre ++ [e], P x

/-- Every such `DATA_GET_ENV` is answered with these pairs, and every other is refused. All of them
are reached, and handled, within the memory of the server. -/
structure EnvironmentServed (evs : List ServerEvent) : Prop where
  contained : UpToGetEnv evs fun e => Contained e.before e.input
  served : ∀ bs e pairs, AsksFor evs bs e pairs →
    answeredWith e = some (NdmpError.noErr : Int) ∧ answeredPairs e = some pairs
  refused : ∀ e ∈ evs, e.input.request.isGetEnv → ¬ Operating (recordOf e).dataState →
    answeredWith e = some (NdmpError.illegalStateErr : Int) ∧ answeredPairs e = none

/-- No `DATA_GET_ENV` comes in another state, or after a request beyond its limits, and where
backups have been refused since the one that was served, the last of them had its pairs. -/
structure EnvironmentAsked (evs : List ServerEvent) : Prop where
  limits : UpToGetEnv evs fun e => WithinLimits e.before e.input
  operating : ∀ e ∈ evs, e.input.request.isGetEnv → Operating (recordOf e).dataState
  repeated : ∀ bs e pairs, AsksFor evs bs e pairs → ∀ last ∈ lastWrite pairsSent bs, last = pairs

theorem upToGetEnv_congr {evs : List ServerEvent} {P Q : ServerEvent → Prop}
    (h : ∀ e, P e ↔ Q e) : UpToGetEnv evs P ↔ UpToGetEnv evs Q := by
  simp only [UpToGetEnv, h]

/-- The environment a `DATA_GET_ENV` meets that asks for these pairs. -/
theorem environment_of_asksFor {w : World} {txns : List ClientTxn} {bs : List ServerEvent}
    {e : ServerEvent} {pairs : List NdmpPval}
    (h : AsksFor (Mealy.trace xdrDecodeEncode (Server.start w) txns) bs e pairs) :
    e.before.environment = (lastWrite pairsSent bs).getD pairs := by
  obtain ⟨as, b, post, hev, hpairs, -, hquiet, -, -⟩ := h
  have hwrites : ∀ x ∈ bs, environmentWrite x = pairsSent x := by
    intro x hx
    obtain ⟨hterm, he⟩ := eventOf_of_mem_trace (Server.noneTerminated_start w)
      (show x ∈ Mealy.trace xdrDecodeEncode (Server.start w) txns by rw [hev]; simp [hx])
    refine environmentWrite_eq_pairsSent hterm he fun hstop => ?_
    have hdecides := hquiet x hx
    simpa [decidesPairs, hstop] using hdecides
  have hb : environmentWrite b = some pairs := by
    unfold environmentWrite pairsSent at *
    cases hreq : b.input.request with
    | dataStartBackup request => rwa [hreq] at hpairs
    | _ =>
      rw [hreq] at hpairs
      cases hpairs
  have hlast : lastWrite environmentWrite bs = lastWrite pairsSent bs := by
    rw [lastWrite, lastWrite, List.filterMap_congr hwrites]
  obtain ⟨us, vs, rfl, hpre, hbefore, -, -⟩ := Mealy.trace_eq_append_cons _ hev
  rw [hbefore, environment_final, ← hpre, List.append_cons, lastWrite_append, lastWrite_concat, hb,
    hlast]
  cases lastWrite pairsSent bs <;> rfl

/-- **The answers to `DATA_GET_ENV`.** In every run, of one session or several: it is reached, it
returns the pairs of the backup that was served, and it is refused where there is none, if and only
if it comes in the active and the halted state only, no backup refused in the meantime had other
pairs, and all requests up to it are within their limits. -/
theorem environmentServed_iff (w : World) (txns : List ClientTxn) :
    EnvironmentServed (Mealy.trace xdrDecodeEncode (Server.start w) txns) ↔
      EnvironmentAsked (Mealy.trace xdrDecodeEncode (Server.start w) txns) := by
  have hanswer : ∀ e ∈ Mealy.trace xdrDecodeEncode (Server.start w) txns,
      e.input.request.isGetEnv → answeredWith e = some (NdmpError.noErr : Int) ∧
        answeredPairs e = some e.before.environment := by
    intro e he hget
    obtain ⟨hterm, heq⟩ := eventOf_of_mem_trace (Server.noneTerminated_start w) he
    rw [heq]
    exact getEnv_eventOf hterm hget
  have hasked : ∀ bs e pairs,
      AsksFor (Mealy.trace xdrDecodeEncode (Server.start w) txns) bs e pairs →
      answeredWith e = some (NdmpError.noErr : Int) ∧
        answeredPairs e = some ((lastWrite pairsSent bs).getD pairs) := by
    intro bs e pairs h
    rw [← environment_of_asksFor h]
    obtain ⟨as, b, post, hev, -, -, -, hget, -⟩ := h
    exact hanswer e (by rw [hev]; simp) hget
  have hlimits := @upToGetEnv_congr (Mealy.trace xdrDecodeEncode (Server.start w) txns) _ _
    fun e => contained_iff e.before e.input
  constructor
  · rintro ⟨hcontained, hserved, hrefused⟩
    refine ⟨hlimits.1 hcontained, fun e he hget => ?_, fun bs e pairs h last hlast => ?_⟩
    · by_contra hstate
      have herror := (hrefused e he hget hstate).1
      rw [(hanswer e he hget).1] at herror
      exact absurd herror (by decide)
    · have hpairs := (hserved bs e pairs h).2
      rw [(hasked bs e pairs h).2, hlast] at hpairs
      exact Option.some.inj hpairs
  · rintro ⟨hwithin, hstate, hrepeated⟩
    refine ⟨hlimits.2 hwithin, fun bs e pairs h => ?_,
      fun e he hget hnot => absurd (hstate e he hget) hnot⟩
    obtain ⟨herror, hpairs⟩ := hasked bs e pairs h
    refine ⟨herror, hpairs.trans (congrArg some ?_)⟩
    cases hlast : lastWrite pairsSent bs with
    | none => rfl
    | some last => exact hrepeated bs e pairs h last hlast

/-- A first request that asks for the environment. -/
def getEnvFirst : List ClientTxn := [.receive 0 4 [] .dataGetEnv default]

/-- It is answered in the idle state, with no pairs and no error. -/
theorem not_environmentServed_getEnvFirst :
    ¬ EnvironmentServed
      (Mealy.trace xdrDecodeEncode (Server.start (World.boot [])) getEnvFirst) := by
  intro h
  have herror := (h.refused _ (List.mem_singleton_self _) rfl (by decide)).1
  exact absurd herror (by decide)

end GlfsNdmp
