import GlfsNdmp.SessionRun

/-!
# The states a session goes through

The record of a session holds three states, of which `CONNECT_CLOSE` writes all, `CONNECT_OPEN` the
first, the data requests the second, and nobody the third. Of the words this allows only twelve
triples occur. They are the `Stage`s: the phase of the connection, and a state of the data service
in which it rests. `NDMP_DATA_STATE_ACTIVE` is no such state, as a transfer ends before its handler
does; and the mover goes by the connection.

**Theorem (`reaches_iff`).** From a stage the requests lead to exactly those stages whose phase is
not an earlier one. Within a phase every state of the data service leads to every other, and this
goes for the phase behind `CONNECT_CLOSE`, too.

`states_sessionEffect` connects the stages with the records: a handler does to the words what
`Stage.handle` does to the stage. The rest is about twelve stages.
-/

namespace GlfsNdmp

/-! ## Stages -/

/-- What `CONNECT_OPEN` and `CONNECT_CLOSE` make of the connection. -/
inductive Phase
  | listen | connected | halted
  deriving DecidableEq, Repr

namespace Phase

/-- `connection_state`. -/
def code : Phase → Int
  | .listen => NdmpState.listen
  | .connected => NdmpState.connected
  | .halted => NdmpState.halted

/-- `mover_state`. -/
def moverCode : Phase → Int
  | .listen | .connected => NdmpState.idle
  | .halted => NdmpState.halted

/-- No phase comes back. -/
instance : LE Phase := ⟨fun p q => p.ctorIdx ≤ q.ctorIdx⟩

instance (p q : Phase) : Decidable (p ≤ q) := inferInstanceAs (Decidable (p.ctorIdx ≤ q.ctorIdx))

theorem le_trans {p q r : Phase} (h : p ≤ q) (h' : q ≤ r) : p ≤ r := Nat.le_trans h h'

end Phase

/-- Where the data service rests. -/
inductive Rest
  | idle | listen | connected | halted
  deriving DecidableEq, Repr

/-- `data_state`. -/
def Rest.code : Rest → Int
  | .idle => NdmpDataState.idle
  | .listen => NdmpDataState.listen
  | .connected => NdmpDataState.connected
  | .halted => NdmpDataState.halted

/-- A session between two requests. -/
structure Stage where
  phase : Phase
  data : Rest
  deriving DecidableEq, Repr

/-- The three states of a record. -/
def SessionInfo.states (s : SessionInfo) : Int × Int × Int :=
  (s.connectionState, s.dataState, s.moverState)

namespace Stage

/-- The three states that stand for a stage. -/
def states (a : Stage) : Int × Int × Int := (a.phase.code, a.data.code, a.phase.moverCode)

/-- A session nothing has been asked of. -/
def fresh : Stage := ⟨.listen, .idle⟩

theorem states_fresh (id : Nat) : (SessionInfo.fresh id).states = fresh.states := rfl

/-! ## Requests -/

/-- A data connection, if there is none and the address is local. -/
def openData (addrType : Int) (data : Rest) (a : Stage) : Stage :=
  if a.data = .idle ∧ addrType = NdmpAddrType.addrLocal then { a with data := data } else a

/-- What a request does to a stage. -/
def handle (request : NdmpRequest) (locals : Locals) (a : Stage) : Stage :=
  match request with
  | .connectOpen request =>
    if connectOpenError request locals a.phase.code = NdmpError.noErr then
      { a with phase := .connected }
    else a
  -- `data_state` gets `HALTED` of the connection states, which is `CONNECTED` to the data service
  | .connectClose => ⟨.halted, .connected⟩
  | .dataStartBackup _ | .dataStartRecover _ => { a with data := .halted }
  | .dataAbort => if a.data = .halted ∨ a.data = .idle then a else { a with data := .halted }
  | .dataStop => if a.data = .halted then { a with data := .idle } else a
  | .dataListen request => a.openData request.addrType .listen
  | .dataConnect request => a.openData request.addrType .connected
  | .acceptNotify | .config _ | .dataGetState | .dataGetEnv | .errorMessage => a

/-- An accepted `CONNECT_OPEN` finds the connection in its first phase. -/
theorem phase_of_connectOpen {request : NdmpConnectOpenRequest} {locals : Locals} {a : Stage}
    (h : connectOpenError request locals a.phase.code = NdmpError.noErr) : a.phase = .listen := by
  cases hphase : a.phase with
  | listen => rfl
  | connected | halted =>
    rw [hphase] at h
    simp [connectOpenError, Phase.code] at h

/-- Writing one state of the data service. -/
theorem states_withData {s : SessionInfo} {a : Stage} (h : s.states = a.states) (data : Rest) :
    SessionInfo.states { s.enterCriticalSection with dataState := data.code } =
      Stage.states { a with data := data } := by
  show (s.states.1, data.code, s.states.2.2) = _
  rw [h]
  rfl

theorem states_openData {s : SessionInfo} {a : Stage} (h : s.states = a.states) (addrType : Int)
    (state : NdmpDataState) (data : Rest) (hcode : data.code = state) :
    (openDataConnection addrType state s).1.states = (a.openData addrType data).states := by
  have hidle : a.data.code = NdmpDataState.idle ↔ a.data = .idle := by
    cases a.data <;> decide
  have hdata : s.dataState = a.data.code := congrArg (·.2.1) h
  have haccept : addrError addrType s.dataState = NdmpError.noErr ↔
      a.data = .idle ∧ addrType = NdmpAddrType.addrLocal := by
    rw [hdata, ← hidle]
    unfold addrError
    split_ifs <;> simp_all
  show SessionInfo.states (if addrError addrType s.dataState = NdmpError.noErr then
    { s.enterCriticalSection with dataState := state } else s.enterCriticalSection) = _
  unfold openData
  by_cases h' : a.data = .idle ∧ addrType = NdmpAddrType.addrLocal
  · rw [if_pos (haccept.2 h'), if_pos h']
    rw [← hcode]
    exact states_withData h data
  · rw [if_neg (mt haccept.1 h'), if_neg h']
    exact h

/-- **What a handler does to the record is what `handle` does to the stage.** -/
theorem states_sessionEffect {s : SessionInfo} {a : Stage} (h : s.states = a.states)
    (request : NdmpRequest) (locals : Locals) :
    (sessionEffect request locals s).states = (a.handle request locals).states := by
  have hconnection : s.connectionState = a.phase.code := congrArg (·.1) h
  have hdata : s.dataState = a.data.code := congrArg (·.2.1) h
  cases request with
  | connectOpen request =>
    show SessionInfo.states (if connectOpenError request locals s.connectionState = _ then
      { s.enterCriticalSection with connectionState := NdmpState.connected }
      else s.enterCriticalSection) = _
    simp only [handle]
    by_cases haccept : connectOpenError request locals a.phase.code = NdmpError.noErr
    · rw [hconnection, if_pos haccept, if_pos haccept]
      show ((NdmpState.connected : Int), s.states.2.1, s.states.2.2) = _
      rw [h, states, states, phase_of_connectOpen haccept]
      rfl
    · rw [hconnection, if_neg haccept, if_neg haccept]
      exact h
  | connectClose => rfl
  | dataStartBackup request | dataStartRecover request =>
    show SessionInfo.states { activate s.enterCriticalSection with dataState := _ } = _
    have hactivate : (activate s.enterCriticalSection).connectionState = s.states.1 ∧
        (activate s.enterCriticalSection).moverState = s.states.2.2 := by
      unfold activate
      split <;> exact ⟨rfl, rfl⟩
    rw [SessionInfo.states, hactivate.1, hactivate.2, h]
    rfl
  | dataAbort =>
    show SessionInfo.states (if dataAbortError s.dataState = _ then
      { s.enterCriticalSection with dataState := NdmpDataState.halted }
      else s.enterCriticalSection) = _
    have haccept : dataAbortError s.dataState = NdmpError.noErr ↔
        ¬ (a.data = .halted ∨ a.data = .idle) := by
      rw [hdata]
      cases a.data <;> decide
    by_cases hrest : a.data = .halted ∨ a.data = .idle
    · rw [if_neg (mt haccept.1 (not_not.2 hrest))]
      simp only [handle, if_pos hrest]
      exact h
    · rw [if_pos (haccept.2 hrest)]
      simp only [handle, if_neg hrest]
      exact states_withData h .halted
  | dataStop =>
    show SessionInfo.states (if dataStopError s.dataState = _ then
      { s.enterCriticalSection with dataState := NdmpDataState.idle }
      else s.enterCriticalSection) = _
    have haccept : dataStopError s.dataState = NdmpError.noErr ↔ a.data = .halted := by
      rw [hdata]
      cases a.data <;> decide
    by_cases hrest : a.data = .halted
    · rw [if_pos (haccept.2 hrest)]
      simp only [handle, if_pos hrest]
      exact states_withData h .idle
    · rw [if_neg (mt haccept.1 hrest)]
      simp only [handle, if_neg hrest]
      exact h
  | dataListen request => exact states_openData h _ _ _ rfl
  | dataConnect request => exact states_openData h _ _ _ rfl
  | acceptNotify | config request | dataGetState | dataGetEnv | errorMessage => exact h

/-! ## What leads where -/

theorem phase_le_handle (request : NdmpRequest) (locals : Locals) (a : Stage) :
    a.phase ≤ (a.handle request locals).phase := by
  have hrefl : a.phase ≤ a.phase := Nat.le_refl _
  have hhalted : a.phase ≤ .halted := by cases a.phase <;> decide
  cases request with
  | connectOpen request =>
    simp only [handle]
    split
    · rename_i haccept
      rw [phase_of_connectOpen haccept]
      exact (by decide : Phase.listen ≤ .connected)
    · exact hrefl
  | connectClose => exact hhalted
  | dataAbort | dataStop | dataListen request | dataConnect request =>
    simp only [handle, openData]
    split <;> exact hrefl
  | _ => exact hrefl

/-- Requests that lead from one stage to another, if the phase allows it: those that change the
phase, those that bring the data service to rest at `IDLE`, and those that start from there. -/
def route (a b : Stage) : List NdmpRequest :=
  let (close, data) : List NdmpRequest × Rest :=
    if a.phase = b.phase then ([], a.data)
    else if b.phase = .connected then ([.connectOpen ⟨3⟩], a.data)
    else ([.connectClose], .connected)
  let stop : List NdmpRequest :=
    match data with
    | .idle => []
    | .listen | .connected => [.dataAbort, .dataStop]
    | .halted => [.dataStop]
  let start : List NdmpRequest :=
    match b.data with
    | .idle => []
    | .listen => [.dataListen ⟨NdmpAddrType.addrLocal⟩]
    | .connected => [.dataConnect ⟨NdmpAddrType.addrLocal⟩]
    | .halted => [.dataConnect ⟨NdmpAddrType.addrLocal⟩, .dataAbort]
  close ++ stop ++ start

/-- The stage after some requests. -/
def handleAll (requests : List NdmpRequest) (a : Stage) : Stage :=
  requests.foldl (fun a request => a.handle request default) a

theorem handleAll_route {a b : Stage} (h : a.phase ≤ b.phase) : handleAll (a.route b) a = b := by
  obtain ⟨p, d⟩ := a
  obtain ⟨q, e⟩ := b
  revert h
  cases p <;> cases q <;> cases d <;> cases e <;> decide

end Stage

/-! ## Runs -/

section

variable {srv : Server} {id : Nat} {a : Stage}

/-- A request of the session. -/
theorem states_xdrDecodeEncode (h : srv.NoneTerminated) {txn : ClientTxn}
    (ha : (srv.session txn.sessionId).states = a.states) :
    ((xdrDecodeEncode srv txn).1.session txn.sessionId).states =
      (a.handle txn.request txn.locals).states := by
  rw [xdrDecodeEncode_session srv txn (h _)]
  exact Stage.states_sessionEffect (s := (srv.session txn.sessionId).addJob txn.address) ha _ _

/-- A run leads to a stage whose phase is not an earlier one. -/
theorem exists_stage_of_run (h : srv.NoneTerminated) (ha : (srv.session id).states = a.states)
    (txns : List ClientTxn) :
    ∃ b : Stage, a.phase ≤ b.phase ∧
      ((Mealy.final xdrDecodeEncode srv txns).session id).states = b.states := by
  induction txns generalizing srv a with
  | nil => exact ⟨a, Nat.le_refl _, ha⟩
  | cons txn txns ih =>
    have hnext := xdrDecodeEncode_noneTerminated srv txn h
    rw [Mealy.final_cons]
    by_cases hid : txn.sessionId = id
    · subst hid
      obtain ⟨b, hle, hb⟩ := ih hnext (states_xdrDecodeEncode h ha)
      exact ⟨b, Phase.le_trans (Stage.phase_le_handle _ _ _) hle, hb⟩
    · exact ih hnext (by rw [xdrDecodeEncode_session_other srv txn hid, ha])

/-- The session sends some requests. -/
def sends (id : Nat) (requests : List NdmpRequest) : List ClientTxn :=
  requests.map fun request => .receive 0 id [] request default

theorem states_sends (h : srv.NoneTerminated) (ha : (srv.session id).states = a.states)
    (requests : List NdmpRequest) :
    ((Mealy.final xdrDecodeEncode srv (sends id requests)).session id).states =
      (a.handleAll requests).states := by
  induction requests generalizing srv a with
  | nil => exact ha
  | cons request requests ih =>
    exact ih (xdrDecodeEncode_noneTerminated srv _ h)
      (@states_xdrDecodeEncode _ _ h (.receive 0 id [] request default) ha)

/-- **The stages a session goes through.** From any stage of its record, the requests of a run, its
own and those of other sessions, lead exactly to the stages whose phase is not an earlier one; no
other words are found in the three states of the record. -/
theorem reaches_iff (h : srv.NoneTerminated) (ha : (srv.session id).states = a.states)
    (states : Int × Int × Int) :
    (∃ txns, ((Mealy.final xdrDecodeEncode srv txns).session id).states = states) ↔
      ∃ b : Stage, a.phase ≤ b.phase ∧ b.states = states := by
  constructor
  · rintro ⟨txns, rfl⟩
    obtain ⟨b, hle, hb⟩ := exists_stage_of_run h ha txns
    exact ⟨b, hle, hb.symm⟩
  · rintro ⟨b, hle, rfl⟩
    refine ⟨sends id (a.route b), ?_⟩
    rw [states_sends h ha, Stage.handleAll_route hle]

end

/-- A new session can be closed and then listen for a data connection; one that has been opened is
never again as a new one is. -/
theorem reaches_closedListening :
    let srv := Server.start (World.boot [])
    let opened := Mealy.final xdrDecodeEncode srv (sends 4 [.connectOpen ⟨3⟩])
    (∃ txns, ((Mealy.final xdrDecodeEncode srv txns).session 4).states = (4, 3, 4)) ∧
      ¬ ∃ txns, ((Mealy.final xdrDecodeEncode opened txns).session 4).states =
        Stage.fresh.states := by
  intro srv opened
  have hstart : srv.NoneTerminated := Server.noneTerminated_start _
  have hopened : opened.NoneTerminated :=
    Mealy.final_invariant xdrDecodeEncode xdrDecodeEncode_noneTerminated hstart _
  constructor
  · exact (reaches_iff hstart (Stage.states_fresh 4) _).2 ⟨⟨.halted, .listen⟩, by decide, rfl⟩
  · rw [reaches_iff (a := ⟨.connected, .idle⟩) hopened (by decide)]
    rintro ⟨⟨phase, data⟩, hle, hstates⟩
    cases phase with
    | listen => exact absurd hle (by decide : ¬ Phase.connected ≤ .listen)
    | connected | halted => cases hstates

end GlfsNdmp
