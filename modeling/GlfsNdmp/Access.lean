import GlfsNdmp.SessionRun

/-!
# The handlers, one access at a time

With several threads a handler is not one step: the threads of the server take turns between any
two accesses to the fields of a session record. `NdmpRequest.prog` is what each handler does to the
record it has looked up, as a program of single accesses in the order of the source.

`prog_run` ties the two views together: a program that runs undisturbed changes the record as
`sessionEffect` says.
-/

namespace GlfsNdmp

/-! ## Programs -/

/-- The state words of a record. -/
inductive Field
  | connectionState | dataState | moverState
  deriving DecidableEq, Repr

namespace SessionInfo

def get (s : SessionInfo) : Field → Int
  | .connectionState => s.connectionState
  | .dataState => s.dataState
  | .moverState => s.moverState

def set (s : SessionInfo) (field : Field) (value : Int) : SessionInfo :=
  match field with
  | .connectionState => { s with connectionState := value }
  | .dataState => { s with dataState := value }
  | .moverState => { s with moverState := value }

theorem set_frame (s : SessionInfo) (field : Field) (value : Int) :
    (s.set field value).sessionId = s.sessionId ∧ (s.set field value).jobs = s.jobs ∧
      (s.set field value).isTerminated = s.isTerminated := by
  cases field <;> exact ⟨rfl, rfl, rfl⟩

end SessionInfo

/-- A handler on a record: one constructor for each kind of access. -/
inductive Prog
  | done
  /-- `enter_critical_section(session_info->s_lock)` -/
  | enter (next : Prog)
  /-- `exit_critical_section(session_info->s_lock)` -/
  | exit (next : Prog)
  | read (field : Field) (next : Int → Prog)
  | write (field : Field) (value : Int) (next : Prog)

/-- A program that is not disturbed. -/
def Prog.run : Prog → SessionInfo → SessionInfo
  | .done, s => s
  | .enter next, s => next.run s.enterCriticalSection
  | .exit next, s => next.run s.exitCriticalSection
  | .read field next, s => (next (s.get field)).run s
  | .write field value next, s => next.run (s.set field value)

/-! ## The programs of the handlers -/

def connectOpenProg (request : NdmpConnectOpenRequest) (locals : Locals) : Prog :=
  .enter <| .read .connectionState fun state =>
    if connectOpenError request locals state = NdmpError.noErr
    then .write .connectionState NdmpState.connected <| .exit .done
    else .exit .done

def connectCloseProg : Prog :=
  .enter <| .write .connectionState NdmpState.halted <| .write .dataState NdmpState.halted <|
    .write .moverState NdmpState.halted <| .exit .done

/-- `ndmp_data_listen` and `ndmp_data_connect`. -/
def openDataConnectionProg (addrType : Int) (state : NdmpDataState) : Prog :=
  .enter <| .read .dataState fun word =>
    if addrError addrType word = NdmpError.noErr then .write .dataState state <| .exit .done
    else .exit .done

/-- `exit_critical_section`, and the word that is printed behind it, as the makefile defines
`DEBUG`. -/
def exitProg : Prog := .exit <| .read .dataState fun _ => .done

/-- `ndmp_data_abort` reads the word for each of the two states it asks for. -/
def dataAbortProg : Prog :=
  .enter <| .read .dataState fun word =>
    if word = NdmpDataState.halted then exitProg
    else .read .dataState fun word =>
      if word = NdmpDataState.idle then exitProg
      else .write .dataState NdmpDataState.halted exitProg

def dataStopProg : Prog :=
  .enter <| .read .dataState fun word =>
    if dataStopError word = NdmpError.noErr
    then .write .dataState NdmpDataState.idle exitProg
    else exitProg

/-- `ndmp_data_get_env`, whose test reads the word again if the first read finds `ACTIVE`. -/
def dataGetEnvProg : Prog :=
  .enter <| .read .dataState fun word =>
    if word ≠ NdmpDataState.active then .exit .done
    else .read .dataState fun _ => .exit .done

/-- A transfer from the end of its commands on: a failed command halts once more. -/
def endTransferProg (failed : Bool) : Prog :=
  let send : Prog := .write .dataState NdmpDataState.halted <| .exit .done
  if failed then .write .dataState NdmpDataState.halted send else send

/-- `ndmp_data_start_backup` and `ndmp_data_start_recover`. -/
def dataStartProg (failed : Bool) : Prog :=
  .enter <| .read .dataState fun word =>
    if dataStartError word = NdmpError.noErr
    then .write .dataState NdmpDataState.active <| endTransferProg failed
    else endTransferProg failed

/-- The program of a request's handler, or `none` where the handler looks up no session. `failed`
says whether a command of a transfer fails. -/
def NdmpRequest.prog (locals : Locals) (failed : Bool) : NdmpRequest → Option Prog
  | .connectOpen request => some (connectOpenProg request locals)
  | .connectClose => some connectCloseProg
  | .dataStartBackup _ | .dataStartRecover _ => some (dataStartProg failed)
  | .dataAbort => some dataAbortProg
  | .dataGetEnv => some dataGetEnvProg
  | .dataStop => some dataStopProg
  | .dataListen request => some (openDataConnectionProg request.addrType .listen)
  | .dataConnect request => some (openDataConnectionProg request.addrType .connected)
  | .acceptNotify | .config _ | .dataGetState | .errorMessage => none

/-! ## The programs do what the handlers do -/

theorem openDataConnectionProg_run (addrType : Int) (state : NdmpDataState) (s : SessionInfo) :
    (openDataConnectionProg addrType state).run s = (openDataConnection addrType state s).1 := by
  change Prog.run (if addrError addrType s.dataState = NdmpError.noErr then _ else _) _ =
    SessionInfo.exitCriticalSection
      (if addrError addrType s.dataState = NdmpError.noErr then _ else _)
  by_cases h : addrError addrType s.dataState = NdmpError.noErr
  · rw [if_pos h, if_pos h]
    rfl
  · rw [if_neg h, if_neg h]
    rfl

theorem connectOpenProg_run (request : NdmpConnectOpenRequest) (locals : Locals)
    (s : SessionInfo) : (connectOpenProg request locals).run s =
      (ndmpConnectOpen request locals s).1 := by
  change Prog.run (if connectOpenError request locals s.connectionState = NdmpError.noErr
      then _ else _) _ = SessionInfo.exitCriticalSection
    (if connectOpenError request locals s.connectionState = NdmpError.noErr then _ else _)
  by_cases h : connectOpenError request locals s.connectionState = NdmpError.noErr
  · rw [if_pos h, if_pos h]
    rfl
  · rw [if_neg h, if_neg h]
    rfl

theorem dataAbortProg_run (s : SessionInfo) : dataAbortProg.run s = (ndmpDataAbort s).1 := by
  change Prog.run (if s.dataState = NdmpDataState.halted then _ else _) _ =
    SessionInfo.exitCriticalSection
      (if dataAbortError s.dataState = NdmpError.noErr then _ else _)
  by_cases hhalted : s.dataState = NdmpDataState.halted
  · rw [if_pos hhalted, if_neg (by rw [dataAbortError, if_pos (Or.inl hhalted)]; decide)]
    rfl
  · rw [if_neg hhalted]
    change Prog.run (if s.dataState = NdmpDataState.idle then _ else _) _ = _
    by_cases hidle : s.dataState = NdmpDataState.idle
    · rw [if_pos hidle, if_neg (by rw [dataAbortError, if_pos (Or.inr hidle)]; decide)]
      rfl
    · have herror : dataAbortError s.dataState = NdmpError.noErr :=
        if_neg (not_or.2 ⟨hhalted, hidle⟩)
      rw [if_neg hidle, if_pos herror]
      rfl

theorem dataStopProg_run (s : SessionInfo) : dataStopProg.run s = (ndmpDataStop s).1 := by
  change Prog.run (if dataStopError s.dataState = NdmpError.noErr then _ else _) _ =
    SessionInfo.exitCriticalSection
      (if dataStopError s.dataState = NdmpError.noErr then _ else _)
  by_cases h : dataStopError s.dataState = NdmpError.noErr
  · rw [if_pos h, if_pos h]
    rfl
  · rw [if_neg h, if_neg h]
    rfl

theorem dataGetEnvProg_run (s : SessionInfo) :
    dataGetEnvProg.run s = s.enterCriticalSection.exitCriticalSection := by
  change Prog.run (if s.dataState ≠ NdmpDataState.active then _ else _) _ = _
  by_cases h : s.dataState ≠ NdmpDataState.active
  · rw [if_pos h]
    rfl
  · rw [if_neg h]
    rfl

theorem endTransferProg_run (failed : Bool) (s : SessionInfo) :
    (endTransferProg failed).run s =
      { s with dataState := NdmpDataState.halted }.exitCriticalSection := by
  cases failed <;> rfl

theorem dataStartProg_run (failed : Bool) (s : SessionInfo) :
    (dataStartProg failed).run s = endTransfer s := by
  change Prog.run (if dataStartError s.dataState = NdmpError.noErr then _ else _) _ = _
  by_cases h : dataStartError s.dataState = NdmpError.noErr
  · have hactivate : activate s.enterCriticalSection =
        { s.enterCriticalSection with dataState := NdmpDataState.active } := if_pos h
    rw [if_pos h, Prog.run, endTransferProg_run, endTransfer, hactivate]
    rfl
  · have hactivate : activate s.enterCriticalSection = s.enterCriticalSection := if_neg h
    rw [if_neg h, endTransferProg_run, endTransfer, hactivate]

/-- **A handler that is not disturbed does what `sessionEffect` says.** -/
theorem prog_run {request : NdmpRequest} {locals : Locals} {failed : Bool} {prog : Prog}
    (h : request.prog locals failed = some prog) (s : SessionInfo) :
    prog.run s = sessionEffect request locals s := by
  cases request with
  | connectOpen request =>
    cases h
    exact connectOpenProg_run request locals s
  | connectClose =>
    cases h
    rfl
  | dataStartBackup request | dataStartRecover request =>
    cases h
    exact dataStartProg_run failed s
  | dataAbort =>
    cases h
    exact dataAbortProg_run s
  | dataGetEnv =>
    cases h
    exact dataGetEnvProg_run s
  | dataStop =>
    cases h
    exact dataStopProg_run s
  | dataListen request | dataConnect request =>
    cases h
    exact openDataConnectionProg_run _ _ s
  | acceptNotify | config | dataGetState | errorMessage => cases h

/-- A handler that looks up no session has no effect on one. -/
theorem sessionEffect_of_no_prog {request : NdmpRequest} {locals : Locals} {failed : Bool}
    (h : request.prog locals failed = none) (s : SessionInfo) :
    sessionEffect request locals s = s := by
  cases request with
  | acceptNotify | config | dataGetState | errorMessage => rfl
  | _ => cases h

end GlfsNdmp
