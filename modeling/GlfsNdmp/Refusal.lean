import GlfsNdmp.SessionRun

/-!
# What a refused request leaves behind

Seven handlers check the state of the session or an argument first. Five of them do nothing once
the check has chosen an error. `ndmp_data_start_backup` and `ndmp_data_start_recover` only record
the error: the commands run, the file and the environment are written and the record is halted as
if the check had passed. `refused_unchanged_iff` separates the two kinds.
-/

namespace GlfsNdmp

/-- The handler's check sets `NDMP_ILLEGAL_STATE_ERR` or `NDMP_ILLEGAL_ARGS_ERR`. -/
def Refused (srv : Server) (txn : ClientTxn) : Prop :=
  checkError txn.request txn.locals (srv.session txn.sessionId) =
      some (NdmpError.illegalStateErr : Int) ∨
    checkError txn.request txn.locals (srv.session txn.sessionId) =
      some (NdmpError.illegalArgsErr : Int)

/-- The handler leaves the states, the environment and the file as they are and runs nothing. -/
structure Unchanged (srv : Server) (txn : ClientTxn) : Prop where
  connectionState : ((srv.dispatch txn).1.session txn.sessionId).connectionState =
    (srv.session txn.sessionId).connectionState
  dataState : ((srv.dispatch txn).1.session txn.sessionId).dataState =
    (srv.session txn.sessionId).dataState
  moverState : ((srv.dispatch txn).1.session txn.sessionId).moverState =
    (srv.session txn.sessionId).moverState
  environment : (srv.dispatch txn).1.environment = srv.environment
  glusterVolUsage : (srv.dispatch txn).1.world.glusterVolUsage = srv.world.glusterVolUsage
  commands : (srv.dispatch txn).1.world.commands = srv.world.commands

/-! ## Transfers always run a command -/

theorem runBackup_commands_lt (env : List NdmpPval) (client : CString) (locals : Locals)
    (answers : Answers) (w : World) :
    w.commands.length < (runBackup env client locals answers w).1.commands.length := by
  rw [runBackup_commands]
  set target := backupTarget env client locals answers w
  cases hnew : target.isItNew with
  | false =>
    simp only [mountFailed, Bool.false_and, Bool.false_eq_true, if_false, BackupTarget.copy,
      List.length_append, List.length_cons]
    omega
  | true =>
    simp only [BackupTarget.mounts, hnew, if_true, List.length_append, List.length_cons]
    omega

theorem runRecover_commands_lt (request : NdmpDataStartRecoverRequest) (client : CString)
    (locals : Locals) (answers : Answers) (w : World) :
    w.commands.length < (runRecover request client locals answers w).1.commands.length := by
  rw [runRecover, World.system_commands, List.length_append, List.length_singleton]
  omega

/-- Whatever the session's state and whatever the commands return, a transfer runs one. -/
theorem worldEffect_commands_lt {txn : ClientTxn} (h : txn.request.isStart) (w : World) :
    w.commands.length < (worldEffect txn w).commands.length := by
  unfold worldEffect
  revert h
  cases txn.request with
  | dataStartBackup request => exact fun _ => runBackup_commands_lt _ _ _ _ _
  | dataStartRecover request => exact fun _ => runRecover_commands_lt _ _ _ _ _
  | _ => rintro ⟨⟩

theorem worldEffect_of_not_start {txn : ClientTxn} (h : txn.request.isStart = false)
    (w : World) : worldEffect txn w = w := by
  unfold worldEffect
  revert h
  cases txn.request with
  | dataStartBackup | dataStartRecover => rintro ⟨⟩
  | _ => exact fun _ => rfl

/-! ## The other handlers stop at their check -/

theorem refused_error_ne {srv : Server} {txn : ClientTxn} (h : Refused srv txn) {error : Int}
    (hcheck : checkError txn.request txn.locals (srv.session txn.sessionId) = some error) :
    error ≠ NdmpError.noErr := by
  rcases h with h | h <;> rw [hcheck, Option.some.injEq] at h <;> subst h <;> decide

/-- A handler other than the transfers, refused, returns the record it was given but for the lock. -/
theorem sessionEffect_of_refused {srv : Server} {txn : ClientTxn} (h : Refused srv txn)
    (hstart : txn.request.isStart = false) :
    sessionEffect txn.request txn.locals (srv.session txn.sessionId) =
      (srv.session txn.sessionId).enterCriticalSection.exitCriticalSection := by
  have herr := @refused_error_ne srv txn h
  unfold Refused at h
  revert h hstart herr
  cases txn.request with
  | connectOpen request =>
    intro _ _ herr
    exact congrArg SessionInfo.exitCriticalSection (if_neg (herr rfl))
  | dataListen request | dataConnect request =>
    intro _ _ herr
    exact congrArg SessionInfo.exitCriticalSection (if_neg (herr rfl))
  | dataAbort =>
    intro _ _ herr
    exact congrArg SessionInfo.exitCriticalSection (if_neg (herr rfl))
  | dataStop =>
    intro _ _ herr
    exact congrArg SessionInfo.exitCriticalSection (if_neg (herr rfl))
  | dataStartBackup | dataStartRecover => rintro _ ⟨⟩
  | _ => rintro (h | h) <;> cases h

/-- Outside the transfers, only an accepted `DATA_STOP` writes the environment. -/
theorem environmentEffect_of_refused {srv : Server} {txn : ClientTxn} (h : Refused srv txn)
    (hstart : txn.request.isStart = false) (env : List NdmpPval) :
    environmentEffect txn.request (srv.session txn.sessionId) env = env := by
  have herr := @refused_error_ne srv txn h
  revert hstart herr
  cases txn.request with
  | dataStop => exact fun _ herr => if_neg (herr rfl)
  | dataStartBackup => rintro ⟨⟩
  | _ => exact fun _ _ => rfl

/-- **Refused requests and transfers.** In every state of the server, a request that its handler's
check refuses leaves the states, the environment, the file and the command log as they are, if and
only if it is not a transfer on a session that is not connected. -/
theorem refused_unchanged_iff (srv : Server) (txn : ClientTxn) :
    (Refused srv txn → Unchanged srv txn) ↔
      ¬ (txn.request.isStart ∧
        (srv.session txn.sessionId).dataState ≠ NdmpDataState.connected) := by
  constructor
  · rintro hprop ⟨hstart, hstate⟩
    have hrefused : Refused srv txn := by
      left
      revert hstart
      cases txn.request with
      | dataStartBackup | dataStartRecover => exact fun _ => congrArg some (if_pos hstate)
      | _ => rintro ⟨⟩
    have hlog := (hprop hrefused).commands
    rw [Server.dispatch_world] at hlog
    have hlt := worldEffect_commands_lt hstart srv.world
    rw [hlog] at hlt
    exact Nat.lt_irrefl _ hlt
  · intro hcond h
    have hstart : txn.request.isStart = false := by
      by_contra hs
      have hs : txn.request.isStart = true := by simpa using hs
      have hconn : (srv.session txn.sessionId).dataState = NdmpDataState.connected :=
        not_not.1 fun hne => hcond ⟨hs, hne⟩
      -- On a connected session the check of a transfer passes.
      have herr := @refused_error_ne srv txn h
      revert hs herr
      cases txn.request with
      | dataStartBackup | dataStartRecover =>
        exact fun _ herr => herr rfl (if_neg (not_not.2 hconn))
      | _ => rintro ⟨⟩
    have hworld : (srv.dispatch txn).1.world = srv.world := by
      rw [Server.dispatch_world, worldEffect_of_not_start hstart]
    have hrecord : (srv.dispatch txn).1.session txn.sessionId =
        (srv.session txn.sessionId).enterCriticalSection.exitCriticalSection := by
      rw [Server.dispatch_session, sessionEffect_of_refused h hstart]
    exact {
      connectionState := by rw [hrecord]; rfl
      dataState := by rw [hrecord]; rfl
      moverState := by rw [hrecord]; rfl
      environment := by rw [Server.dispatch_environment, environmentEffect_of_refused h hstart]
      glusterVolUsage := by rw [hworld]
      commands := by rw [hworld] }

/-- A backup asked for on a fresh session is refused, and yet the copy runs. -/
theorem not_unchanged_refused_backup :
    let srv := Server.start (World.boot "10.0.0.1 /bu\nvol 10.0.0.2/home bob\n".toList)
    let txn := ClientTxn.receive 0 4 "10.0.0.2".toList (.dataStartBackup ⟨"dump".toList,
      [⟨"FILESYSTEM".toList, "/home".toList⟩, ⟨"USER".toList, "bob".toList⟩]⟩) default
    Refused srv txn ∧ ¬ Unchanged srv txn := by
  refine ⟨Or.inl rfl, fun h => ?_⟩
  exact absurd h.commands (by decide)

end GlfsNdmp
