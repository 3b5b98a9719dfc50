import GlfsNdmp.SessionRun

/-!
# The commands of a run

Backups mount, make directories and copy; recoveries copy. What has been run so far, with its
status, is a log, to which every request adds what its handler runs.
-/

namespace GlfsNdmp

/-- The target of a backup request, as the handler works it out. -/
def targetOf (e : ServerEvent) (request : NdmpDataStartBackupRequest) : BackupTarget :=
  backupTarget request.env e.input.client e.input.locals e.input.answers e.before.world

/-- The mounts a request runs, with their status. -/
def mountsOf (e : ServerEvent) : List (CString × Int) :=
  match e.input.request with
  | .dataStartBackup request =>
    remounts e.input.locals.initScan e.input.answers.remount e.before.world ++
      (targetOf e request).mounts e.input.answers
  | _ => []

/-- The commands a request runs, with their status. -/
def commandsOf (e : ServerEvent) : List (CString × Int) :=
  match e.input.request with
  | .dataStartBackup request =>
    mountsOf e ++
      if mountFailed (targetOf e request).isItNew e.input.answers then []
      else (targetOf e request).copy e.input.client e.input.answers
  | .dataStartRecover request =>
    [(recoverInstr request e.input.client e.input.locals e.before.world, e.input.answers.rsync)]
  | _ => []

theorem xdrDecodeEncode_commands (srv : Server) (txn : ClientTxn) :
    (xdrDecodeEncode srv txn).1.world.commands =
      srv.world.commands ++ commandsOf (eventOf srv txn) := by
  rw [xdrDecodeEncode_world]
  unfold worldEffect commandsOf mountsOf
  simp only [eventOf_input]
  cases txn.request with
  | dataStartBackup request =>
    simp only [runBackup_commands, List.append_assoc]
    rfl
  | dataStartRecover request => rfl
  | _ => exact (List.append_nil _).symm

/-- The log after a run that started with none. -/
theorem commands_final (file : CString) (txns : List ClientTxn) :
    (Mealy.final xdrDecodeEncode (Server.start (World.boot file)) txns).world.commands =
      (Mealy.trace xdrDecodeEncode (Server.start (World.boot file)) txns).flatMap commandsOf :=
  Mealy.final_eq_flatMap xdrDecodeEncode (fun srv => srv.world.commands)
    xdrDecodeEncode_commands _ _

end GlfsNdmp
