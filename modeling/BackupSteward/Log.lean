import BackupSteward.Engine.Pipe
import BackupSteward.Value

/-!
# The log

Everything the library tells its log, as data, and the record that each notice becomes.
-/

namespace BackupSteward

/-- How important a notice is. -/
inductive Level where
  | debug
  | info
  | warning
  | error
  deriving DecidableEq, Repr

/-- The name of a level. -/
def Level.name : Level → String
  | debug => "debug"
  | info => "info"
  | warning => "warning"
  | error => "error"

/-- A log record: a level, the name of what happened, and named values. -/
structure Record where
  level : Level
  name : String
  fields : Fields

/-- What the library tells its log.  Notices about a repository carry its label, notices about
an engine process its operation. -/
inductive Notice where
  /-- An engine process has been started. -/
  | started (operation : Value) (command : List String)
  /-- An engine process cannot be started. -/
  | startFailed (operation : Value) (command : List String) (error : String)
  /-- A line beyond the limit was dropped. -/
  | lineTooLong (pipe : Pipe) (limit : Nat)
  /-- A pipe failed. -/
  | pipeFailed (pipe : Pipe) (error : String)
  /-- The engine did not end before its deadline. -/
  | deadlineExceeded (operation : Value) (limit : Value)
  /-- The caller gave up. -/
  | cancelled (operation : Value)
  /-- A stopped engine did not end and was killed. -/
  | killed
  /-- The engine ended. -/
  | exited (operation : Value) (exitCode : Int)
  /-- The engine reports that an item failed. -/
  | itemError (operation during item error : String)
  /-- A summary after the first one was dropped. -/
  | duplicateSummary (operation : String)
  /-- The caller's sink failed on an event. -/
  | sinkFailed (eventType error : String)
  /-- A line of plain output that nobody else takes. -/
  | output (pipe : Pipe) (line : String)
  | repositoryInitialized (repo : Value)
  | backupStarted (repo : Value) (arguments : List Value)
  | backupCompleted (repo : Value) (snapshotId : String) (files bytes : Int) (errors : Nat)
      (duration : Double)
  | snapshotsListed (repo : Value) (count : Nat)
  | directoryListed (repo : Value) (snapshotId path : String) (entries : Nat)
  | retentionComputed (repo : Value) (keep remove : Nat)
  | repositoryPruned (repo : Value)
  | snapshotsForgotten (repo : Value) (removed : List String)
  | repositoryUnlocked (repo removeAll : Value)
  | restoreStarted (repo : Value) (snapshotId target : String)
  | restoreCompleted (repo : Value) (snapshotId : String) (files bytes : Int) (errors : Nat)
  /-- The routine found the repository locked. -/
  | routineLocked
  /-- The routine's backup failed. -/
  | routineFailed (error : String)
  /-- The routine's backup is done. -/
  | routineDone (snapshotId : String) (files added : Int)
  /-- The routine has no policy to apply. -/
  | routineSkipsRetention
  /-- The routine applied its policy. -/
  | routineRetained (kept removed : Nat)

namespace Notice

/-- The record of a notice. -/
def record : Notice → Record
  | started operation command =>
    ⟨.debug, "engine_started", [("operation", operation), ("command", Value.texts command)]⟩
  | startFailed operation command error =>
    ⟨.error, "engine_start_failed",
      [("operation", operation), ("command", Value.texts command), ("error", .str error)]⟩
  | lineTooLong pipe limit =>
    ⟨.warning, "engine_line_too_long", [("stream", .str pipe.name), ("limit", .int limit)]⟩
  | pipeFailed pipe error =>
    ⟨.warning, "engine_stream_error", [("stream", .str pipe.name), ("error", .str error)]⟩
  | deadlineExceeded operation limit =>
    ⟨.warning, "engine_deadline_exceeded", [("operation", operation), ("timeout", limit)]⟩
  | cancelled operation => ⟨.warning, "engine_cancelled", [("operation", operation)]⟩
  | killed => ⟨.warning, "engine_kill", []⟩
  | exited operation exitCode =>
    ⟨.debug, "engine_exited", [("operation", operation), ("exit_code", .int exitCode)]⟩
  | itemError operation during item error =>
    ⟨.warning, "engine_item_error",
      [("operation", .str operation), ("during", .str during), ("item", .str item),
        ("error", .str error)]⟩
  | duplicateSummary operation =>
    ⟨.warning, "duplicate_summary_ignored", [("operation", .str operation)]⟩
  | sinkFailed eventType error =>
    ⟨.warning, "progress_sink_failed",
      [("event_type", .str eventType), ("error", .str error)]⟩
  | output pipe line =>
    ⟨.debug, "engine_output", [("stream", .str pipe.name), ("line", .str line)]⟩
  | repositoryInitialized repo => ⟨.info, "repository_initialized", [("repo", repo)]⟩
  | backupStarted repo arguments =>
    ⟨.info, "backup_started", [("repo", repo), ("args", .list arguments)]⟩
  | backupCompleted repo snapshotId files bytes errors duration =>
    ⟨.info, "backup_completed",
      [("repo", repo), ("snapshot_id", .str snapshotId), ("files", .int files),
        ("bytes", .int bytes), ("errors", .int errors), ("duration", .double duration)]⟩
  | snapshotsListed repo count =>
    ⟨.debug, "snapshots_listed", [("repo", repo), ("count", .int count)]⟩
  | directoryListed repo snapshotId path entries =>
    ⟨.debug, "directory_listed",
      [("repo", repo), ("snapshot_id", .str snapshotId), ("path", .str path),
        ("entries", .int entries)]⟩
  | retentionComputed repo keep remove =>
    ⟨.info, "retention_computed",
      [("repo", repo), ("keep", .int keep), ("remove", .int remove)]⟩
  | repositoryPruned repo => ⟨.info, "repository_pruned", [("repo", repo)]⟩
  | snapshotsForgotten repo removed =>
    ⟨.info, "snapshots_forgotten", [("repo", repo), ("removed", Value.texts removed)]⟩
  | repositoryUnlocked repo removeAll =>
    ⟨.info, "repository_unlocked", [("repo", repo), ("remove_all", removeAll)]⟩
  | restoreStarted repo snapshotId target =>
    ⟨.info, "restore_started",
      [("repo", repo), ("snapshot_id", .str snapshotId), ("target", .str target)]⟩
  | restoreCompleted repo snapshotId files bytes errors =>
    ⟨.info, "restore_completed",
      [("repo", repo), ("snapshot_id", .str snapshotId), ("files", .int files),
        ("bytes", .int bytes), ("errors", .int errors)]⟩
  | routineLocked =>
    ⟨.warning, "repository_locked",
      [("hint", .str "run \x60restic unlock\x60 if no other backup is running")]⟩
  | routineFailed error => ⟨.error, "backup_failed", [("error", .str error)]⟩
  | routineDone snapshotId files added =>
    ⟨.info, "backup_done",
      [("snapshot_id", .str snapshotId), ("files", .int files), ("added", .int added)]⟩
  | routineSkipsRetention =>
    ⟨.info, "retention_skipped", [("reason", .str "no RESTICORCH_KEEP_* variables set")]⟩
  | routineRetained kept removed =>
    ⟨.info, "retention_applied", [("kept", .int kept), ("removed", .int removed)]⟩

end Notice

end BackupSteward
