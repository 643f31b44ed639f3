import BackupSteward.Failure.Report
import BackupSteward.Failure.Wording

/-!
# Failures

The causes for which an operation fails, and the report of each.
-/

namespace BackupSteward

/-- An error of the operating system. -/
structure SystemError where
  number : Int
  reason : String
  /-- The file it is about, if any. -/
  file : Option String
  deriving DecidableEq, Repr

/-- A system error in words. -/
def SystemError.text (e : SystemError) : String :=
  "[Errno " ++ toString e.number ++ "] " ++ e.reason ++
    (match e.file with
    | some f => ": " ++ Text.quoted f
    | none => "")

/-- What keeps a repository description from being valid. -/
inductive DescriptionProblem where
  | emptyLocation
  | emptyPassword
  | emptyBinary
  | badFlags (flags : List Value)
  | badVariables

/-- A problem of a repository description in words. -/
def DescriptionProblem.text : DescriptionProblem → String
  | emptyLocation => "uri must not be empty"
  | emptyPassword => "password must not be empty"
  | emptyBinary => "binary must not be empty"
  | badFlags flags => Wording.invalidFlags flags
  | badVariables => "env must map non-empty names to string values"

/-- What keeps a retention policy from being valid. -/
inductive PolicyProblem where
  /-- A rule's count is no whole number from -1 on. -/
  | badCount (rule : String) (given : Value)
  /-- The duration to keep everything within is negative. -/
  | negativeWithin (given : Duration)

/-- A problem of a retention policy in words. -/
def PolicyProblem.text : PolicyProblem → String
  | badCount rule given => "keep_" ++ rule ++ " must be an integer >= -1, got " ++ given.repr
  | negativeWithin given => "keep_within must not be negative, got " ++ given.text

/-- Why an operation failed. -/
inductive Failure where
  | noBackupPaths
  | missingRestoreTarget
  | missingSnapshotId
  | missingRepository
  | missingPassword
  | unreadablePasswordFile (path reason : String)
  | invalidKeepVariable (name : String) (value : String)
  | invalidDescription (problems : List DescriptionProblem)
  | invalidPolicy (problems : List PolicyProblem)
  /-- The engine cannot be started. -/
  | notStarted (command : List String) (error : SystemError)
  /-- The engine ended with a non-zero status; `lines` are its last diagnostic lines, and `last` is
  the very last one. -/
  | engineFailed (operation : String) (exitCode lines : Value) (last invocation : String)
  /-- The engine ended with a non-zero status because the repository is locked. -/
  | repositoryLocked (operation : String) (exitCode lines : Value) (invocation : String)
  | missingSummary (operation : String) (eventsSeen : Nat)
  | snapshotWithoutId (data : Fields)
  | snapshotWithoutTime (id : String) (given : Value)
  | noSnapshotList (lines : Nat)
  | noListingHeader (lines entries : Nat)
  | noStatistics (lines : Nat)
  /-- The engine ran longer than it may. -/
  | deadlineExceeded (operation limit : String) (command : List String) (invocation : String)
  /-- The caller gave the operation up. -/
  | callerCancelled (operation : String) (command : List String) (invocation : String)
  /-- The operation was given up a second time, while its engine was being stopped. -/
  | interrupted
  /-- The engine neither ends nor is stopped, so that the operation does not end either. -/
  | unending
  /-- A handler of output lines failed. -/
  | handlerFailed (reason : String)
  /-- A value was misused. -/
  | fault (f : Fault)

namespace Failure

/-- The details of a failure of the engine. -/
def engineDetails (exitCode lines : Value) (invocation : String) : Value :=
  .record [("exit_code", exitCode), ("stderr", lines), ("invocation_id", .str invocation)]

/-- The report of a failure.  Faults, interruptions and failures of a handler are passed on as
they are and have none. -/
def report? : Failure → Option Report
  | noBackupPaths => some ⟨.configuration, Wording.noBackupPaths, .record []⟩
  | missingRestoreTarget => some ⟨.configuration, Wording.missingRestoreTarget, .record []⟩
  | missingSnapshotId => some ⟨.configuration, Wording.missingSnapshotId, .record []⟩
  | missingRepository => some ⟨.configuration, Wording.missingRepository, .record []⟩
  | missingPassword => some ⟨.configuration, Wording.missingPassword, .record []⟩
  | unreadablePasswordFile path reason =>
    some ⟨.configuration, Wording.unreadablePasswordFile (.str path) reason, .record []⟩
  | invalidKeepVariable name value =>
    some ⟨.configuration, Wording.invalidKeepVariable name (.str value), .record []⟩
  | invalidDescription problems =>
    some ⟨.configuration, "Repository configuration validation failed",
      .record [("errors", Value.texts (problems.map DescriptionProblem.text))]⟩
  | invalidPolicy problems =>
    some ⟨.configuration, "Retention policy validation failed",
      .record [("errors", Value.texts (problems.map PolicyProblem.text))]⟩
  | notStarted command error =>
    some ⟨.processStart, Wording.missingExecutable (.str (command.headD "")),
      .record [("command", Value.texts command), ("error", .str error.text)]⟩
  | engineFailed operation exitCode lines last invocation =>
    some ⟨.engine, "restic " ++ operation ++ " failed with exit code " ++ exitCode.text ++
        ": " ++ last,
      engineDetails exitCode lines invocation⟩
  | repositoryLocked operation exitCode lines invocation =>
    some ⟨.repositoryLocked, "restic " ++ operation ++ ": repository is locked",
      engineDetails exitCode lines invocation⟩
  | missingSummary operation eventsSeen =>
    some ⟨.missingSummary, Wording.missingSummary operation,
      .record [("events_seen", .int eventsSeen)]⟩
  | snapshotWithoutId data =>
    some ⟨.invalidSnapshot, "Snapshot without id in engine output",
      .record [("snapshot", .record data)]⟩
  | snapshotWithoutTime id given =>
    some ⟨.invalidSnapshot,
      "Snapshot " ++ id ++ " has an invalid timestamp: " ++ given.repr,
      .record [("snapshot_id", .str id), ("time", given)]⟩
  | noSnapshotList lines =>
    some ⟨.parseIntegrity, "restic snapshots produced no JSON snapshot list",
      .record [("lines", .int lines)]⟩
  | noListingHeader lines entries =>
    some ⟨.parseIntegrity, "restic ls produced no snapshot header",
      .record [("lines", .int lines), ("entries", .int entries)]⟩
  | noStatistics lines =>
    some ⟨.parseIntegrity, "restic stats produced no JSON output",
      .record [("lines", .int lines)]⟩
  | deadlineExceeded operation limit command invocation =>
    some ⟨.operationCancelled, Wording.deadlineExceeded operation limit,
      .record [("command", Value.texts command), ("invocation_id", .str invocation)]⟩
  | callerCancelled operation command invocation =>
    some ⟨.callerCancelled, "restic " ++ operation ++ " was cancelled by the caller",
      .record [("command", Value.texts command), ("invocation_id", .str invocation)]⟩
  | interrupted | unending | handlerFailed _ | fault _ => none

end Failure

/-- Raises a fault as a failure. -/
def orFail {α : Type} : Except Fault α → Except Failure α
  | .ok a => .ok a
  | .error f => .error (.fault f)

end BackupSteward
