import BackupSteward.Repository.Environment
import BackupSteward.Repository.Maintenance

/-!
# The backup routine

A complete run as it is scheduled every night: back up some paths of the repository that the
environment describes, print the snapshots made so, and apply the policy of the environment to
them.
-/

namespace BackupSteward.Routine

open BackupSteward.Engine

/-- The tag of the snapshots the routine makes. -/
def tag : Value := .str "example"

/-- The options of the routine's backup. -/
def backupOptions (paths : List Value) : List Step :=
  [Step.backupPaths paths, Step.backupExcludes [.str "*.tmp", .str ".cache"],
    Step.backupTags [tag]]

/-- The options of the routine's listings. -/
def queryOptions : List Step := [Step.queryTags [tag]]

/-- How an event is printed: progress on one line that is written over, anything else on a line
of its own. -/
def eventText : BackupEvent → String
  | .progress p =>
    "\r" ++ p.percentDone.percent ++ "  " ++ toString p.filesDone ++ "/" ++
      toString p.totalFiles ++ " files"
  | .itemError e => "\nerror: " ++ e.item ++ ": " ++ e.message ++ "\n"
  | .summary s => "\nsnapshot " ++ String.ofList (s.snapshotId.toList.take 8) ++ " saved\n"

/-- How a snapshot is printed. -/
def snapshotText (s : Snapshot) : String :=
  s.shortId ++ "  " ++ s.time.text ++ "  " ++ String.intercalate ", " s.paths ++ "\n"

/-- Backs up some paths and prints the events. -/
def backup (r : Repository) (paths : Value) : StateM Session (Except Failure BackupSummary) := do
  match paths.items with
  | .error f => return .error (.fault f)
  | .ok paths =>
    let streamed :=
      r.backup (some ⟨false, fun _ => none⟩) (backupOptions paths) false .null (← get)
    set (streamed.session.write (String.join (streamed.delivered.map eventText)))
    return streamed.outcome

/-- Prints the snapshots of the routine and applies the policy to them. -/
def maintain (r : Repository) (policy : Policy) : Act Unit := do
  let found ← r.snapshots queryOptions .null
  Act.write (String.join (found.map snapshotText))
  if policy.isEmpty then Act.note .routineSkipsRetention
  else
    let retention ← r.forget policy true queryOptions .null
    Act.note (.routineRetained retention.keep.length retention.remove.length)

/-- What the routine makes of a failed backup: an exit status for the failures of the library,
and the failure itself when the caller gave up or a value was misused. -/
def backupFailed (failure : Failure) : Act Int :=
  match failure.report? with
  | none => throw failure
  | some report =>
    match report.kind with
    | .callerCancelled => throw failure
    | .repositoryLocked => do
      Act.note .routineLocked
      return 2
    | _ => do
      Act.note (.routineFailed report.text)
      return 1

/-- Runs the routine in an environment.  The result is the exit status: zero for success, one
if the backup failed, and two if the repository was locked. -/
def run (env : Environment) (paths : Value) : Act Int := do
  let description ← env.description
  let repository ← orFail (Repository.ofDescription description)
  let policy ← env.policy
  match ← liftM (backup repository paths) with
  | .error failure => backupFailed failure
  | .ok summary =>
    Act.note (.routineDone summary.snapshotId summary.totalFilesProcessed summary.dataAdded)
    maintain repository policy
    return 0

end BackupSteward.Routine
