import BackupSteward.Repository.Streaming
import BackupSteward.Retention.Select
import BackupSteward.Snapshot.Directory
import BackupSteward.Snapshot.Listing
import BackupSteward.Snapshot.Statistics

/-!
# Listing and maintaining a repository

Operations that return what the engine printed, decoded, and operations that change the
repository as a whole.  What to forget is decided here and not by the engine: it is told the
snapshots to remove one by one.
-/

namespace BackupSteward.Repository

open BackupSteward.Engine

/-- Runs a subcommand and gives its output lines. -/
def collect (r : Repository) (subcommand : String) (arguments : List Value)
    (deadline : Value) : Act (List String) := do
  return (← Act.call (r.call subcommand arguments deadline) Handler.collecting []).reverse

/-- Runs a subcommand whose lines are forwarded.  What was written for the caller remains when
the engine fails. -/
def forwardOutput (r : Repository) (subcommand : String) (arguments : List Value)
    (takesOutput : Bool) (deadline : Value) : Act Unit := do
  let (outcome, written, s) :=
    (r.call subcommand arguments deadline).run (Handler.forwarding takesOutput) "" (← get)
  set (s.write written)
  match outcome with
  | .ok () => return ()
  | .error failure => throw failure

/-- Creates the storage of the repository. -/
def init (r : Repository) (deadline : Value) : Act Unit := do
  Act.call (r.call "init" [] deadline) Handler.silent ()
  Act.note (.repositoryInitialized r.label)

/-- Lists the snapshots that some options ask for. -/
def snapshots (r : Repository) (options : List Step) (deadline : Value) :
    Act (List Snapshot) := do
  let arguments ← Options.queryFromSteps options
  let lines ← r.collect "snapshots" (.str "--json" :: arguments) deadline
  let found ← Snapshot.decodeList lines
  Act.note (.snapshotsListed r.label found.length)
  return found

/-- Lists a directory of a snapshot. -/
def listDirectory (r : Repository) (snapshotId path : String) (deadline : Value) :
    Act Directory := do
  requireSnapshotId snapshotId
  let lines ← r.collect "ls" [.str "--json", .str snapshotId, .str path] deadline
  let directory ← Directory.decode lines
  Act.note (.directoryListed r.label directory.snapshot.id path directory.entries.length)
  return directory

/-- Removes data that nothing refers to. -/
def prune (r : Repository) (takesOutput : Bool) (deadline : Value) : Act Unit := do
  r.forwardOutput "prune" [] takesOutput deadline
  Act.note (.repositoryPruned r.label)

/-- Applies a policy to the snapshots that some options ask for, and prunes.  When nothing is
to be removed, pruning is all that is done. -/
def forget (r : Repository) (policy : Policy) (takesOutput : Bool) (options : List Step)
    (deadline : Value) : Act Retention := do
  let found ← r.snapshots options deadline
  let retention ← orFail (Retention.select policy found)
  Act.note (.retentionComputed r.label retention.keep.length retention.remove.length)
  if retention.remove.isEmpty then
    if takesOutput then Act.write "no snapshots to remove\n"
    r.prune takesOutput deadline
  else
    let removed := retention.removeIds
    r.forwardOutput "forget" (.str "--prune" :: removed.map .str) takesOutput deadline
    Act.note (.snapshotsForgotten r.label removed)
  return retention

/-- Removes stale locks, or all locks if that is asked for by any value that counts as given. -/
def unlock (r : Repository) (removeAll deadline : Value) : Act Unit := do
  let arguments := if removeAll.truthy then [Value.str "--remove-all"] else []
  Act.call (r.call "unlock" arguments deadline) Handler.silent ()
  Act.note (.repositoryUnlocked r.label removeAll)

/-- What the engine counts unless it is told otherwise: the size of all files when restored. -/
def defaultStatisticsMode : String := "restore-size"

/-- The statistics of the repository. -/
def statistics (r : Repository) (mode : String) (deadline : Value) :
    Act Statistics := do
  let lines ← r.collect "stats" [.str "--json", .str "--mode", .str mode] deadline
  Statistics.decode lines

end BackupSteward.Repository
