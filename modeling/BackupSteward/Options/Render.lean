import BackupSteward.Failure.Basic
import BackupSteward.Options.Step

/-!
# Rendering options

The argument vector of an operation from the complete record of its arguments.  Values are
passed on as they are; they become texts when a process is started.
-/

namespace BackupSteward.Options

/-- A flag in front of each item of a list field. -/
def flagged (fields : Fields) (name flag : String) : Except Fault (List Value) :=
  (Step.listIn fields name).map fun xs => xs.flatMap fun x => [.str flag, x]

/-- A flag and the value of a field, if that is given. -/
def flaggedIfGiven (fields : Fields) (name flag : String) : List Value :=
  match fields.get? name with
  | some v => if v.truthy then [.str flag, v] else []
  | none => []

/-- The arguments of a backup: its flags, and behind them the paths. -/
def backupArguments (fields : Fields) : Except Failure (List Value) := do
  if !Value.given (fields.get? "paths") then throw .noBackupPaths
  let excludes ← orFail (flagged fields "excludes" "--exclude")
  let anyCase ← orFail (flagged fields "iexcludes" "--iexclude")
  let tags ← orFail (flagged fields "tags" "--tag")
  let flags ← orFail (Step.listIn fields "extra_flags")
  let paths ← orFail (Step.listIn fields "paths")
  return excludes ++ anyCase ++ tags ++ flaggedIfGiven fields "host" "--host" ++
    flaggedIfGiven fields "parent" "--parent" ++ flags ++ paths

/-- The text of each value; anything but a text is a fault. -/
def onlyTexts : List Value → Except Fault (List String)
  | [] => .ok []
  | .str s :: vs => (onlyTexts vs).map (s :: ·)
  | _ :: _ => .error .badType

/-- The tags of a query in one flag, since a snapshot needs all of them. -/
def joinedTags (fields : Fields) : Except Fault (List Value) :=
  if Value.given (fields.get? "tags") then do
    let tags ← onlyTexts (← Step.listIn fields "tags")
    return [.str "--tag", .str (String.intercalate "," tags)]
  else .ok []

/-- The arguments of a query. -/
def queryArguments (fields : Fields) : Except Failure (List Value) := do
  let tags ← orFail (joinedTags fields)
  let hosts ← orFail (flagged fields "hosts" "--host")
  let paths ← orFail (flagged fields "paths" "--path")
  return tags ++ hosts ++ paths

/-- The arguments of a restore. -/
def restoreArguments (fields : Fields) : Except Failure (List Value) := do
  let target := Value.textIfGiven (fields.get? "target")
  if Text.blank target then throw .missingRestoreTarget
  let includes ← orFail (flagged fields "includes" "--include")
  let excludes ← orFail (flagged fields "excludes" "--exclude")
  return [.str "--target", .str target] ++ includes ++ excludes

/-- The arguments of a backup with some options. -/
def backupFromSteps (steps : List Step) : Except Failure (List Value) := do
  backupArguments (← orFail (Step.applyAll steps Step.emptyBackup))

/-- The arguments of a query with some options. -/
def queryFromSteps (steps : List Step) : Except Failure (List Value) := do
  queryArguments (← orFail (Step.applyAll steps Step.emptyQuery))

/-- The arguments of a restore into a directory with some options. -/
def restoreFromSteps (target : String) (steps : List Step) : Except Failure (List Value) := do
  restoreArguments (← orFail (Step.applyAll steps (Step.emptyRestore.put "target" (.str target))))

end BackupSteward.Options
