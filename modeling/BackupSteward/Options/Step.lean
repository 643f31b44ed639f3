import BackupSteward.Value

/-!
# Options

An option is a small change to a record of arguments.  Options that take several values add
them to a list, so that using one twice accumulates; options that take one value replace it.
Nothing is checked before the complete record is rendered.
-/

namespace BackupSteward

/-- A change to a record of arguments. -/
inductive Step where
  /-- Adds texts to the list in a field. -/
  | append (field : String) (texts : List String)
  /-- Sets a field. -/
  | assign (field : String) (value : Value)
  /-- Adds variables to those in the field `env`; of two with one name the later one counts. -/
  | addVariables (more : Fields)
  /-- Several changes, one after the other. -/
  | sequence (steps : List Step)

/-- The change that changes nothing. -/
instance : Inhabited Step := ⟨.sequence []⟩

namespace Step

/-- The list in a field, empty if there is no such field. -/
def listIn (fields : Fields) (name : String) : Except Fault (List Value) :=
  match fields.get? name with
  | none => .ok []
  | some v => v.items

/-- The variables in a record of arguments. -/
def variablesIn (fields : Fields) : Except Fault Fields :=
  match fields.get? "env" with
  | none => .ok []
  | some (.record vars) => .ok vars
  | some _ => .error .badType

mutual

/-- Applies a change. -/
def apply : Step → Fields → Except Fault Fields
  | append field texts, fields =>
    (listIn fields field).map fun xs => fields.put field (.list (xs ++ texts.map .str))
  | assign field value, fields => .ok (fields.put field value)
  | addVariables more, fields =>
    (variablesIn fields).map fun vars => fields.put "env" (.record (vars.putAll more))
  | sequence steps, fields => applyAll steps fields

/-- Applies several changes, from the first to the last. -/
def applyAll : List Step → Fields → Except Fault Fields
  | [], fields => .ok fields
  | step :: steps, fields =>
    match apply step fields with
    | .ok fields => applyAll steps fields
    | .error fault => .error fault

end

/-- Adds the texts of some values to the list in a field. -/
def appendTexts (field : String) (values : List Value) : Step :=
  append field (values.map Value.text)

/-! ## Options of a backup -/

/-- Files and directories to back up. -/
def backupPaths : List Value → Step := appendTexts "paths"

/-- Patterns of what to leave out. -/
def backupExcludes : List Value → Step := appendTexts "excludes"

/-- Patterns of what to leave out, without regard to case. -/
def backupExcludesAnyCase : List Value → Step := appendTexts "iexcludes"

/-- Tags of the new snapshot. -/
def backupTags : List Value → Step := appendTexts "tags"

/-- The host name to record. -/
def backupHost : Value → Step := assign "host"

/-- The snapshot to compare with. -/
def backupParent : Value → Step := assign "parent"

/-- Further flags of the backup command. -/
def backupFlags : List Value → Step := appendTexts "extra_flags"

/-- A backup without options. -/
def emptyBackup : Fields :=
  [("paths", .list []), ("excludes", .list []), ("iexcludes", .list []), ("tags", .list []),
    ("host", .null), ("parent", .null), ("extra_flags", .list [])]

/-! ## Options of a query -/

/-- Only snapshots with all of these tags. -/
def queryTags : List Value → Step := appendTexts "tags"

/-- Only snapshots of one of these hosts. -/
def queryHosts : List Value → Step := appendTexts "hosts"

/-- Only snapshots of these paths. -/
def queryPaths : List Value → Step := appendTexts "paths"

/-- A query without options. -/
def emptyQuery : Fields := [("tags", .list []), ("hosts", .list []), ("paths", .list [])]

/-! ## Options of a restore -/

/-- Patterns of what to restore. -/
def restoreIncludes : List Value → Step := appendTexts "includes"

/-- Patterns of what to leave out of a restore. -/
def restoreExcludes : List Value → Step := appendTexts "excludes"

/-- A restore without options. -/
def emptyRestore : Fields := [("target", .str ""), ("includes", .list []), ("excludes", .list [])]

/-! ## Options of a repository -/

/-- Flags of every engine command. -/
def globalFlags : List Value → Step := appendTexts "flags"

/-- The engine's executable. -/
def binary (v : Value) : Step := assign "binary" (.str v.text)

/-- The directory to run the engine in. -/
def workdir (v : Value) : Except Fault Step := v.toPath.map fun p => assign "cwd" (.path p)

/-- The name of the repository in the log. -/
def label : Value → Step := assign "repo_id"

/-- A repository without options. -/
def emptyRepository : Fields :=
  [("uri", .str ""), ("password", .str ""), ("flags", .list []), ("binary", .str "restic"),
    ("env", .record []), ("cwd", .null), ("repo_id", .str "")]

/-! ## Sequences -/

/-- Steps may be applied in two goes. -/
theorem applyAll_append (front back : List Step) (fields : Fields) :
    applyAll (front ++ back) fields = applyAll front fields >>= applyAll back := by
  induction front generalizing fields with
  | nil => rfl
  | cons s front ih =>
    simp only [List.cons_append, applyAll]
    cases apply s fields with
    | ok fields => exact ih fields
    | error f => rfl

end Step

end BackupSteward
