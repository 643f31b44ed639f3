import BackupSteward.Event.Basic
import BackupSteward.Json.Reader

/-!
# Decoding events

The engine prints one JSON object per line.  Lines that hold anything else, and objects of
other kinds, are no events.  A numeric field that is absent, null or no number counts as zero;
only a number beyond the range of the field is a fault.
-/

namespace BackupSteward

/-- The JSON object on a line, if the line holds one.  The line has to begin with a brace, up
to white space; text that is no JSON is no object. -/
def decodeLine (line : String) : Except Fault (Option Fields) :=
  let text := Text.trim line.toList
  if text.head? = some '{' then
    match Json.readChars text with
    | .ok (.record fields) => .ok (some fields)
    | .ok _ => .ok none
    | .error .tooDeep => .error .tooDeep
    | .error _ => .ok none
  else .ok none

namespace Fields

/-- Takes a default for a value that cannot be used, and keeps only an overflow as a fault. -/
def orDefault {α : Type} (default : α) : Except Fault α → Except Fault α
  | .ok a => .ok a
  | .error .overflow => .error .overflow
  | .error _ => .ok default

/-- A count among the fields. -/
def count (fields : Fields) (name : String) : Except Fault Int :=
  match fields.get? name with
  | none | some .null => .ok 0
  | some v => orDefault 0 v.toInt

/-- A measure among the fields. -/
def measure (fields : Fields) (name : String) : Except Fault Double :=
  match fields.get? name with
  | none | some .null => .ok .zero
  | some v => orDefault .zero v.toDouble

/-- The text of a field; an absent field is empty. -/
def textOf (fields : Fields) (name : String) : String :=
  match fields.get? name with
  | none => ""
  | some v => v.text

/-- The text of a field; one that is not given is empty. -/
def textIfGiven (fields : Fields) (name : String) : String :=
  Value.textIfGiven (fields.get? name)

end Fields

/-- The files being worked on: the texts of a list, and none for anything else. -/
def filesInWork (fields : Fields) : List String :=
  match fields.get? "current_files" with
  | some (.list xs) => xs.map Value.text
  | _ => []

/-- Decodes a failed item.  The message is that of the error object, or the error itself. -/
def ItemError.decode (fields : Fields) : ItemError :=
  let message := match fields.get? "error" with
    | some (.record error) => Fields.textOf error "message"
    | other => Value.textIfGiven other
  ⟨message, fields.textOf "during", fields.textOf "item"⟩

/-- Decodes the progress of a backup. -/
def BackupProgress.decode (fields : Fields) : Except Fault BackupProgress := do
  return {
    secondsElapsed := ← fields.measure "seconds_elapsed"
    percentDone := ← fields.measure "percent_done"
    totalFiles := ← fields.count "total_files"
    filesDone := ← fields.count "files_done"
    totalBytes := ← fields.count "total_bytes"
    bytesDone := ← fields.count "bytes_done"
    errorCount := ← fields.count "error_count"
    currentFiles := filesInWork fields }

/-- Decodes the summary of a backup; failed items are counted by the collector. -/
def BackupSummary.decode (fields : Fields) : Except Fault BackupSummary := do
  return {
    snapshotId := fields.textIfGiven "snapshot_id"
    filesNew := ← fields.count "files_new"
    filesChanged := ← fields.count "files_changed"
    filesUnmodified := ← fields.count "files_unmodified"
    dirsNew := ← fields.count "dirs_new"
    dirsChanged := ← fields.count "dirs_changed"
    dirsUnmodified := ← fields.count "dirs_unmodified"
    dataBlobs := ← fields.count "data_blobs"
    treeBlobs := ← fields.count "tree_blobs"
    dataAdded := ← fields.count "data_added"
    totalFilesProcessed := ← fields.count "total_files_processed"
    totalBytesProcessed := ← fields.count "total_bytes_processed"
    totalDuration := ← fields.measure "total_duration"
    errorCount := 0 }

/-- Decodes the progress of a restore. -/
def RestoreProgress.decode (fields : Fields) : Except Fault RestoreProgress := do
  return {
    secondsElapsed := ← fields.measure "seconds_elapsed"
    percentDone := ← fields.measure "percent_done"
    totalFiles := ← fields.count "total_files"
    filesRestored := ← fields.count "files_restored"
    filesSkipped := ← fields.count "files_skipped"
    totalBytes := ← fields.count "total_bytes"
    bytesRestored := ← fields.count "bytes_restored"
    bytesSkipped := ← fields.count "bytes_skipped" }

/-- Decodes the summary of a restore. -/
def RestoreSummary.decode (fields : Fields) : Except Fault RestoreSummary := do
  return {
    secondsElapsed := ← fields.measure "seconds_elapsed"
    totalFiles := ← fields.count "total_files"
    filesRestored := ← fields.count "files_restored"
    filesSkipped := ← fields.count "files_skipped"
    totalBytes := ← fields.count "total_bytes"
    bytesRestored := ← fields.count "bytes_restored"
    bytesSkipped := ← fields.count "bytes_skipped"
    errorCount := 0 }

/-- A streaming operation: its name, how its reports are decoded, and where its summary keeps
the count of failed items. -/
structure Operation (P S : Type) where
  name : String
  progress : Fields → Except Fault P
  summary : Fields → Except Fault S
  /-- The same summary with another count of failed items. -/
  withErrorCount : S → Nat → S
  /-- The count of failed items in a summary. -/
  errorCount : S → Nat
  /-- The name of progress reports in the log. -/
  progressName : String
  /-- The name of summaries in the log. -/
  summaryName : String

namespace Operation

/-- Backups. -/
def backup : Operation BackupProgress BackupSummary where
  name := "backup"
  progress := BackupProgress.decode
  summary := BackupSummary.decode
  withErrorCount s n := { s with errorCount := n }
  errorCount := BackupSummary.errorCount
  progressName := "BackupProgressEntry"
  summaryName := "BackupSummary"

/-- Restores. -/
def restore : Operation RestoreProgress RestoreSummary where
  name := "restore"
  progress := RestoreProgress.decode
  summary := RestoreSummary.decode
  withErrorCount s n := { s with errorCount := n }
  errorCount := RestoreSummary.errorCount
  progressName := "RestoreProgressEntry"
  summaryName := "RestoreSummary"

variable {P S : Type} (op : Operation P S)

/-- The event an object describes, by its message type. -/
def event? (fields : Fields) : Except Fault (Option (Event P S)) :=
  match fields.get? "message_type" with
  | some (.str kind) =>
    if kind = "status" then (op.progress fields).map fun p => some (.progress p)
    else if kind = "summary" then (op.summary fields).map fun s => some (.summary s)
    else if kind = "error" then .ok (some (.itemError (ItemError.decode fields)))
    else .ok none
  | _ => .ok none

/-- The event on a line, if there is one. -/
def eventOfLine? (line : String) : Except Fault (Option (Event P S)) := do
  match ← decodeLine line with
  | none => return none
  | some fields => op.event? fields

/-- The name of an event in the log. -/
def eventName : Event P S → String
  | .progress _ => op.progressName
  | .itemError _ => "BackupErrorEntry"
  | .summary _ => op.summaryName

end Operation

end BackupSteward
