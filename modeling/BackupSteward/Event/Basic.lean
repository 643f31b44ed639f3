import BackupSteward.Value

/-!
# Events

What the engine reports while a backup or a restore runs: progress, items that failed, and at
the end a summary.
-/

namespace BackupSteward

/-- The state of a running backup. -/
structure BackupProgress where
  secondsElapsed : Double
  /-- The share that is done, between zero and one. -/
  percentDone : Double
  totalFiles : Int
  filesDone : Int
  totalBytes : Int
  bytesDone : Int
  errorCount : Int
  currentFiles : List String
  deriving DecidableEq, Repr

/-- An item that failed while the operation went on. -/
structure ItemError where
  message : String
  during : String
  item : String
  deriving DecidableEq, Repr

/-- The outcome of a backup. -/
structure BackupSummary where
  snapshotId : String
  filesNew : Int
  filesChanged : Int
  filesUnmodified : Int
  dirsNew : Int
  dirsChanged : Int
  dirsUnmodified : Int
  dataBlobs : Int
  treeBlobs : Int
  dataAdded : Int
  totalFilesProcessed : Int
  totalBytesProcessed : Int
  totalDuration : Double
  /-- The items that failed during the whole run. -/
  errorCount : Nat
  deriving DecidableEq, Repr

/-- The state of a running restore. -/
structure RestoreProgress where
  secondsElapsed : Double
  percentDone : Double
  totalFiles : Int
  filesRestored : Int
  filesSkipped : Int
  totalBytes : Int
  bytesRestored : Int
  bytesSkipped : Int
  deriving DecidableEq, Repr

/-- The outcome of a restore. -/
structure RestoreSummary where
  secondsElapsed : Double
  totalFiles : Int
  filesRestored : Int
  filesSkipped : Int
  totalBytes : Int
  bytesRestored : Int
  bytesSkipped : Int
  /-- The items that failed during the whole run. -/
  errorCount : Nat
  deriving DecidableEq, Repr

/-- An event of an operation with progress reports `P` and summary `S`. -/
inductive Event (P S : Type) where
  | progress (p : P)
  | itemError (e : ItemError)
  | summary (s : S)
  deriving DecidableEq, Repr

/-- An event of a backup. -/
abbrev BackupEvent := Event BackupProgress BackupSummary

/-- An event of a restore. -/
abbrev RestoreEvent := Event RestoreProgress RestoreSummary

namespace Event

/-- Whether an event reports a failed item. -/
def isError {P S : Type} : Event P S → Bool
  | itemError _ => true
  | _ => false

/-- Whether an event is a summary. -/
def isSummary {P S : Type} : Event P S → Bool
  | summary _ => true
  | _ => false

end Event

end BackupSteward
