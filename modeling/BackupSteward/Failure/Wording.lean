import BackupSteward.Value
import BackupSteward.Number.Seconds

/-!
# Wording

The sentences that explain a failure to the caller.
-/

namespace BackupSteward.Wording

/-- A backup was asked for without any path. -/
def noBackupPaths : String :=
  "No backup paths were provided. " ++
    "Pass at least one path with with_backup_paths(...) before calling backup()."

/-- A restore was asked for without a directory to restore into. -/
def missingRestoreTarget : String :=
  "Restore target directory is empty. " ++
    "Pass the directory the snapshot should be restored into."

/-- An operation on a snapshot was asked for without a snapshot. -/
def missingSnapshotId : String :=
  "Snapshot ID is empty. " ++
    "Pass a full or short ID, e.g. the snapshot_id of a BackupSummary."

/-- The environment does not say where the repository is. -/
def missingRepository : String :=
  "Repository location is not configured. " ++
    "Set the RESTIC_REPOSITORY environment variable or pass uri=... to create_repo_config()."

/-- The environment holds neither a password nor the name of a password file. -/
def missingPassword : String :=
  "Repository password is not configured. " ++
    "Set RESTIC_PASSWORD or RESTIC_PASSWORD_FILE, or pass password=... to create_repo_config()."

/-- The password file cannot be read. -/
def unreadablePasswordFile (path : Value) (reason : String) : String :=
  "Cannot read RESTIC_PASSWORD_FILE " ++ path.repr ++ ": " ++ reason ++ "."

/-- A variable does not hold a count of things to keep. -/
def invalidKeepVariable (name : String) (value : Value) : String :=
  "Invalid " ++ name ++ " value: " ++ value.repr ++ ". " ++
    "It must be a non-negative integer."

/-- Some global flags do not look like flags. -/
def invalidFlags (flags : List Value) : String :=
  "Invalid global flags: " ++ (Value.list flags).repr ++ ". " ++
    "Each flag must start with '-', e.g. with_flags('--no-cache')."

/-- The engine cannot be started. -/
def missingExecutable (binary : Value) : String :=
  "Cannot launch backup engine " ++ binary.repr ++ ". " ++
    "Install restic or point RESTICORCH_BINARY / with_binary(...) at the executable."

/-- The engine succeeded without saying what it did. -/
def missingSummary (operation : String) : String :=
  "restic " ++ operation ++ " exited successfully but no summary event was parsed. " ++
    "The engine's JSON output format may be unsupported by this version of resticorch."

/-- The engine ran longer than it may; the limit is given as it is said in a sentence. -/
def deadlineExceeded (operation limit : String) : String :=
  "restic " ++ operation ++ " did not finish within " ++ limit ++ "s and was terminated."

end BackupSteward.Wording
