import BackupSteward.Snapshot.Directory

/-!
# Repository statistics

The first JSON object the engine prints.  Fields that are not known by name are kept as they
are.
-/

namespace BackupSteward

/-- The statistics of a repository. -/
structure Statistics where
  totalSize : Int
  totalFileCount : Int
  snapshotsCount : Int
  totalBlobCount : Int
  /-- The other fields. -/
  extra : Fields

namespace Statistics

/-- The fields known by name. -/
def known : List String :=
  ["total_size", "total_file_count", "snapshots_count", "total_blob_count"]

/-- Decodes statistics. -/
def ofFields (fields : Fields) : Except Fault Statistics := do
  return {
    totalSize := ← Entry.number fields "total_size"
    totalFileCount := ← Entry.number fields "total_file_count"
    snapshotsCount := ← Entry.number fields "snapshots_count"
    totalBlobCount := ← Entry.number fields "total_blob_count"
    extra := fields.filter fun f => !known.contains f.1 }

/-- The first object on some lines. -/
def firstObject : List String → Except Fault (Option Fields)
  | [] => .ok none
  | line :: lines =>
    match decodeLine line with
    | .error f => .error f
    | .ok (some fields) => .ok (some fields)
    | .ok none => firstObject lines

/-- Decodes the output of the statistics command. -/
def decode (lines : List String) : Except Failure Statistics := do
  match ← orFail (firstObject lines) with
  | none => throw (.noStatistics lines.length)
  | some fields => orFail (ofFields fields)

end Statistics

end BackupSteward
