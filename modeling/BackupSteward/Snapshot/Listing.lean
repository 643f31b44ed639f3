import BackupSteward.Snapshot.Basic

/-!
# Snapshot lists

The engine prints its snapshots as one JSON array on a line, in between lines of plain text.
The first line that holds an array counts.
-/

namespace BackupSteward

namespace Snapshot

/-- The items of a JSON array on a line, if the line holds one. -/
def arrayOnLine (line : String) : Except Fault (Option (List Value)) :=
  let text := Text.trim line.toList
  if text.head? = some '[' then
    match Json.readChars text with
    | .ok (.list items) => .ok (some items)
    | .ok _ => .ok none
    | .error .tooDeep => .error .tooDeep
    | .error _ => .ok none
  else .ok none

/-- The first array on some lines. -/
def firstArray : List String → Except Fault (Option (List Value))
  | [] => .ok none
  | line :: lines =>
    match arrayOnLine line with
    | .error f => .error f
    | .ok (some items) => .ok (some items)
    | .ok none => firstArray lines

/-- The objects among some values. -/
def objects (items : List Value) : List Fields :=
  items.filterMap fun v =>
    match v with
    | .record fields => some fields
    | _ => none

/-- Decodes the output of a listing: one snapshot for each object of the array, in order. -/
def decodeList (lines : List String) : Except Failure (List Snapshot) := do
  match ← orFail (firstArray lines) with
  | none => throw (.noSnapshotList lines.length)
  | some items => (objects items).mapM decode

end Snapshot

end BackupSteward
