import BackupSteward.Event.Decode
import BackupSteward.Failure.Basic
import BackupSteward.Time.Reader

/-!
# Snapshots

A snapshot as the engine lists it.  Decoding is strict: a snapshot needs an identifier and a
time after the beginning of 1970, because retention orders snapshots by their time.
-/

namespace BackupSteward

/-- A snapshot. -/
structure Snapshot where
  id : String
  time : Moment
  shortId : String
  tree : String
  parent : String
  hostname : String
  username : String
  paths : List String
  tags : List String
  deriving DecidableEq, Repr

namespace Snapshot

/-- The instant in milliseconds. -/
def unixMillis (s : Snapshot) : Int := s.time.unixMillis

/-- Whether a snapshot carries all of some tags. -/
def hasTags (s : Snapshot) (tags : List String) : Bool := tags.all s.tags.contains

/-- The texts of the items of a field; none if it is not given. -/
def textsOf (fields : Fields) (name : String) : Except Failure (List String) :=
  match fields.get? name with
  | none => .ok []
  | some v => if v.truthy then orFail (v.items.map fun xs => xs.map Value.text) else .ok []

/-- The moment a field stands for, if it is given and can be read. -/
def momentOf? (fields : Fields) (name : String) : Option Moment :=
  match fields.get? name with
  | none => none
  | some v => if v.truthy then Moment.ofText? v.text else none

/-- Decodes a snapshot. -/
def decode (fields : Fields) : Except Failure Snapshot := do
  let id := fields.textIfGiven "id"
  if id.isEmpty then throw (.snapshotWithoutId fields)
  match momentOf? fields "time" with
  | none => throw (.snapshotWithoutTime id ((fields.get? "time").getD .null))
  | some time =>
    if time.unixMillis ≤ 0 then
      throw (.snapshotWithoutTime id ((fields.get? "time").getD .null))
    let shortId := fields.textIfGiven "short_id"
    let paths ← textsOf fields "paths"
    let tags ← textsOf fields "tags"
    return {
      id
      time
      shortId := if shortId.isEmpty then String.ofList (id.toList.take 8) else shortId
      tree := fields.textIfGiven "tree"
      parent := fields.textIfGiven "parent"
      hostname := fields.textIfGiven "hostname"
      username := fields.textIfGiven "username"
      paths
      tags }

end Snapshot

end BackupSteward
