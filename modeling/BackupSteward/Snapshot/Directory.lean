import BackupSteward.Snapshot.Basic

/-!
# Directory listings

The engine lists a directory of a snapshot as one object for the snapshot and one for each
entry.  Objects say what they are by a tag; a snapshot may also go without.
-/

namespace BackupSteward

/-- A file or directory inside a snapshot. -/
structure Entry where
  name : String
  /-- What kind of node it is, such as `file` or `dir`. -/
  type : String
  path : String
  size : Int
  mode : Int
  uid : Int
  gid : Int
  mtime : Option Moment
  deriving DecidableEq, Repr

namespace Entry

/-- Whether the entry is a directory. -/
def isDir (e : Entry) : Bool := e.type = "dir"

/-- A whole number among the fields; zero if it is not given, and a fault if it is something
else. -/
def number (fields : Fields) (name : String) : Except Fault Int :=
  match fields.get? name with
  | none => .ok 0
  | some v => if v.truthy then v.toInt else .ok 0

/-- Decodes an entry.  A time that cannot be read is left out. -/
def decode (fields : Fields) : Except Fault Entry := do
  return {
    name := fields.textIfGiven "name"
    type := fields.textIfGiven "type"
    path := fields.textIfGiven "path"
    size := ← number fields "size"
    mode := ← number fields "mode"
    uid := ← number fields "uid"
    gid := ← number fields "gid"
    mtime := Snapshot.momentOf? fields "mtime" }

end Entry

/-- A listed directory: its snapshot, and the entries in order. -/
structure Directory where
  snapshot : Snapshot
  entries : List Entry
  deriving DecidableEq, Repr

namespace Directory

/-- The tag that says what an object describes; there are two fields it may stand in. -/
def tag (fields : Fields) : String :=
  let first := fields.textIfGiven "struct_type"
  if first.isEmpty then fields.textIfGiven "message_type" else first

/-- Whether an object describes the snapshot: it says so, or it has no tag but a tree and no
snapshot came before. -/
def isHeader (before : Option Snapshot) (fields : Fields) : Bool :=
  let t := tag fields
  t = "snapshot" || (t.isEmpty && before.isNone && (fields.get? "tree").isSome)

/-- What is known of a listing after some lines; the entries are kept last first. -/
structure Progress where
  header : Option Snapshot
  entries : List Entry

/-- Reads one line of a listing. -/
def Progress.line (p : Progress) (line : String) : Except Failure Progress := do
  match ← orFail (decodeLine line) with
  | none => return p
  | some fields =>
    if isHeader p.header fields then return { p with header := some (← Snapshot.decode fields) }
    else if tag fields = "node" then
      return { p with entries := (← orFail (Entry.decode fields)) :: p.entries }
    else return p

/-- Decodes the output of a listing. -/
def decode (lines : List String) : Except Failure Directory := do
  let p ← lines.foldlM Progress.line ⟨none, []⟩
  match p.header with
  | none => throw (.noListingHeader lines.length p.entries.length)
  | some snapshot => return ⟨snapshot, p.entries.reverse⟩

end Directory

end BackupSteward
