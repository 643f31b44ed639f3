import BackupSteward.Path
import BackupSteward.Text.Utf8

/-!
# File trees

The files that a path can reach.  A path is followed component by component, a relative one from
the current directory and an absolute one from the root.  No entry is a link, and every file may
be opened.
-/

namespace BackupSteward

open BackupSteward.Text (Bytes)

/-- A file or a directory. -/
inductive FileTree where
  | file (content : Bytes)
  | directory (entries : List (String × FileTree))

/-- Why a file cannot be read. -/
inductive FileProblem where
  | missing
  | notDirectory
  | isDirectory
  | nameTooLong
  deriving DecidableEq, Repr

namespace FileProblem

/-- The number by which the operating system knows the problem. -/
def number : FileProblem → Nat
  | missing => 2
  | notDirectory => 20
  | isDirectory => 21
  | nameTooLong => 36

/-- The problem in words. -/
def text : FileProblem → String
  | missing => "No such file or directory"
  | notDirectory => "Not a directory"
  | isDirectory => "Is a directory"
  | nameTooLong => "File name too long"

end FileProblem

namespace FileTree

/-- The directory without entries. -/
def empty : FileTree := .directory []

/-- The entries of a directory; a file has none. -/
def entries : FileTree → List (String × FileTree)
  | .file _ => []
  | .directory es => es

/-- The entry of a name. -/
def lookup? : (entries : List (String × FileTree)) → (name : String) → Option FileTree
  | [], _ => none
  | (n, t) :: rest, name => if n = name then some t else lookup? rest name

/-- Sets the entry of a name. -/
def setEntry : (entries : List (String × FileTree)) → (name : String) → FileTree →
    List (String × FileTree)
  | [], name, t => [(name, t)]
  | (n, old) :: rest, name, t =>
    if n = name then (n, t) :: rest else (n, old) :: setEntry rest name t

/-- Puts a file or directory at a place, with the directories above it. -/
def insert (root : FileTree) (place : List String) (node : FileTree) : FileTree :=
  match place with
  | [] => node
  | name :: rest =>
    let below := (lookup? root.entries name).getD empty
    .directory (setEntry root.entries name (insert below rest node))

/-- The longest name of an entry, in bytes. -/
def maxName : Nat := 255

/-- The longest path, in bytes. -/
def maxPath : Nat := 4095

/-! ## Places in a tree -/

/-- A directory on the way down from the root: the name under which the way goes on, and the
other entries. -/
structure Level where
  name : String
  others : List (String × FileTree)

/-- The directory with what it holds under the name of the way. -/
def Level.close (level : Level) (node : FileTree) : FileTree :=
  .directory ((level.name, node) :: level.others)

/-- A place in a file tree: what is there, and the directories above it, the nearest first. -/
structure Place where
  node : FileTree
  above : List Level

namespace Place

/-- The directory that holds a place; the root is above itself. -/
def up (place : Place) : Place :=
  match place.above with
  | [] => place
  | level :: above => ⟨level.close place.node, above⟩

/-- The root of the tree. -/
def root (place : Place) : Place :=
  ⟨place.above.foldl (fun node level => level.close node) place.node, []⟩

/-- Follows one component. -/
def follow (place : Place) (name : String) : Except FileProblem Place :=
  match place.node with
  | .file _ => .error .notDirectory
  | .directory es =>
    if name = ".." then .ok place.up
    else if maxName < name.utf8ByteSize then .error .nameTooLong
    else
      match lookup? es name with
      | none => .error .missing
      | some node => .ok ⟨node, ⟨name, es.filter fun e => e.1 ≠ name⟩ :: place.above⟩

/-- Where a path starts, seen from a place. -/
def start (place : Place) (path : Path) : Place :=
  if path.slashes = 0 then place else place.root

/-- The content of the file at a path, seen from a place. -/
def read (place : Place) (path : Path) : Except FileProblem Bytes := do
  if maxPath < path.toString.utf8ByteSize then throw .nameTooLong
  match (← path.parts.foldlM follow (place.start path)).node with
  | .file content => return content
  | .directory _ => throw .isDirectory

end Place

end FileTree

end BackupSteward
