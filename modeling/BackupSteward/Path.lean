import BackupSteward.Text.Pieces

/-!
# File paths

A path is its leading slashes and its components.  Writing a path and reading it again gives
the path, and so repeated slashes, single dots and a trailing slash disappear; a component
`..` stays, since the directory before it may be a link.
-/

namespace BackupSteward

/-- A file path. -/
structure Path where
  /-- The leading slashes: none, one, or exactly two, which are kept apart from one. -/
  slashes : Nat
  /-- The components, none of them empty or a single dot. -/
  parts : List String
  deriving DecidableEq, Repr

namespace Path

/-- Reads a path. -/
def ofString (s : String) : Path :=
  let cs := s.toList
  let leading := (cs.takeWhile (· = '/')).length
  let parts := (Text.pieces '/' cs).filter fun p => !p.isEmpty && p ≠ ['.']
  ⟨if leading = 2 then 2 else min leading 1, parts.map String.ofList⟩

/-- Writes a path; the empty relative path is a single dot. -/
def toString (p : Path) : String :=
  if p.slashes = 0 && p.parts.isEmpty then "."
  else String.ofList (List.replicate p.slashes '/') ++ String.intercalate "/" p.parts

instance : ToString Path := ⟨Path.toString⟩

end Path

end BackupSteward
