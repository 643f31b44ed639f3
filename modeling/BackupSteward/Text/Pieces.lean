/-!
# Pieces of a text

Cutting a text at every place where a separator stands.
-/

namespace BackupSteward.Text

/-- Puts a character in front of the first of some pieces; a separator begins a new piece. -/
def addInFront (separator c : Char) (pieces : List (List Char)) : List (List Char) :=
  if c = separator then [] :: pieces
  else
    match pieces with
    | [] => [[c]]
    | piece :: rest => (c :: piece) :: rest

/-- The pieces between the characters equal to a separator; there is always at least one. -/
def pieces (separator : Char) (cs : List Char) : List (List Char) :=
  cs.foldr (addInFront separator) [[]]

@[simp]
theorem pieces_cons (separator c : Char) (cs : List Char) :
    pieces separator (c :: cs) = addInFront separator c (pieces separator cs) := rfl

end BackupSteward.Text
