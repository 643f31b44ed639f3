/-!
# Shell words

Splitting a line into words by the quoting rules of the shell, without expansion and without
comments.  Words are separated by spaces, tabulators and line ends.  Between apostrophes
every character stands for itself; between double quotes a backslash protects a double quote
and a backslash; elsewhere it protects any character.
-/

namespace BackupSteward.Text

namespace ShellWords

/-- Where the reader stands: between words, in a word, between a pair of quotes, or behind a
backslash (with the quotes it stands in, if any). -/
inductive Place where
  | between
  | word
  | quotes (quote : Char)
  | escaped (quote : Option Char)
  deriving DecidableEq, Repr

/-- The words read so far (last first), and the word being read: its characters (last first)
and whether it was quoted, so that an empty pair of quotes is a word. -/
structure Progress where
  place : Place
  words : List String
  word : List Char
  wasQuoted : Bool

/-- Nothing read yet. -/
def Progress.start : Progress := ⟨.between, [], [], false⟩

/-- Ends the current word, if there is one. -/
def Progress.flush (p : Progress) : Progress :=
  if p.word.isEmpty && !p.wasQuoted then { p with place := .between }
  else ⟨.between, String.ofList p.word.reverse :: p.words, [], false⟩

/-- Adds a character to the current word. -/
def Progress.add (p : Progress) (c : Char) : Progress := { p with word := c :: p.word }

/-- Separators of words. -/
def isSeparator (c : Char) : Bool := c = ' ' || c = '\t' || c = '\r' || c = '\n'

/-- The two kinds of quotes: apostrophe and double quote. -/
def isQuote (c : Char) : Bool := c.toNat = 39 || c.toNat = 34

/-- The backslash. -/
def isBackslash (c : Char) : Bool := c.toNat = 92

/-- Reads one character. -/
def Progress.step (p : Progress) (c : Char) : Progress :=
  match p.place with
  | .between | .word =>
    if isSeparator c then p.flush
    else if isQuote c then { p with place := .quotes c }
    else if isBackslash c then { p with place := .escaped none }
    else { p.add c with place := .word }
  | .quotes q =>
    let p := { p with wasQuoted := true }
    if c = q then { p with place := .word }
    else if isBackslash c && q.toNat = 34 then { p with place := .escaped (some q) }
    else p.add c
  | .escaped none => { p.add c with place := .word }
  | .escaped (some q) =>
    let p := if isBackslash c || c = q then p else p.add (Char.ofNat 92)
    { p.add c with place := .quotes q }

/-- The words, if the text does not end between quotes or behind a backslash. -/
def Progress.finish? (p : Progress) : Option (List String) :=
  match p.place with
  | .between | .word => some p.flush.words.reverse
  | .quotes _ | .escaped _ => none

end ShellWords

/-- The words of a line, or nothing when a quote is left open or a backslash stands last. -/
def shellWords? (s : String) : Option (List String) :=
  (s.toList.foldl ShellWords.Progress.step .start).finish?

end BackupSteward.Text
