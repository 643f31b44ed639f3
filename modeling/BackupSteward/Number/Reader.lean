import BackupSteward.Number.Digits
import BackupSteward.Number.Double
import BackupSteward.Text.Blank
import BackupSteward.Text.Digit

/-!
# Reading numbers

Numbers in texts: an optional sign and decimal digits of any script, single underscores
allowed between digits, white space around the number ignored.  Whole numbers may have at most
4300 digits.
-/

namespace BackupSteward.Number

open BackupSteward.Text

/-- The most digits a whole number may be read from. -/
def maxDigits : Nat := 4300

/-- White space around a number: all white space but the four ASCII separators. -/
def isMargin (c : Char) : Bool := isBlank c && !(28 ≤ c.toNat && c.toNat ≤ 31)

/-- The characters without the margin around them. -/
def withoutMargin (cs : List Char) : List Char :=
  ((cs.dropWhile isMargin).reverse.dropWhile isMargin).reverse

/-- Takes a sign off: whether it was a minus, and the characters behind it. -/
def takeSign : List Char → Bool × List Char
  | [] => (false, [])
  | c :: cs => if c = '-' then (true, cs) else if c = '+' then (false, cs) else (false, c :: cs)

/-- Takes digits off, with single underscores between them, adding them to those taken before
(last first). -/
def takeDigits : (before : List Nat) → List Char → List Nat × List Char
  | before, [] => (before, [])
  | before, c :: cs =>
    match digitValue? c with
    | some d => takeDigits (d :: before) cs
    | none =>
      if c = '_' && !before.isEmpty then
        match cs with
        | c' :: cs' =>
          match digitValue? c' with
          | some d => takeDigits (d :: before) cs'
          | none => (before, c :: cs)
        | [] => (before, c :: cs)
      else (before, c :: cs)

/-- The whole number a text stands for. -/
def wholeNumber? (s : String) : Option Int :=
  let (negative, cs) := takeSign (withoutMargin s.toList)
  let (digits, rest) := takeDigits [] cs
  if digits.isEmpty || !rest.isEmpty || maxDigits < digits.length then none
  else
    let n := ofDigits digits.reverse
    some (if negative then -(n : Int) else n)

/-- Reads an exponent, if there is one, at the end of a number. -/
def exponent? : List Char → Option Int
  | [] => some 0
  | c :: cs =>
    if c = 'e' || c = 'E' then
      let (negative, cs) := takeSign cs
      let (digits, rest) := takeDigits [] cs
      if digits.isEmpty || !rest.isEmpty then none
      else
        let n := ofManyDigits digits.reverse
        some (if negative then -(n : Int) else n)
    else none

/-- The double that digits, a point and digits and an exponent stand for. -/
def decimal? (negative : Bool) (cs : List Char) : Option Double :=
  let (whole, rest) := takeDigits [] cs
  let (fraction, rest) := match rest with
    | '.' :: rest => takeDigits [] rest
    | rest => ([], rest)
  if whole.isEmpty && fraction.isEmpty then none
  else
    (exponent? rest).map fun e =>
      Double.ofDecimal negative (ofManyDigits (whole.reverse ++ fraction.reverse))
        (e - fraction.length)

/-- The double a text stands for; infinity and the number that is none go by their names, in
any case. -/
def double? (s : String) : Option Double :=
  let (negative, cs) := takeSign (withoutMargin s.toList)
  let word := String.ofList (cs.map Char.toLower)
  if word = "inf" ∨ word = "infinity" then some (.infinite negative)
  else if word = "nan" then some .nan
  else decimal? negative cs

end BackupSteward.Number
