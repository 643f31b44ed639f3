import BackupSteward.Number.Double

/-!
# Writing doubles

Three ways to write a double: with the fewest digits that read back as the same number, with
six significant digits, and as a percentage with one decimal place.  All three work on the
exact value of the double.
-/

namespace BackupSteward.Double

/-- A positive decimal number: `digits · 10 ^ exponent`. -/
structure Decimal where
  digits : Nat
  exponent : Int
  deriving DecidableEq, Repr

/-- Raises a lower bound of the decimal magnitude until it is the magnitude. -/
def raiseMagnitude (num den : Nat) : (fuel : Nat) → Int → Int
  | 0, k => k
  | fuel + 1, k =>
    let (n, d) := inMultiples 10 num den (k + 1)
    if d ≤ n then raiseMagnitude num den fuel (k + 1) else k

/-- The decimal magnitude of a positive quotient: the `k` with `10 ^ k ≤ num / den` and
`num / den < 10 ^ (k + 1)`. -/
def magnitude (num den : Nat) : Int :=
  let estimate := ((Nat.log2 num : Int) - Nat.log2 den) * 30103 / 100000 - 2
  raiseMagnitude num den 6 estimate

/-- The reals that round to a finite double, in quarters of its unit in the last place: the
double itself, the least and the largest.  Below a power of two the neighbour is half as far. -/
def quarters (significand : Nat) (exponent : Int) : Nat × Nat × Nat :=
  let below := if significand = leadingBit ∧ minExponent < exponent then 1 else 2
  (4 * significand, 4 * significand - below, 4 * significand + 2)

/-- Whether a multiple of `10 ^ p` rounds to the double: it lies between the bounds, which
belong to the double exactly if its significand is even. -/
def readsBack (even : Bool) (lo hi x : Nat) : Bool :=
  if even then lo ≤ x && x ≤ hi else lo < x && x < hi

/-- Of the multiples of `10 ^ p` next to the value the nearer one that reads back, a tie going
to the even multiple. -/
def nearestOnGrid? (even : Bool) (value lo hi den : Nat) (p : Int) : Option Nat :=
  let up := if 0 ≤ p then den * Nat.pow 10 p.toNat else den
  let mul := if 0 ≤ p then 1 else Nat.pow 10 (-p).toNat
  let v := value * mul
  let a := v / up
  let low := readsBack even (lo * mul) (hi * mul) (a * up)
  let high := readsBack even (lo * mul) (hi * mul) ((a + 1) * up)
  if low && high then
    let below := v - a * up
    let above := (a + 1) * up - v
    some (if below < above then a else if above < below then a + 1
      else if a % 2 = 0 then a else a + 1)
  else if low then some a
  else if high then some (a + 1)
  else none

/-- Tries `digits, digits + 1, …` significant digits. -/
def shortestFrom (even : Bool) (value lo hi den : Nat) (k : Int) :
    (fuel : Nat) → (digits : Nat) → Decimal
  | 0, d => ⟨value / den, -(d : Int)⟩
  | fuel + 1, d =>
    match nearestOnGrid? even value lo hi den (k - d + 1) with
    | some a => ⟨a, k - d + 1⟩
    | none => shortestFrom even value lo hi den k fuel (d + 1)

/-- The decimal with the fewest digits that reads back as a positive finite double; of those
the nearest one. -/
def shortest (significand : Nat) (exponent : Int) : Decimal :=
  let (v, lo, hi) := quarters significand exponent
  let e := exponent - 2
  let num := if 0 ≤ e then Nat.pow 2 e.toNat else 1
  let den := if 0 ≤ e then 1 else Nat.pow 2 (-e).toNat
  let k := magnitude (v * num) den
  shortestFrom (significand % 2 = 0) (v * num) (lo * num) (hi * num) den k 20 1

/-- A positive quotient with a fixed count of significant digits, a half going to the even
neighbour. -/
def significant (count : Nat) (num den : Nat) : Decimal :=
  let k := magnitude num den
  let p := k - count + 1
  let (n, d) := inMultiples 10 num den p
  let m := roundedQuotient n d
  if m = Nat.pow 10 count then ⟨Nat.pow 10 (count - 1), p + 1⟩ else ⟨m, p⟩

/-- Drops the zeros that digits end with. -/
def dropZeros (ds : List Char) : List Char := (ds.reverse.dropWhile (· = '0')).reverse

/-- How a decimal is laid out: from which magnitude on it is written with an exponent, and
whether a whole number keeps a decimal place. -/
structure Layout where
  /-- The first magnitude written with an exponent. -/
  firstLarge : Int
  /-- Whether a whole number in positional notation ends in `.0`. -/
  keepsPlace : Bool

/-- Writes the exponent with its sign and at least two digits. -/
def exponentText (k : Int) : List Char :=
  let ds := Nat.toDigits 10 k.natAbs
  'e' :: (if k < 0 then '-' else '+') :: (if ds.length < 2 then '0' :: ds else ds)

/-- Writes a positive decimal.  Numbers below `10 ^ -4` and from the first large magnitude on
have an exponent. -/
def Layout.write (layout : Layout) (x : Decimal) : List Char :=
  let ds := Nat.toDigits 10 x.digits
  let k : Int := x.exponent + ds.length - 1
  let ds := dropZeros ds
  if k < -4 ∨ layout.firstLarge ≤ k then
    let fraction := ds.drop 1
    ds.take 1 ++ (if fraction.isEmpty then [] else '.' :: fraction) ++ exponentText k
  else if k < 0 then
    '0' :: '.' :: (List.replicate (-k - 1).toNat '0' ++ ds)
  else
    let whole := (k + 1).toNat
    let fraction := ds.drop whole
    let front := ds.take whole ++ List.replicate (whole - ds.length) '0'
    if fraction.isEmpty then front ++ (if layout.keepsPlace then ['.', '0'] else [])
    else front ++ '.' :: fraction

/-- The text of a number inside a value: whole numbers end in `.0`, exponents begin at
`10 ^ 16`. -/
def valueLayout : Layout := ⟨16, true⟩

/-- The text of a number in a sentence: no decimal place without need, exponents from the
seventh digit on. -/
def proseLayout : Layout := ⟨6, false⟩

/-- Writes a double in a layout, given the digits of a positive one. -/
def write (layout : Layout) (digits : (significand : Nat) → (exponent : Int) → Decimal) :
    Double → String
  | .nan => "nan"
  | .infinite neg => if neg then "-inf" else "inf"
  | .finite neg m e =>
    let body := if m = 0 then (if layout.keepsPlace then ['0', '.', '0'] else ['0'])
      else layout.write (digits m e)
    String.ofList (if neg then '-' :: body else body)

/-- The text of a double inside a value: the fewest digits that read back. -/
def text (x : Double) : String := write valueLayout shortest x

/-- The text of a double in a sentence: six significant digits. -/
def prose (x : Double) : String :=
  write proseLayout (fun m e => let (n, d) := ratio m e; significant 6 n d) x

/-- Pads a text with spaces in front. -/
def padLeft (width : Nat) (s : String) : String :=
  String.ofList (List.replicate (width - s.length) ' ') ++ s

/-- A share as a percentage with one decimal place, at least six characters wide. -/
def percent (x : Double) : String :=
  match x.scale 100 with
  | .nan => padLeft 6 "nan%"
  | .infinite neg => padLeft 6 (if neg then "-inf%" else "inf%")
  | .finite neg m e =>
    let (n, d) := ratio m e
    let tenths := roundedQuotient (n * 10) d
    padLeft 6 ((if neg then "-" else "") ++ toString (tenths / 10) ++ "." ++
      toString (tenths % 10) ++ "%")

end BackupSteward.Double
