/-!
# Double precision numbers

Numbers with a fraction come from the engine's JSON and from text.  They are kept exactly, as
a significand times a power of two, and every operation on them is done on whole numbers and
rounded once: to the nearest double, halves to the even significand.
-/

namespace BackupSteward

/-- A double precision number.  A finite one is `significand · 2 ^ exponent`, negated if
`negative`; zero keeps its sign. -/
inductive Double where
  /-- Not a number. -/
  | nan
  /-- One of the two infinities. -/
  | infinite (negative : Bool)
  /-- A finite number. -/
  | finite (negative : Bool) (significand : Nat) (exponent : Int)
  deriving DecidableEq, Repr

namespace Double

/-- The least exponent, that of the subnormal numbers. -/
def minExponent : Int := -1074

/-- The largest exponent of a finite number. -/
def maxExponent : Int := 971

/-- The least significand of a normal number, two to the 52nd: its leading bit is not stored. -/
def leadingBit : Nat := 0x10000000000000

/-- Zero. -/
def zero : Double := .finite false 0 minExponent

/-- The nearest whole number to a quotient, a half going to the even neighbour. -/
def roundedQuotient (num den : Nat) : Nat :=
  let q := num / den
  let r := num % den
  if 2 * r < den then q
  else if den < 2 * r then q + 1
  else if q % 2 = 0 then q else q + 1

/-- A quotient in multiples of `base ^ exponent`, which is a quotient again. -/
def inMultiples (base num den : Nat) (exponent : Int) : Nat × Nat :=
  if 0 ≤ exponent then (num, den * base.pow exponent.toNat)
  else (num * base.pow (-exponent).toNat, den)

/-- The exponent of the double nearest to a positive quotient, before rounding: the one that
gives the significand 53 bits, but none below the least. -/
def exponentFor (num den : Nat) : Int :=
  let e := max minExponent ((Nat.log2 num : Int) - Nat.log2 den - 53)
  let (n, d) := inMultiples 2 num den e
  if n / d < 2 * leadingBit then e else e + 1

/-- The double nearest to a quotient. -/
def ofRatio (negative : Bool) (num den : Nat) : Double :=
  if num = 0 then .finite negative 0 minExponent
  else
    let e := exponentFor num den
    let (n, d) := inMultiples 2 num den e
    let m := roundedQuotient n d
    let (m, e) := if m = 2 * leadingBit then (leadingBit, e + 1) else (m, e)
    if e ≤ maxExponent then .finite negative m e else .infinite negative

/-- The double nearest to a whole number, unless the number is too large for a finite one. -/
def ofInt? (i : Int) : Option Double :=
  match ofRatio (decide (i < 0)) i.natAbs 1 with
  | .finite false 0 _ => some zero
  | .finite n m e => some (.finite n m e)
  | _ => none

/-- The double nearest to `digits · 10 ^ exponent`. -/
def ofDecimal (negative : Bool) (digits : Nat) (exponent : Int) : Double :=
  if digits = 0 then .finite negative 0 minExponent
  else if 400 < exponent then .infinite negative
  else if exponent < -(Nat.log2 digits + 400) then .finite negative 0 minExponent
  else if 0 ≤ exponent then ofRatio negative (digits * Nat.pow 10 exponent.toNat) 1
  else ofRatio negative digits (Nat.pow 10 (-exponent).toNat)

/-- The absolute value of a finite number as a quotient. -/
def ratio (significand : Nat) (exponent : Int) : Nat × Nat :=
  if 0 ≤ exponent then (significand * Nat.pow 2 exponent.toNat, 1)
  else (significand, Nat.pow 2 (-exponent).toNat)

/-- A finite number without its fraction. -/
def truncate (negative : Bool) (significand : Nat) (exponent : Int) : Int :=
  let (n, d) := ratio significand exponent
  if negative then -((n / d : Nat) : Int) else ((n / d : Nat) : Int)

/-- The product with a whole number, rounded. -/
def scale (x : Double) (factor : Nat) : Double :=
  match x with
  | .finite neg m e =>
    let (n, d) := ratio m e
    ofRatio neg (n * factor) d
  | x => x

/-- A finite number as an exact fraction. -/
def toRat? : Double → Option Rat
  | .finite neg m e =>
    let (n, d) := ratio m e
    let q : Rat := (n : Rat) / (d : Rat)
    some (if neg then -q else q)
  | _ => none

/-- Whether a number is zero, of either sign. -/
def isZero : Double → Bool
  | .finite _ 0 _ => true
  | _ => false

/-- The bit that says that a number is negative. -/
def signBit (negative : Bool) : Nat := if negative then 0x8000000000000000 else 0

/-- The 64 bits of the interchange format, as a number; a number that is none has no bits of
its own. -/
def bits? : Double → Option Nat
  | .nan => none
  | .infinite neg => some (signBit neg + 0x7FF0000000000000)
  | .finite neg m e =>
    some (signBit neg + ((e - minExponent).toNat * leadingBit + m))

end Double

end BackupSteward
