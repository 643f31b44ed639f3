/-!
# Durations

Lengths of time in whole microseconds, of either sign.
-/

namespace BackupSteward

/-- A length of time. -/
structure Duration where
  micros : Int
  deriving DecidableEq, Repr

namespace Duration

/-- The microseconds of a day. -/
def microsPerDay : Int := 86400000000

/-- The most whole days that a duration may have, forwards or backwards. -/
def maxDays : Int := 999999999

/-- The duration of some microseconds, if it is within the bounds. -/
def ofMicros? (micros : Int) : Option Duration :=
  let days := Int.fdiv micros microsPerDay
  if -maxDays ≤ days ∧ days ≤ maxDays then some ⟨micros⟩ else none

/-- The duration of some hours, if it is within the bounds. -/
def ofHours? (hours : Int) : Option Duration := ofMicros? (hours * 3600000000)

/-- A number with at least the given count of digits. -/
def padded (width n : Nat) : String :=
  let ds := Nat.toDigits 10 n
  String.ofList (List.replicate (width - ds.length) '0' ++ ds)

/-- The fraction of a second as it is written behind the seconds: nothing for a whole second,
else six digits. -/
def fractionText (micros : Nat) : String :=
  if micros = 0 then "" else "." ++ padded 6 micros

/-- A duration as days, which may be negative, and a time of day. -/
def text (d : Duration) : String :=
  let days := Int.fdiv d.micros microsPerDay
  let rest := (d.micros - days * microsPerDay).toNat
  let seconds := rest / 1000000
  let clock := s!"{seconds / 3600}:" ++ padded 2 (seconds / 60 % 60) ++ ":" ++
    padded 2 (seconds % 60) ++ fractionText (rest % 1000000)
  if days = 0 then clock
  else toString days ++ (if days.natAbs = 1 then " day, " else " days, ") ++ clock

end Duration

end BackupSteward
