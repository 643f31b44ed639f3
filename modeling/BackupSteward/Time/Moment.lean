import BackupSteward.Number.Double
import BackupSteward.Time.Calendar
import BackupSteward.Time.Duration

/-!
# Moments

Points in time with the clock they were read from: a date, a time of day, and the offset of
that clock.  Moments are compared by the instant they denote; the periods a moment belongs to
are those of its own clock.
-/

namespace BackupSteward

/-- A point in time. -/
structure Moment where
  year : Nat
  month : Nat
  day : Nat
  hour : Nat
  minute : Nat
  second : Nat
  micro : Nat
  /-- How far the clock is ahead of universal time, in microseconds. -/
  offset : Int
  deriving DecidableEq, Repr

namespace Moment

/-- The number of the day on which time stamps of computers begin, 1 January 1970. -/
def epochDay : Int := 719163

/-- The reading of the clock in microseconds since the beginning of 1970. -/
def clock (m : Moment) : Int :=
  let days : Int := (Calendar.dayNumber m.year m.month m.day : Int) - epochDay
  let seconds : Int := days * 86400 + ((m.hour * 60 + m.minute) * 60 + m.second : Nat)
  seconds * 1000000 + m.micro

/-- The instant, in microseconds since the beginning of 1970 in universal time. -/
def instant (m : Moment) : Int := m.clock - m.offset

/-- The instant in whole milliseconds, by way of doubles: the seconds are rounded to a double,
the product with a thousand again, and the fraction is cut off. -/
def unixMillis (m : Moment) : Int :=
  let micros := m.instant
  match (Double.ofRatio (decide (micros < 0)) micros.natAbs 1000000).scale 1000 with
  | .finite neg s e => Double.truncate neg s e
  | _ => 0

/-- Whether the fields name a moment that exists. -/
def valid (m : Moment) : Bool :=
  Calendar.isDate m.year m.month m.day && m.hour < 24 && m.minute < 60 && m.second < 60 &&
    m.micro < 1000000

/-- An offset as it is written behind a time: hours and minutes, and seconds and microseconds
where needed. -/
def offsetText (offset : Int) : String :=
  let n := offset.natAbs
  let seconds := n / 1000000
  let micros := n % 1000000
  let text := (if offset < 0 then "-" else "+") ++ Duration.padded 2 (seconds / 3600) ++ ":" ++
    Duration.padded 2 (seconds / 60 % 60)
  if seconds % 60 = 0 ∧ micros = 0 then text
  else text ++ ":" ++ Duration.padded 2 (seconds % 60) ++ Duration.fractionText micros

/-- A moment as text: date, time and offset. -/
def text (m : Moment) : String :=
  Duration.padded 4 m.year ++ "-" ++ Duration.padded 2 m.month ++ "-" ++
    Duration.padded 2 m.day ++ "T" ++ Duration.padded 2 m.hour ++ ":" ++
    Duration.padded 2 m.minute ++ ":" ++ Duration.padded 2 m.second ++
    Duration.fractionText m.micro ++ offsetText m.offset

end Moment

end BackupSteward
