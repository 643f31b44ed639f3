/-!
# The calendar

Days of the Gregorian calendar, extended backwards, and the weeks of the ISO calendar.  Days
are numbered from 1 January of the year 1, which has number one and is a Monday.
-/

namespace BackupSteward

namespace Calendar

/-- Whether a year has a leap day. -/
def isLeap (year : Nat) : Bool := year % 4 = 0 && (year % 100 ≠ 0 || year % 400 = 0)

/-- The days of a month. -/
def daysInMonth (year month : Nat) : Nat :=
  match month with
  | 2 => if isLeap year then 29 else 28
  | 4 | 6 | 9 | 11 => 30
  | _ => 31

/-- The days before a year. -/
def daysBeforeYear (year : Nat) : Nat :=
  let y := year - 1
  y * 365 + y / 4 - y / 100 + y / 400

/-- The days of a year before a month. -/
def daysBeforeMonth (year : Nat) : (month : Nat) → Nat
  | 0 | 1 => 0
  | m + 2 => daysBeforeMonth year (m + 1) + daysInMonth year (m + 1)

/-- The number of a day. -/
def dayNumber (year month day : Nat) : Nat :=
  daysBeforeYear year + daysBeforeMonth year month + day

/-- Goes through the months of a year: the month and the day of month of a day of the year,
counted from zero. -/
def monthOfDay (year : Nat) : (fuel : Nat) → (month : Nat) → (day : Nat) → Nat × Nat
  | 0, month, day => (month, day + 1)
  | fuel + 1, month, day =>
    let length := daysInMonth year month
    if day < length then (month, day + 1) else monthOfDay year fuel (month + 1) (day - length)

/-- The year, month and day of a numbered day.  A cycle of 400 years has 146097 days, one of
100 years 36524, one of four years 1461; the last day of a long cycle belongs to its last
year. -/
def ofDayNumber (number : Nat) : Nat × Nat × Nat :=
  let n := number - 1
  let n400 := n / 146097
  let r400 := n % 146097
  let n100 := min (r400 / 36524) 3
  let r100 := r400 - n100 * 36524
  let n4 := r100 / 1461
  let r4 := r100 % 1461
  let n1 := min (r4 / 365) 3
  let year := n400 * 400 + n100 * 100 + n4 * 4 + n1 + 1
  let (month, day) := monthOfDay year 11 1 (r4 - n1 * 365)
  (year, month, day)

/-- Whether a date exists in the years 1 to 9999. -/
def isDate (year month day : Nat) : Bool :=
  1 ≤ year && year ≤ 9999 && 1 ≤ month && month ≤ 12 && 1 ≤ day && day ≤ daysInMonth year month

/-! ## Weeks -/

/-- The day of the week of a numbered day; Monday is zero. -/
def weekday (number : Nat) : Nat := (number + 6) % 7

/-- The number of the Monday on which the first week of a year begins: that of the week with
the first Thursday.  It may lie in the year before, so it is an integer. -/
def firstMonday (year : Nat) : Int :=
  let first := dayNumber year 1 1
  let monday : Int := (first : Int) - weekday first
  if 3 < weekday first then monday + 7 else monday

/-- The ISO year and the ISO week of a date. -/
def isoWeek (year month day : Nat) : Nat × Nat :=
  let today : Int := dayNumber year month day
  let start := firstMonday year
  if today < start then (year - 1, ((today - firstMonday (year - 1)) / 7).toNat + 1)
  else if firstMonday (year + 1) ≤ today then (year + 1, 1)
  else (year, ((today - start) / 7).toNat + 1)

/-- Whether an ISO year has a week 53: it begins on a Thursday, or on a Wednesday and is a leap
year. -/
def hasLongYear (year : Nat) : Bool :=
  let first := weekday (dayNumber year 1 1)
  first = 3 || (first = 2 && isLeap year)

/-- The date of a day of an ISO week, if there is one in the years 1 to 9999. -/
def ofIsoWeek? (year week day : Nat) : Option (Nat × Nat × Nat) :=
  if year < 1 ∨ 9999 < year then none
  else if week < 1 ∨ 53 < week ∨ (week = 53 ∧ !hasLongYear year) then none
  else if day < 1 ∨ 7 < day then none
  else some (ofDayNumber (firstMonday year + ((week : Int) - 1) * 7 + day - 1).toNat)

end Calendar

end BackupSteward
