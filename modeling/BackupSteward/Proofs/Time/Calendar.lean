import BackupSteward.Time.Moment
import Mathlib.Algebra.Order.Ring.Nat
import Mathlib.Tactic.Lemma

/-!
# The calendar and the clock

Dates are ordered as their days are numbered, an ISO week is the seven days from a Monday on, and so
the periods of moments of one clock are ordered as the moments are.
-/

namespace BackupSteward

namespace Calendar

/-! ### Months and years -/

/-- The months of a year lie one behind the other. -/
lemma daysBeforeMonth_succ {year month : Nat} (h : 1 ≤ month) :
    daysBeforeMonth year (month + 1) = daysBeforeMonth year month + daysInMonth year month := by
  obtain ⟨m, rfl⟩ := Nat.exists_eq_add_of_le' h
  rfl

lemma daysBeforeMonth_le {year month later : Nat} (hmonth : 1 ≤ month) (h : month < later) :
    daysBeforeMonth year month + daysInMonth year month ≤ daysBeforeMonth year later := by
  induction later, h using Nat.le_induction with
  | base => rw [daysBeforeMonth_succ hmonth]
  | succ later hle ih =>
    rw [daysBeforeMonth_succ (by omega)]
    omega

/-- The days of a year. -/
def daysInYear (year : Nat) : Nat := if isLeap year then 366 else 365

lemma daysInYear_bounds (year : Nat) : 365 ≤ daysInYear year ∧ daysInYear year ≤ 366 := by
  unfold daysInYear
  split <;> omega

/-- A year ends with its December. -/
lemma daysBeforeMonth_last (year : Nat) :
    daysBeforeMonth year 12 + daysInMonth year 12 = daysInYear year := by
  simp only [daysBeforeMonth, daysInMonth, daysInYear]
  split <;> rfl

lemma isLeap_iff (year : Nat) :
    isLeap year = true ↔ year % 4 = 0 ∧ (year % 100 = 0 → year % 400 = 0) := by
  simp only [isLeap, Bool.and_eq_true, Bool.or_eq_true, decide_eq_true_eq, ne_eq]
  omega

/-- The years lie one behind the other, leap years by a day further. -/
lemma daysBeforeYear_succ {year : Nat} (h : 1 ≤ year) :
    daysBeforeYear (year + 1) = daysBeforeYear year + daysInYear year := by
  obtain ⟨y, rfl⟩ := Nat.exists_eq_add_of_le' h
  -- the leap days are counted by quotients, each of which grows at its multiples
  have hquotient (k : Nat) : (y + 1) / k = y / k + if (y + 1) % k = 0 then 1 else 0 := by
    simp only [Nat.succ_div, Nat.dvd_iff_mod_eq_zero]
  have hle : y / 100 ≤ y / 4 := Nat.div_le_div_left (by omega) (by omega)
  have hleap := isLeap_iff (y + 1)
  show (y + 1) * 365 + (y + 1) / 4 - (y + 1) / 100 + (y + 1) / 400 =
    y * 365 + y / 4 - y / 100 + y / 400 + if isLeap (y + 1) then 366 else 365
  rw [hquotient 4, hquotient 100, hquotient 400]
  generalize y / 4 = a at hle ⊢
  generalize y / 100 = b at hle ⊢
  generalize y / 400 = c at hle ⊢
  by_cases h4 : (y + 1) % 4 = 0
  case neg =>
    have h100 : (y + 1) % 100 ≠ 0 := by omega
    have h400 : (y + 1) % 400 ≠ 0 := by omega
    rw [if_neg h4, if_neg h100, if_neg h400, if_neg (by rw [hleap]; tauto)]
    omega
  by_cases h100 : (y + 1) % 100 = 0
  case neg =>
    have h400 : (y + 1) % 400 ≠ 0 := by omega
    rw [if_pos h4, if_neg h100, if_neg h400, if_pos (by rw [hleap]; tauto)]
    omega
  by_cases h400 : (y + 1) % 400 = 0
  case neg =>
    rw [if_pos h4, if_pos h100, if_neg h400, if_neg (by rw [hleap]; tauto)]
    omega
  case pos =>
    rw [if_pos h4, if_pos h100, if_pos h400, if_pos (by rw [hleap]; tauto)]
    omega

lemma daysBeforeYear_le {year later : Nat} (hyear : 1 ≤ year) (h : year < later) :
    daysBeforeYear year + daysInYear year ≤ daysBeforeYear later := by
  induction later, h using Nat.le_induction with
  | base => rw [daysBeforeYear_succ hyear]
  | succ later hle ih =>
    rw [daysBeforeYear_succ (by omega)]
    omega

/-! ### Dates -/

/-- A date that exists, in some year behind the beginning of the calendar. -/
structure Proper (year month day : Nat) : Prop where
  year_pos : 1 ≤ year
  month_pos : 1 ≤ month
  month_le : month ≤ 12
  day_pos : 1 ≤ day
  day_le : day ≤ daysInMonth year month

lemma proper_of_isDate {year month day : Nat} (h : isDate year month day = true) :
    Proper year month day := by
  simp only [isDate, Bool.and_eq_true, decide_eq_true_eq] at h
  obtain ⟨⟨⟨⟨⟨hyear, -⟩, hmonth⟩, hmonth'⟩, hday⟩, hday'⟩ := h
  exact ⟨hyear, hmonth, hmonth', hday, hday'⟩

lemma dayNumber_first (year : Nat) : dayNumber year 1 1 = daysBeforeYear year + 1 := rfl

lemma dayNumber_eq (year month day : Nat) :
    dayNumber year month day = daysBeforeYear year + daysBeforeMonth year month + day := rfl

/-- A year begins with its first of January. -/
lemma dayNumber_bounds {year month day : Nat} (h : Proper year month day) :
    dayNumber year 1 1 ≤ dayNumber year month day ∧
      dayNumber year month day < dayNumber year 1 1 + daysInYear year := by
  have hday := h.day_pos
  have hday' := h.day_le
  have hlast := daysBeforeMonth_last year
  rw [dayNumber_first, dayNumber_eq]
  refine ⟨by omega, ?_⟩
  rcases h.month_le.eq_or_lt with rfl | hmonth
  · omega
  · have hbefore : daysBeforeMonth year month + daysInMonth year month ≤ daysBeforeMonth year 12 :=
      daysBeforeMonth_le h.month_pos hmonth
    omega

lemma dayNumber_lt_of_year {year month day year' month' day' : Nat} (h : Proper year month day)
    (h' : Proper year' month' day') (hyear : year < year') :
    dayNumber year month day < dayNumber year' month' day' := by
  obtain ⟨-, hlast⟩ := dayNumber_bounds h
  obtain ⟨hfirst, -⟩ := dayNumber_bounds h'
  have := daysBeforeYear_le h.year_pos hyear
  rw [dayNumber_first] at hfirst hlast
  omega

lemma dayNumber_lt_of_month {year month day month' day' : Nat} (h : Proper year month day)
    (h' : Proper year month' day') (hmonth : month < month') :
    dayNumber year month day < dayNumber year month' day' := by
  have hbefore :
      daysBeforeMonth year month + daysInMonth year month ≤ daysBeforeMonth year month' :=
    daysBeforeMonth_le h.month_pos hmonth
  have := h.day_le
  have := h'.day_pos
  rw [dayNumber_eq, dayNumber_eq]
  omega

/-! ### Weeks -/

/-- The first week of a year begins at most three days before or behind the beginning of the
year. -/
lemma firstMonday_bounds (year : Nat) :
    (dayNumber year 1 1 : Int) - 3 ≤ firstMonday year ∧
      firstMonday year ≤ dayNumber year 1 1 + 3 := by
  unfold firstMonday weekday
  dsimp only
  split_ifs <;> omega

/-- ISO years are about as long as years. -/
lemma firstMonday_succ {year : Nat} (h : 1 ≤ year) :
    firstMonday year + 359 ≤ firstMonday (year + 1) := by
  have hnext := daysBeforeYear_succ h
  obtain ⟨hlength, -⟩ := daysInYear_bounds year
  obtain ⟨-, hlate⟩ := firstMonday_bounds year
  obtain ⟨hearly, -⟩ := firstMonday_bounds (year + 1)
  rw [dayNumber_first] at hlate hearly
  omega

lemma firstMonday_le {year later : Nat} (hyear : 1 ≤ year) (h : year ≤ later) :
    firstMonday year ≤ firstMonday later := by
  induction later, h using Nat.le_induction with
  | base => exact Int.le_refl _
  | succ later hle ih =>
    have := firstMonday_succ (hyear.trans hle)
    omega

/-- A numbered day is in a week of an ISO year: the week is counted from the first Monday, and the
next ISO year has not begun. -/
structure InWeek (number year week : Nat) : Prop where
  year_pos : 1 ≤ year
  week_pos : 1 ≤ week
  monday_le : firstMonday year + 7 * ((week : Int) - 1) ≤ number
  lt_monday : (number : Int) < firstMonday year + 7 * week
  lt_next : (number : Int) < firstMonday (year + 1)

/-- **A date is in its ISO week.** -/
theorem inWeek_isoWeek {year month day : Nat} (h : Proper year month day) :
    InWeek (dayNumber year month day) (isoWeek year month day).1 (isoWeek year month day).2 := by
  have hyear := h.year_pos
  obtain ⟨hfirst, hlast⟩ := dayNumber_bounds h
  obtain ⟨hlength, hlength'⟩ := daysInYear_bounds year
  have hnext := daysBeforeYear_succ hyear
  rw [dayNumber_first] at hfirst hlast
  unfold isoWeek
  dsimp only
  split_ifs with hbefore hbehind
  · -- the calendar begins on a Monday, so there is a year before
    have hbehindFirst : year ≠ 1 := by
      rintro rfl
      have : firstMonday 1 = 1 := by decide
      omega
    obtain ⟨y, rfl⟩ : ∃ y, year = y + 2 := ⟨year - 2, by omega⟩
    have hprevious : daysBeforeYear (y + 2) = daysBeforeYear (y + 1) + daysInYear (y + 1) :=
      daysBeforeYear_succ (Nat.le_add_left 1 y)
    obtain ⟨hlength, -⟩ := daysInYear_bounds (y + 1)
    obtain ⟨-, hlate⟩ := firstMonday_bounds (y + 1)
    rw [dayNumber_first] at hlate
    show InWeek _ (y + 1) (((_ : Int) - firstMonday (y + 1)) / 7).toNat.succ
    constructor <;> omega
  · obtain ⟨hearly, -⟩ := firstMonday_bounds (year + 1)
    have hgap := firstMonday_succ (Nat.le_add_left 1 year)
    rw [dayNumber_first] at hearly
    constructor <;> dsimp only <;> omega
  · constructor <;> dsimp only <;> omega

/-- Days of a later ISO week come later. -/
lemma InWeek.lt {number year week number' year' week' : Nat} (h : InWeek number year week)
    (h' : InWeek number' year' week') (hlt : year < year' ∨ year = year' ∧ week < week') :
    number < number' := by
  have hmonday := h'.monday_le
  rcases hlt with hyear | ⟨rfl, hweek⟩
  · have := firstMonday_le (Nat.le_add_left 1 year) hyear
    have := h.lt_next
    have := h'.week_pos
    omega
  · have := h.lt_monday
    omega

end Calendar

/-! ### Clocks -/

namespace Moment

/-- A moment that exists: its date is in the calendar and its time is within a day. -/
structure Proper (m : Moment) : Prop where
  date : Calendar.Proper m.year m.month m.day
  hour_lt : m.hour < 24
  minute_lt : m.minute < 60
  second_lt : m.second < 60
  micro_lt : m.micro < 1000000

lemma proper_of_valid {m : Moment} (h : m.valid = true) : m.Proper := by
  simp only [valid, Bool.and_eq_true, decide_eq_true_eq] at h
  obtain ⟨⟨⟨⟨hdate, hhour⟩, hminute⟩, hsecond⟩, hmicro⟩ := h
  exact ⟨Calendar.proper_of_isDate hdate, hhour, hminute, hsecond, hmicro⟩

/-- The number of the day of a moment. -/
def dayNumber (m : Moment) : Nat := Calendar.dayNumber m.year m.month m.day

lemma clock_eq (m : Moment) : m.clock = (((m.dayNumber : Int) - 719163) * 86400 +
    ((m.hour * 60 + m.minute) * 60 + m.second : Nat)) * 1000000 + m.micro := rfl

variable {a b : Moment}

/-- A clock shows less on an earlier day. -/
lemma clock_lt_of_dayNumber (ha : a.Proper) (h : a.dayNumber < b.dayNumber) :
    a.clock < b.clock := by
  obtain ⟨-, hhour, hminute, hsecond, hmicro⟩ := ha
  rw [clock_eq, clock_eq]
  omega

/-- A clock shows less at an earlier hour of a day. -/
lemma clock_lt_of_hour (ha : a.Proper) (hday : a.dayNumber = b.dayNumber) (h : a.hour < b.hour) :
    a.clock < b.clock := by
  obtain ⟨-, hhour, hminute, hsecond, hmicro⟩ := ha
  rw [clock_eq, clock_eq]
  omega

/-- Dates and hours are ordered field by field. -/
lemma clock_lt_of_fields (ha : a.Proper) (hb : b.Proper)
    (h : a.year < b.year ∨ a.year = b.year ∧ (a.month < b.month ∨ a.month = b.month ∧
      (a.day < b.day ∨ a.day = b.day ∧ a.hour < b.hour))) : a.clock < b.clock := by
  obtain ⟨hdate, hdate'⟩ := And.intro ha.date hb.date
  rcases h with hyear | ⟨hyear, hmonth | ⟨hmonth, hday | ⟨hday, hhour⟩⟩⟩
  · exact clock_lt_of_dayNumber ha (Calendar.dayNumber_lt_of_year hdate hdate' hyear)
  · refine clock_lt_of_dayNumber ha ?_
    rw [hyear] at hdate
    rw [dayNumber, hyear]
    exact Calendar.dayNumber_lt_of_month hdate hdate' hmonth
  · refine clock_lt_of_dayNumber ha ?_
    rw [dayNumber, dayNumber, hyear, hmonth, Calendar.dayNumber_eq, Calendar.dayNumber_eq]
    omega
  · refine clock_lt_of_hour ha ?_ hhour
    rw [dayNumber, dayNumber, hyear, hmonth, hday]

end Moment

end BackupSteward
