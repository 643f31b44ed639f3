import BackupSteward.Proofs.Time.Calendar
import BackupSteward.Proofs.Time.Reading
import Mathlib.Algebra.Order.Floor.Ring
import Mathlib.Data.Rat.Floor
import Mathlib.Tactic.Linarith
import Mathlib.Tactic.Ring

/-!
# Time stamps

The engine prints a moment as a date, a time with a fraction of any length, and an offset.  A
fraction may say more than a moment keeps, so the file gives a time stamp two readings: the instant
it denotes exactly, and the moment in which the fraction is cut to microseconds.  The main statement
is that a time stamp is read as this moment, that a moment is read back from its own text, and that
cutting keeps the order of instants, also between clocks of different offsets.
-/

namespace BackupSteward

/-- The digits of a fraction of a second, behind the point. -/
abbrev Fraction := List (Fin 10)

namespace Fraction

/-- The characters of some digits. -/
def digits (ds : Fraction) : List Char := ds.map fun d : Fin 10 => Nat.digitChar d

/-- A fraction as it is written; one without digits is not. -/
def chars (ds : Fraction) : List Char := if ds.isEmpty then [] else '.' :: ds.digits

/-- The number that the first digits of a fraction write, with zeros for those that it does not
have. -/
def leading : (count : Nat) → Fraction → Nat
  | 0, _ => 0
  | _ + 1, [] => 0
  | count + 1, d :: ds => d * 10 ^ count + leading count ds

/-- The exact value of a fraction. -/
def value : Fraction → Rat
  | [] => 0
  | d :: ds => ((d : Nat) + value ds) / 10

/-- The first six digits of a fraction, filled up with zeros. -/
def sixDigits (ds : Fraction) : List Char :=
  ds.digits.take 6 ++ List.replicate (6 - ds.length) '0'

lemma length_digits (ds : Fraction) : ds.digits.length = ds.length := List.length_map _

lemma isDigit_digits (ds : Fraction) : ∀ c ∈ ds.digits, c.isDigit = true := by
  intro c hc
  obtain ⟨d, -, rfl⟩ := List.mem_map.1 hc
  rw [Nat.isDigit_digitChar, decide_eq_true d.isLt]

/-- All digits are those of a fraction. -/
lemma exists_digits_eq {cs : List Char} (hcs : ∀ c ∈ cs, c.isDigit = true) :
    ∃ ds : Fraction, ds.digits = cs := by
  induction cs with
  | nil => exact ⟨[], rfl⟩
  | cons c cs ih =>
    obtain ⟨hc, hcs⟩ := List.forall_mem_cons.1 hcs
    obtain ⟨ds, rfl⟩ := ih hcs
    have hbounds := Text.toNat_of_isDigit hc
    have hlt : c.toNat - 48 < 10 := by omega
    have hchar : Nat.digitChar (c.toNat - 48) = c := by
      apply Char.toNat_inj.1
      rw [Nat.toNat_digitChar_of_lt_ten hlt]
      omega
    refine ⟨⟨c.toNat - 48, hlt⟩ :: ds, ?_⟩
    rw [digits, List.map_cons, hchar]
    rfl

/-! ### Cutting -/

lemma leading_nil (count : Nat) : leading count [] = 0 := by cases count <;> rfl

lemma leading_lt (count : Nat) (ds : Fraction) : leading count ds < 10 ^ count := by
  induction count generalizing ds with
  | zero => exact Nat.one_pos
  | succ count ih =>
    cases ds with
    | nil => exact Nat.pow_pos (by omega)
    | cons d ds =>
      have hd : (d : Nat) ≤ 9 := by omega
      have hfirst := Nat.mul_le_mul_right (10 ^ count) hd
      have hrest := ih ds
      rw [leading, Nat.pow_succ]
      omega

lemma value_bounds (ds : Fraction) : 0 ≤ value ds ∧ value ds < 1 := by
  induction ds with
  | nil => exact ⟨le_refl _, one_pos⟩
  | cons d ds ih =>
    obtain ⟨hnonneg, hlt⟩ := ih
    have hd : ((d : Nat) : Rat) ≤ 9 := by exact_mod_cast (by omega : (d : Nat) ≤ 9)
    have hd' : (0 : Rat) ≤ (d : Nat) := Nat.cast_nonneg _
    rw [value]
    constructor <;> linarith

/-- **Cutting a fraction rounds down.** -/
theorem floor_value (count : Nat) (ds : Fraction) : ⌊value ds * 10 ^ count⌋ = leading count ds := by
  induction count generalizing ds with
  | zero =>
    obtain ⟨hnonneg, hlt⟩ := value_bounds ds
    rw [pow_zero, mul_one, leading, Int.floor_eq_iff]
    constructor <;> push_cast <;> linarith
  | succ count ih =>
    cases ds with
    | nil => simp [value, leading]
    | cons d ds =>
      have hscaled : value (d :: ds) * 10 ^ (count + 1) =
          ((d * 10 ^ count : Nat) : Rat) + value ds * 10 ^ count := by
        rw [value, pow_succ]
        push_cast
        ring
      rw [hscaled, Int.floor_natCast_add, ih, leading]
      push_cast
      rfl

/-- The digits that are kept write the number that counts. -/
lemma ofDigitChars_take (count : Nat) (ds : Fraction) (n : Nat) :
    Nat.ofDigitChars 10 (ds.digits.take count ++ List.replicate (count - ds.length) '0') n =
      n * 10 ^ count + leading count ds := by
  induction count generalizing ds n with
  | zero => simp [leading, Nat.ofDigitChars]
  | succ count ih =>
    cases ds with
    | nil =>
      have hrest := ih [] (10 * n)
      simp only [digits, leading_nil, List.map_nil, List.take_nil, List.nil_append, List.length_nil,
        Nat.sub_zero, List.replicate_succ, Nat.ofDigitChars_cons, Nat.sub_self, Nat.add_zero]
        at hrest ⊢
      rw [hrest, pow_succ]
      ring
    | cons d ds =>
      have hdigits : digits (d :: ds) = Nat.digitChar d :: digits ds := rfl
      rw [hdigits, List.take_succ_cons, List.length_cons, Nat.add_sub_add_right, List.cons_append,
        Nat.ofDigitChars_cons_digitChar_of_lt_ten d.isLt, ih, leading, pow_succ]
      ring

lemma ofDigitChars_sixDigits (ds : Fraction) :
    Nat.ofDigitChars 10 ds.sixDigits 0 = leading 6 ds := by
  rw [sixDigits, ofDigitChars_take, Nat.zero_mul, Nat.zero_add]

lemma length_sixDigits (ds : Fraction) : ds.sixDigits.length = 6 := by
  rw [sixDigits, List.length_append, List.length_take, List.length_replicate, length_digits]
  omega

lemma isDigit_sixDigits (ds : Fraction) : ∀ c ∈ ds.sixDigits, c.isDigit = true := by
  intro c hc
  rcases List.mem_append.1 hc with hc | hc
  · exact isDigit_digits ds c (List.mem_of_mem_take hc)
  · rw [(List.mem_replicate.1 hc).2]
    rfl

end Fraction

/-! ### Zones -/

/-- What a time stamp says about its clock. -/
inductive Zone where
  /-- The clock shows universal time. -/
  | zulu
  /-- The clock is ahead of universal time by some hours and minutes, or behind it. -/
  | shifted (behind : Bool) (hours : Fin 24) (minutes : Fin 60)

namespace Zone

/-- A zone as it is written. -/
def chars : Zone → List Char
  | zulu => ['Z']
  | shifted behind hours minutes =>
    (if behind then '-' else '+') :: (Moment.field 2 hours ++ ':' :: Moment.field 2 minutes)

/-- How many minutes the clock is ahead of universal time. -/
def ahead : Zone → Int
  | zulu => 0
  | shifted behind hours minutes =>
    let minutes : Nat := hours * 60 + minutes
    if behind then -minutes else minutes

/-- The same zone by hours and minutes. -/
def spelledOut : Zone → Zone
  | zulu => shifted false 0 0
  | shifted behind hours minutes => shifted behind hours minutes

end Zone

/-! ### Time stamps -/

/-- A time stamp of the engine. -/
structure Timestamp where
  year : Nat
  month : Nat
  day : Nat
  hour : Fin 24
  minute : Fin 60
  second : Fin 60
  fraction : Fraction
  zone : Zone
  isDate : Calendar.isDate year month day = true

namespace Timestamp

/-- A time stamp as it is written. -/
def chars (t : Timestamp) : List Char :=
  Moment.dateChars t.year t.month t.day ++ 'T' ::
    (Moment.clockChars t.hour t.minute t.second ++ t.fraction.chars ++ t.zone.chars)

/-- A text holds a time stamp, with white space around it or not. -/
def WrittenIn (t : Timestamp) (text : String) : Prop :=
  ∃ before after : List Char, before.all Text.isBlank = true ∧ after.all Text.isBlank = true ∧
    text.toList = before ++ t.chars ++ after

/-- The moment of a time stamp: its fields, with the first six digits of the fraction as
microseconds. -/
def moment (t : Timestamp) : Moment where
  year := t.year
  month := t.month
  day := t.day
  hour := t.hour
  minute := t.minute
  second := t.second
  micro := t.fraction.leading 6
  offset := t.zone.ahead * 60000000

/-- The instant that a time stamp denotes, in seconds since the beginning of 1970. -/
def instant (t : Timestamp) : Rat :=
  ((((Calendar.dayNumber t.year t.month t.day : Int) - Moment.epochDay) * 1440 +
    (t.hour * 60 + t.minute : Nat) - t.zone.ahead) * 60 + (t.second : Nat) : Int) + t.fraction.value

end Timestamp

/-! ### Characters -/

lemma beginsOffset_of_isDigit {c : Char} (h : c.isDigit = true) :
    Moment.beginsOffset c = false := by
  have hplus : c ≠ '+' := Text.ne_of_isDigit h rfl
  have hminus : c ≠ '-' := Text.ne_of_isDigit h rfl
  have hzulu : c ≠ 'Z' := Text.ne_of_isDigit h rfl
  simp [Moment.beginsOffset, hplus, hminus, hzulu]

namespace Zone

variable (zone : Zone)

/-- A zone by hours and minutes ends with a digit. -/
lemma exists_getLast?_append (behind : Bool) (hours : Fin 24) (minutes : Fin 60) (cs : List Char) :
    ∃ c, (cs ++ (shifted behind hours minutes).chars).getLast? = some c ∧ c.isDigit = true := by
  have hchars : cs ++ (shifted behind hours minutes).chars =
      cs ++ (if behind then '-' else '+') :: (Moment.field 2 hours ++ [':']) ++
        Moment.field 2 minutes := by
    simp [chars]
  rw [hchars]
  exact Moment.exists_getLast?_append_field _ 2 minutes

lemma spellZulu_chars (cs : List Char) :
    Moment.spellZulu (cs ++ zone.chars) = cs ++ zone.spelledOut.chars := by
  cases zone with
  | zulu => exact Moment.spellZulu_zulu cs
  | shifted behind hours minutes =>
    obtain ⟨c, hlast, hc⟩ := exists_getLast?_append behind hours minutes cs
    exact Moment.spellZulu_digit hc hlast

lemma isBlank_last {c : Char} (cs : List Char) (h : (cs ++ zone.chars).getLast? = some c) :
    Text.isBlank c = false := by
  cases zone with
  | zulu =>
    rw [chars, List.getLast?_concat] at h
    cases h
    rfl
  | shifted behind hours minutes =>
    obtain ⟨d, hlast, hd⟩ := exists_getLast?_append behind hours minutes cs
    cases hlast.symm.trans h
    exact Text.isBlank_of_isDigit hd

lemma ahead_spelledOut : zone.spelledOut.ahead = zone.ahead := by cases zone <;> rfl

/-- A zone written by hours and minutes ends the time in front of it and is read as its offset. -/
lemma time?_append {cs : List Char} {r : Moment.ClockReading}
    (hcs : ∀ c ∈ cs, Moment.beginsOffset c = false) (hread : Moment.clock? cs = some r) :
    Moment.time? (cs ++ zone.spelledOut.chars) = some (r, zone.ahead * 60000000) := by
  obtain ⟨behind, hours, minutes, hzone⟩ : ∃ behind hours minutes,
      zone.spelledOut = shifted behind hours minutes := by
    cases zone <;> exact ⟨_, _, _, rfl⟩
  have hoffset : Moment.offset? (if behind then '-' else '+')
      (Moment.field 2 hours ++ ':' :: Moment.field 2 minutes) =
        some ((shifted behind hours minutes).ahead * 60000000) := by
    rw [Moment.offset?_minutes hours.isLt minutes.isLt (by cases behind <;> decide), ahead]
    cases behind with
    | false => rw [if_neg Bool.false_ne_true, if_neg (by decide), if_neg Bool.false_ne_true]
    | true => rw [if_pos rfl, if_pos rfl, if_pos rfl, Int.neg_mul]
  rw [← ahead_spelledOut, hzone, chars,
    Moment.time?_append hcs (by cases behind <;> rfl), hread, hoffset]
  rfl

lemma isDigit_head : ∀ c ∈ zone.chars.head?, Text.isDigit c = false := by
  rcases zone with _ | ⟨_ | _, hours, minutes⟩ <;> rintro c ⟨⟩ <;> decide

lemma notMem_chars : '.' ∉ zone.chars := by
  cases zone with
  | zulu => decide
  | shifted behind hours minutes =>
    have hhours : '.' ∉ Moment.field 2 hours := Moment.notMem_field rfl
    have hminutes : '.' ∉ Moment.field 2 minutes := Moment.notMem_field rfl
    cases behind <;> simp [chars, hhours, hminutes]

end Zone

namespace Fraction

variable (ds : Fraction)

/-- A fraction as it is read: with six digits, if there is one. -/
def cut : List Char := if ds.isEmpty then [] else '.' :: sixDigits ds

lemma cutFraction_chars {rest : List Char} (hpoint : '.' ∉ rest)
    (hrest : ∀ c ∈ rest.head?, Text.isDigit c = false) :
    Moment.cutFraction (chars ds ++ rest) = cut ds ++ rest := by
  cases ds with
  | nil => exact Moment.cutFraction_of_notMem hpoint
  | cons d ds =>
    have hne : digits (d :: ds) ≠ [] := List.cons_ne_nil _ _
    have hcut := Moment.cutFraction_point hne
      (fun c hc => Text.isDigit_of_isDigit (isDigit_digits (d :: ds) c hc)) hrest
    rw [length_digits] at hcut
    exact hcut

lemma clock?_append {hour minute second : Nat} (hhour : hour < 24) (hminute : minute < 60)
    (hsecond : second < 60) : Moment.clock? (Moment.clockChars hour minute second ++ cut ds) =
      some ⟨hour, minute, second, leading 6 ds, false⟩ := by
  cases ds with
  | nil =>
    rw [cut, List.isEmpty_nil, if_pos rfl, List.append_nil]
    exact Moment.clock?_seconds (by omega) (by omega) (by omega)
  | cons d ds =>
    rw [← ofDigitChars_sixDigits]
    exact Moment.clock?_fraction (by omega) (by omega) (by omega) (length_sixDigits _)
      (isDigit_sixDigits _)

lemma beginsOffset_cut : ∀ c ∈ cut ds, Moment.beginsOffset c = false := by
  intro c hc
  unfold cut at hc
  split at hc
  · cases hc
  · rcases List.mem_cons.1 hc with rfl | hc
    · rfl
    · exact beginsOffset_of_isDigit (isDigit_sixDigits _ c hc)

end Fraction

namespace Timestamp

variable (t : Timestamp)

lemma date_bounds : t.year < 10 ^ 4 ∧ t.month < 10 ^ 2 ∧ t.day < 10 ^ 2 := by
  have hdate := t.isDate
  have hlength : Calendar.daysInMonth t.year t.month ≤ 31 := by
    unfold Calendar.daysInMonth
    split
    · split <;> omega
    all_goals omega
  simp only [Calendar.isDate, Bool.and_eq_true, decide_eq_true_eq] at hdate
  omega

lemma valid_moment : t.moment.valid = true := by
  have hmicro := Fraction.leading_lt 6 t.fraction
  simp only [Moment.valid, moment, t.isDate, Fin.is_lt, decide_true, Bool.true_and]
  exact decide_eq_true hmicro

lemma trim_text {text : String} (h : t.WrittenIn text) : Text.trim text.toList = t.chars := by
  obtain ⟨before, after, hbefore, hafter, htext⟩ := h
  rw [htext]
  refine Text.trim_surrounded hbefore hafter (fun c hc => ?_) fun c hc => ?_
  · obtain ⟨d, ds, hyear, hd⟩ := Moment.exists_field_eq 4 t.year
    rw [chars, Moment.dateChars, hyear] at hc
    cases hc
    exact Text.isBlank_of_isDigit hd
  · rw [chars, ← List.cons_append, ← List.append_assoc] at hc
    exact t.zone.isBlank_last _ hc

/-- What is in front of the fraction of a time stamp. -/
def front : List Char :=
  Moment.dateChars t.year t.month t.day ++ 'T' :: Moment.clockChars t.hour t.minute t.second

lemma chars_eq : t.chars = t.front ++ (t.fraction.chars ++ t.zone.chars) := by
  simp [chars, front]

lemma notMem_front : '.' ∉ t.front := by
  have hfield (width n : Nat) : '.' ∉ Moment.field width n := Moment.notMem_field rfl
  simp [front, Moment.dateChars, Moment.clockChars, hfield]

/-- A time stamp whose zone is spelled out and whose fraction has six digits. -/
lemma cutFraction_spellZulu : Moment.cutFraction (Moment.spellZulu t.chars) =
    t.front ++ (t.fraction.cut ++ t.zone.spelledOut.chars) := by
  rw [chars_eq, ← List.append_assoc, Zone.spellZulu_chars, List.append_assoc,
    Moment.cutFraction_append t.notMem_front,
    Fraction.cutFraction_chars _ t.zone.spelledOut.notMem_chars
      t.zone.spelledOut.isDigit_head]

lemma time?_eq : Moment.time? (Moment.clockChars t.hour t.minute t.second ++
      (t.fraction.cut ++ t.zone.spelledOut.chars)) =
    some (⟨t.hour, t.minute, t.second, t.fraction.leading 6, false⟩, t.zone.ahead * 60000000) := by
  rw [← List.append_assoc]
  refine t.zone.time?_append (fun c hc => ?_)
    (t.fraction.clock?_append t.hour.isLt t.minute.isLt t.second.isLt)
  rcases List.mem_append.1 hc with hc | hc
  · have hfield (width n : Nat) (h : c ∈ Moment.field width n) : Moment.beginsOffset c = false :=
      beginsOffset_of_isDigit (Moment.isDigit_field width n c h)
    simp only [Moment.clockChars, List.mem_append, List.mem_cons] at hc
    rcases hc with h | rfl | h | rfl | h
    · exact hfield _ _ h
    · rfl
    · exact hfield _ _ h
    · rfl
    · exact hfield _ _ h
  · exact t.fraction.beginsOffset_cut c hc

/-- A text that holds a time stamp is read as its moment. -/
lemma ofText?_eq {text : String} (h : t.WrittenIn text) : Moment.ofText? text = some t.moment := by
  obtain ⟨hyear, hmonth, hday⟩ := t.date_bounds
  have hread := Moment.readChars?_append hyear hmonth hday t.time?_eq 'T'
  rw [Moment.ofText?, t.trim_text h, cutFraction_spellZulu, front, List.append_assoc,
    List.cons_append, hread]
  exact if_pos t.valid_moment

/-! ### Instants -/

/-- Cutting the fraction of a time stamp rounds its instant down to a microsecond. -/
lemma instant_moment : t.moment.instant = ⌊t.instant * 1000000⌋ := by
  have hscaled : t.instant * 1000000 =
      (((((Calendar.dayNumber t.year t.month t.day : Int) - Moment.epochDay) * 1440 +
        (t.hour * 60 + t.minute : Nat) - t.zone.ahead) * 60 + (t.second : Nat)) * 1000000 : Int) +
      t.fraction.value * 10 ^ 6 := by
    rw [instant]
    push_cast
    ring
  rw [hscaled, Int.floor_intCast_add, Fraction.floor_value]
  simp only [Moment.instant, Moment.clock, moment]
  push_cast
  ring

lemma instant_moment_le {s t : Timestamp} (h : s.instant ≤ t.instant) :
    s.moment.instant ≤ t.moment.instant := by
  rw [instant_moment, instant_moment]
  exact Int.floor_le_floor (by linarith)

end Timestamp

/-! ### Moments as text -/

namespace Moment

/-- The clock of a moment is ahead of universal time, or behind it, by whole minutes and less than a
day. -/
def OnMinute (m : Moment) : Prop :=
  ∃ minutes : Int, minutes.natAbs < 1440 ∧ m.offset = minutes * 60000000

lemma toList_offsetText {minutes : Int} (h : minutes.natAbs < 1440) :
    (offsetText (minutes * 60000000)).toList = (Zone.shifted (decide (minutes < 0))
      ⟨minutes.natAbs / 60, by omega⟩ ⟨minutes.natAbs % 60, by omega⟩).chars := by
  have hseconds : (minutes * 60000000).natAbs / 1000000 = minutes.natAbs * 60 := by omega
  have hmicros : (minutes * 60000000).natAbs % 1000000 = 0 := by omega
  have hhours : minutes.natAbs * 60 / 3600 = minutes.natAbs / 60 := by omega
  have hminutes : minutes.natAbs * 60 / 60 % 60 = minutes.natAbs % 60 := by omega
  have hsign : minutes * 60000000 < 0 ↔ minutes < 0 := by omega
  rw [offsetText, hseconds, hmicros, hhours, hminutes, if_pos ⟨by omega, rfl⟩]
  by_cases hbehind : minutes < 0
  · simp [Zone.chars, field, hsign, hbehind]
  · simp [Zone.chars, field, hsign, hbehind]

/-- The fraction of a moment is written as one of a time stamp. -/
lemma exists_fraction {micros : Nat} (h : micros < 1000000) :
    ∃ ds : Fraction, ds.chars = (Duration.fractionText micros).toList ∧ ds.leading 6 = micros := by
  by_cases hnone : micros = 0
  · exact ⟨[], by simp [Duration.fractionText, hnone, Fraction.chars],
      by rw [Fraction.leading_nil, hnone]⟩
  · obtain ⟨ds, hds⟩ := Fraction.exists_digits_eq (isDigit_field 6 micros)
    have hlength : ds.length = 6 := by
      rw [← Fraction.length_digits, hds, length_field (by omega) h]
    have hsix : ds.sixDigits = ds.digits := by
      rw [Fraction.sixDigits, hlength,
        List.take_of_length_le (by rw [Fraction.length_digits, hlength])]
      exact List.append_nil _
    refine ⟨ds, ?_, ?_⟩
    · have hne : ds ≠ [] := by
        rintro rfl
        cases hlength
      rw [Fraction.chars, hds, if_neg (by simpa using hne), Duration.fractionText, if_neg hnone]
      simp [field]
    · rw [← Fraction.ofDigitChars_sixDigits, hsix, hds, ofDigitChars_field]

/-- The text of a moment is a time stamp. -/
lemma exists_timestamp {m : Moment} (hvalid : m.valid = true) (hminute : m.OnMinute) :
    ∃ t : Timestamp, t.chars = m.text.toList ∧ t.moment = m := by
  obtain ⟨minutes, hminutes, hoffset⟩ := hminute
  simp only [valid, Bool.and_eq_true, decide_eq_true_eq] at hvalid
  obtain ⟨⟨⟨⟨hdate, hhour⟩, hminute⟩, hsecond⟩, hmicro⟩ := hvalid
  obtain ⟨ds, hds, hleading⟩ := exists_fraction hmicro
  refine ⟨⟨m.year, m.month, m.day, ⟨m.hour, hhour⟩, ⟨m.minute, hminute⟩, ⟨m.second, hsecond⟩, ds,
    .shifted (decide (minutes < 0)) ⟨minutes.natAbs / 60, by omega⟩ ⟨minutes.natAbs % 60, by omega⟩,
    hdate⟩, ?_, ?_⟩
  · rw [Timestamp.chars, ← toList_offsetText hminutes, ← hoffset, hds]
    simp [text, dateChars, clockChars, field]
  · have hahead : (Zone.shifted (decide (minutes < 0)) ⟨minutes.natAbs / 60, by omega⟩
        ⟨minutes.natAbs % 60, by omega⟩).ahead = minutes := by
      simp only [Zone.ahead, decide_eq_true_eq]
      split <;> omega
    rw [Timestamp.moment, hahead, ← hoffset, hleading]

end Moment

/-! ### Reading time stamps -/

/-- **Time stamps are read as they are written, and their fractions are cut.**  The moment that is
read has the fields of the time stamp, and as microseconds the first six digits of the fraction with
zeros for those that are missing, which is the fraction rounded down.  So a moment is read back from
its text, and of two time stamps the one that is not later is not later as it is read. -/
theorem timestamps_read :
    (∀ (t : Timestamp) (text : String), t.WrittenIn text → Moment.ofText? text = some t.moment ∧
      (t.moment.micro : Int) = ⌊t.fraction.value * 10 ^ 6⌋) ∧
    (∀ m : Moment, m.valid = true → m.OnMinute → Moment.ofText? m.text = some m) ∧
    ∀ (s t : Timestamp) (earlier later : String), s.WrittenIn earlier → t.WrittenIn later →
      s.instant ≤ t.instant → ∃ a b, Moment.ofText? earlier = some a ∧
        Moment.ofText? later = some b ∧ a.instant ≤ b.instant := by
  refine ⟨fun t text htext => ⟨t.ofText?_eq htext, (Fraction.floor_value 6 t.fraction).symm⟩,
    fun m hvalid hminute => ?_, fun s t earlier later hs ht hle => ?_⟩
  · obtain ⟨t, hchars, rfl⟩ := Moment.exists_timestamp hvalid hminute
    exact t.ofText?_eq ⟨[], [], rfl, rfl, by simp [hchars]⟩
  · exact ⟨_, _, s.ofText?_eq hs, t.ofText?_eq ht, Timestamp.instant_moment_le hle⟩

/-- A seventh digit counts for the instant of a time stamp, but not for what is read of it. -/
theorem timestamps_read_seventh_digit :
    let s : Timestamp := ⟨2026, 2, 3, 4, 5, 6, [9, 9, 9, 9, 9, 9, 9], .shifted false 1 0, by decide⟩
    let t : Timestamp := ⟨2026, 2, 3, 3, 5, 7, [], .zulu, by decide⟩
    let m : Moment := ⟨2026, 2, 3, 4, 5, 6, 999999, 3600000000⟩
    (s.WrittenIn " 2026-02-03T04:05:06.9999999+01:00\n" ∧
      Moment.ofText? " 2026-02-03T04:05:06.9999999+01:00\n" = some m) ∧
    (m.valid = true ∧ m.OnMinute ∧ Moment.ofText? m.text = some m) ∧
    t.WrittenIn "2026-02-03T03:05:07Z" ∧ s.instant ≤ t.instant ∧ ∃ a b,
      Moment.ofText? " 2026-02-03T04:05:06.9999999+01:00\n" = some a ∧
        Moment.ofText? "2026-02-03T03:05:07Z" = some b ∧ a.instant ≤ b.instant := by
  intro s t m
  have hs : s.WrittenIn " 2026-02-03T04:05:06.9999999+01:00\n" :=
    ⟨[' '], ['\n'], by decide, by decide, by decide +kernel⟩
  have ht : t.WrittenIn "2026-02-03T03:05:07Z" := ⟨[], [], rfl, rfl, by decide +kernel⟩
  have hminute : m.OnMinute := ⟨60, by decide, by decide⟩
  have hle : s.instant ≤ t.instant := by decide +kernel
  obtain ⟨hreads, hreadsBack, hordered⟩ := timestamps_read
  exact ⟨⟨hs, (hreads s _ hs).1⟩, ⟨by decide, hminute, hreadsBack m (by decide) hminute⟩, ht, hle,
    hordered s t _ _ hs ht hle⟩

end BackupSteward
