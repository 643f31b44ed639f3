import BackupSteward.Proofs.Text.Digits
import BackupSteward.Proofs.Text.Trimming
import BackupSteward.Time.Reader
import Mathlib.Algebra.Order.Ring.Nat
import Mathlib.Data.List.TakeDrop

/-!
# Reading the parts of a moment

A moment is read by its digits and by the characters between them.  The file says what becomes of
each part in the form in which it is printed: a number of fixed width, a date, a time with or
without a fraction of six digits, an offset of hours and minutes.  It also says what is done to a
text before that, to its first fraction and to a final `Z`.
-/

namespace BackupSteward.Moment

variable {width n : Nat} {cs rest : List Char}

/-! ### Numbers of fixed width -/

/-- The characters of a number with at least some digits. -/
def field (width n : Nat) : List Char := (Duration.padded width n).toList

lemma field_eq (width n : Nat) : field width n =
    List.replicate (width - (Nat.toDigits 10 n).length) '0' ++ Nat.toDigits 10 n := by
  simp [field, Duration.padded]

lemma isDigit_field (width n : Nat) : ∀ c ∈ field width n, c.isDigit = true := by
  intro c hc
  rw [field_eq, List.mem_append, List.mem_replicate] at hc
  rcases hc with ⟨-, rfl⟩ | hc
  · decide
  · exact Nat.isDigit_of_mem_toDigits (by omega) (by omega) hc

lemma length_field (hwidth : 0 < width) (h : n < 10 ^ width) : (field width n).length = width := by
  have hlength : (Nat.toDigits 10 n).length ≤ width :=
    (Nat.length_toDigits_le_iff (by omega) hwidth).2 h
  rw [field_eq, List.length_append, List.length_replicate]
  omega

lemma field_ne_nil (width n : Nat) : field width n ≠ [] := by
  rw [field_eq]
  exact List.append_ne_nil_of_right_ne_nil _ Nat.toDigits_ne_nil

/-- Zeros in front do not count. -/
lemma ofDigitChars_replicate (k : Nat) :
    Nat.ofDigitChars 10 (List.replicate k '0' ++ cs) 0 = Nat.ofDigitChars 10 cs 0 := by
  induction k with
  | zero => rfl
  | succ k ih => exact ih

lemma ofDigitChars_field : Nat.ofDigitChars 10 (field width n) 0 = n := by
  rw [field_eq, ofDigitChars_replicate, Nat.ofDigitChars_ten_toDigits]

lemma digits?_append (hcs : ∀ c ∈ cs, c.isDigit = true) (n : Nat) (rest : List Char) :
    digits? cs.length n (cs ++ rest) = some (Nat.ofDigitChars 10 cs n, rest) := by
  induction cs generalizing n with
  | nil => rfl
  | cons c cs ih =>
    obtain ⟨hc, hcs⟩ := List.forall_mem_cons.1 hcs
    have hvalue : n * 10 + (c.toNat - 48) = 10 * n + (c.toNat - '0'.toNat) := by
      rw [Nat.mul_comm]
      rfl
    rw [List.cons_append, List.length_cons, digits?, Text.asciiDigit?, if_pos hc]
    dsimp only
    rw [hvalue]
    exact ih hcs _

/-- A number of fixed width is read back. -/
lemma digits?_field (hwidth : 0 < width) (h : n < 10 ^ width) (rest : List Char) :
    digits? width 0 (field width n ++ rest) = some (n, rest) := by
  have hread := digits?_append (isDigit_field width n) 0 rest
  rwa [length_field hwidth h, ofDigitChars_field] at hread

/-- A number begins with a digit, so with none of the characters between numbers. -/
lemma exists_field_eq (width n : Nat) : ∃ c cs, field width n = c :: cs ∧ c.isDigit = true := by
  obtain ⟨c, cs, hcs⟩ := List.exists_cons_of_ne_nil (field_ne_nil width n)
  exact ⟨c, cs, hcs, isDigit_field width n c (hcs ▸ List.mem_cons_self)⟩

lemma notMem_field {d : Char} (hd : d.isDigit = false) : d ∉ field width n :=
  fun hmem => Text.ne_of_isDigit (isDigit_field width n d hmem) hd rfl

/-- A text that ends with a number ends with a digit. -/
lemma exists_getLast?_append_field (cs : List Char) (width n : Nat) :
    ∃ c, (cs ++ field width n).getLast? = some c ∧ c.isDigit = true := by
  have hlast := List.getLast?_eq_some_getLast (field_ne_nil width n)
  refine ⟨_, ?_, isDigit_field width n _ (List.getLast_mem (field_ne_nil width n))⟩
  rw [List.getLast?_append, hlast, Option.some_or]

/-! ### Dates -/

lemma hyphen?_cons : hyphen? true ('-' :: rest) = some rest := rfl

/-- The characters of a date. -/
def dateChars (year month day : Nat) : List Char :=
  field 4 year ++ '-' :: (field 2 month ++ '-' :: field 2 day)

section

variable {year month day : Nat} (hyear : year < 10 ^ 4) (hmonth : month < 10 ^ 2)
  (hday : day < 10 ^ 2)

include hyear hmonth hday

lemma length_dateChars : (dateChars year month day).length = 10 := by
  simp only [dateChars, List.length_append, List.length_cons, length_field (by omega) hyear,
    length_field (by omega) hmonth, length_field (by omega) hday]

/-- A date with hyphens that does not name a week has ten characters. -/
lemma dateLength?_dateChars (rest : List Char) :
    dateLength? (dateChars year month day ++ rest) = some 10 := by
  have hlength : (dateChars year month day ++ rest).length = 10 + rest.length := by
    rw [List.length_append, length_dateChars hyear hmonth hday]
  obtain ⟨c, cs, hcs, hc⟩ := exists_field_eq 2 month
  have hfour : (field 4 year).length = 4 := length_field (by omega) hyear
  have hhyphen : charAt (dateChars year month day ++ rest) 4 = '-' := by
    simp [charAt, dateChars, hfour]
  have hdigit : charAt (dateChars year month day ++ rest) 5 = c := by
    simp [charAt, dateChars, List.getElem?_append_right, hfour, hcs]
  have hweek : c ≠ 'W' := Text.ne_of_isDigit hc rfl
  simp only [dateLength?, hlength, hhyphen, hdigit, hweek, if_false, if_true]
  rw [if_neg (by omega), if_neg (by omega)]

lemma date?_dateChars (rest : List Char) :
    date? 10 (dateChars year month day ++ rest) = some (year, month, day) := by
  have hcs : dateChars year month day ++ rest =
      field 4 year ++ '-' :: (field 2 month ++ '-' :: (field 2 day ++ rest)) := by
    simp [dateChars]
  have hlength : (dateChars year month day ++ rest).length - rest.length = 10 := by
    rw [List.length_append, length_dateChars hyear hmonth hday]
    omega
  obtain ⟨c, more, hmore, hc⟩ := exists_field_eq 2 month
  -- behind the first hyphen stands a digit, so the date does not name a week
  have hmonthly : ∀ behind, field 2 month ++ '-' :: (field 2 day ++ rest) ≠ 'W' :: behind := by
    intro behind heq
    rw [hmore] at heq
    exact Text.ne_of_isDigit hc rfl (List.cons.inj heq).1
  rw [hcs] at hlength ⊢
  rw [date?, digits?_field (by omega) hyear]
  simp only [Option.bind_eq_bind, Option.bind_some, List.head?_cons, decide_true, hyphen?_cons,
    digits?_field (by omega) hmonth, digits?_field (by omega) hday, hlength, if_true]

end

/-! ### Times -/

/-- The characters of a time without its fraction. -/
def clockChars (hour minute second : Nat) : List Char :=
  field 2 hour ++ ':' :: (field 2 minute ++ ':' :: field 2 second)

lemma afterField_nil (colons : Bool) : afterField colons [] = .done false := rfl

lemma afterField_colon (h : rest ≠ []) : afterField true (':' :: rest) = .field rest := by
  simp [afterField, h]

lemma afterField_point (h : rest ≠ []) : afterField true ('.' :: rest) = .fraction rest := by
  simp [afterField, h]

/-- Six digits are a whole fraction. -/
lemma fraction?_six (hlength : cs.length = 6) (hdigits : ∀ c ∈ cs, c.isDigit = true) :
    fraction? cs = some (Nat.ofDigitChars 10 cs 0, []) := by
  have hread := digits?_append hdigits 0 []
  rw [List.append_nil, hlength] at hread
  simp [fraction?, hlength, hread]

section

variable {hour minute second : Nat} (hhour : hour < 10 ^ 2) (hminute : minute < 10 ^ 2)

include hhour hminute

lemma clock?_minutes : clock? (field 2 hour ++ ':' :: field 2 minute) =
    some ⟨hour, minute, 0, 0, false⟩ := by
  have hread := digits?_field (by omega) hminute []
  rw [List.append_nil] at hread
  rw [clock?, digits?_field (by omega) hhour]
  simp only [Option.bind_eq_bind, Option.bind_some, List.head?_cons, decide_true,
    afterField_colon (field_ne_nil _ _), hread, afterField_nil]

variable (hsecond : second < 10 ^ 2)

include hsecond

lemma clock?_seconds : clock? (clockChars hour minute second) =
    some ⟨hour, minute, second, 0, false⟩ := by
  have hread := digits?_field (by omega) hsecond []
  rw [List.append_nil] at hread
  rw [clock?, clockChars, digits?_field (by omega) hhour]
  simp only [Option.bind_eq_bind, Option.bind_some, List.head?_cons, decide_true,
    afterField_colon (field_ne_nil _ _),
    afterField_colon (List.append_ne_nil_of_left_ne_nil (field_ne_nil _ _) _),
    digits?_field (by omega : 0 < 2) hminute, hread, afterField_nil]

lemma clock?_fraction (hlength : cs.length = 6) (hdigits : ∀ c ∈ cs, c.isDigit = true) :
    clock? (clockChars hour minute second ++ '.' :: cs) =
      some ⟨hour, minute, second, Nat.ofDigitChars 10 cs 0, false⟩ := by
  have hne : cs ≠ [] := by
    rintro rfl
    cases hlength
  have hcs : clockChars hour minute second ++ '.' :: cs =
      field 2 hour ++ ':' :: (field 2 minute ++ ':' :: (field 2 second ++ '.' :: cs)) := by
    simp [clockChars]
  rw [clock?, hcs, digits?_field (by omega) hhour]
  simp only [Option.bind_eq_bind, Option.bind_some, List.head?_cons, decide_true,
    afterField_colon (List.append_ne_nil_of_left_ne_nil (field_ne_nil _ _) _), afterField_point hne,
    digits?_field (by omega : 0 < 2) hminute, digits?_field (by omega : 0 < 2) hsecond,
    fraction?_six hlength hdigits, isLeft]

end

/-! ### Offsets -/

lemma offset?_minutes {hour minute : Nat} (hhour : hour < 24) (hminute : minute < 60)
    {sign : Char} (hsign : sign ≠ 'Z') :
    offset? sign (field 2 hour ++ ':' :: field 2 minute) =
      some (if sign = '-' then -((hour * 60 + minute : Nat) * 60000000 : Int)
        else (hour * 60 + minute : Nat) * 60000000) := by
  have hday : hour * 60 + minute < 1440 := by omega
  rw [offset?, if_neg hsign, clock?_minutes (by omega) (by omega)]
  dsimp only
  generalize hour * 60 + minute = minutes at hday
  have hmicros : ((minutes * 60 + 0 : Nat) : Int) * 1000000 + (0 : Nat) = minutes * 60000000 := by
    omega
  rw [hmicros, if_neg Bool.false_ne_true]
  by_cases hnone : minutes = 0
  · subst hnone
    rw [if_pos (by omega)]
    split <;> rfl
  · rw [if_neg (by omega), if_pos (by rw [dayMicros]; omega)]

/-! ### Times with an offset -/

/-- What stands in front of a sign, a time or not, ends there. -/
lemma time?_append {sign : Char} (hcs : ∀ c ∈ cs, beginsOffset c = false)
    (hsign : beginsOffset sign = true) :
    time? (cs ++ sign :: rest) =
      (clock? cs).bind fun r => (offset? sign rest).map fun o => (r, o) := by
  have hbefore : (cs ++ sign :: rest).takeWhile (fun c => !beginsOffset c) = cs := by
    rw [List.takeWhile_append_of_pos (by simpa using hcs),
      List.takeWhile_cons_of_neg (by simpa using hsign), List.append_nil]
  have hbehind : (cs ++ sign :: rest).dropWhile (fun c => !beginsOffset c) = sign :: rest := by
    rw [List.dropWhile_append_of_pos (by simpa using hcs),
      List.dropWhile_cons_of_neg (by simpa using hsign)]
  rw [time?, List.span_eq_takeWhile_dropWhile, hbefore, hbehind]
  dsimp only
  cases clock? cs <;> rfl

/-- A date and a time behind it are read as a moment, if there is one. -/
lemma readChars?_append {year month day : Nat} (hyear : year < 10 ^ 4) (hmonth : month < 10 ^ 2)
    (hday : day < 10 ^ 2) {r : ClockReading} {offset : Int}
    (htime : time? cs = some (r, offset)) (separator : Char) :
    readChars? (dateChars year month day ++ separator :: cs) =
      let m : Moment := ⟨year, month, day, r.hour, r.minute, r.second, r.micro, offset⟩
      if m.valid then some m else none := by
  have hbehind : (dateChars year month day ++ separator :: cs).drop 10 = separator :: cs :=
    List.drop_left' (length_dateChars hyear hmonth hday)
  rw [readChars?, dateLength?_dateChars hyear hmonth hday]
  simp only [Option.bind_eq_bind, Option.bind_some, date?_dateChars hyear hmonth hday,
    hbehind, htime]

/-! ### Before reading -/

/-- A final `Z` is spelled out. -/
lemma spellZulu_zulu (cs : List Char) : spellZulu (cs ++ ['Z']) = cs ++ "+00:00".toList := by
  simp [spellZulu]

lemma spellZulu_digit {c : Char} (hc : c.isDigit = true) (hlast : cs.getLast? = some c) :
    spellZulu cs = cs := by
  obtain ⟨before, rfl⟩ := List.getLast?_eq_some_iff.1 hlast
  have hupper : c ≠ 'Z' := Text.ne_of_isDigit hc rfl
  have hlower : c ≠ 'z' := Text.ne_of_isDigit hc rfl
  simp [spellZulu, hupper, hlower]

/-- Nothing is cut off in front of the first point. -/
lemma cutFraction_append (hcs : '.' ∉ cs) (rest : List Char) :
    cutFraction (cs ++ rest) = cs ++ cutFraction rest := by
  induction cs with
  | nil => rfl
  | cons c cs ih =>
    obtain ⟨hc, hcs⟩ := not_or.1 (mt List.mem_cons.2 hcs)
    rw [List.cons_append, cutFraction, if_neg (Ne.symm hc), ih hcs, List.cons_append]

lemma cutFraction_of_notMem (hcs : '.' ∉ cs) : cutFraction cs = cs := by
  have hcut := cutFraction_append hcs []
  rwa [List.append_nil, cutFraction, List.append_nil] at hcut

/-- The first fraction is cut to six digits or filled up to them. -/
lemma cutFraction_point (hne : cs ≠ []) (hcs : ∀ c ∈ cs, Text.isDigit c = true)
    (hrest : ∀ c ∈ rest.head?, Text.isDigit c = false) :
    cutFraction ('.' :: (cs ++ rest)) =
      '.' :: (cs.take 6 ++ List.replicate (6 - cs.length) '0' ++ rest) := by
  have hbehind : rest.takeWhile Text.isDigit = [] ∧ rest.dropWhile Text.isDigit = rest := by
    cases rest with
    | nil => exact ⟨rfl, rfl⟩
    | cons c rest =>
      have hc : Text.isDigit c = false := hrest c rfl
      exact ⟨List.takeWhile_cons_of_neg (by simp [hc]), List.dropWhile_cons_of_neg (by simp [hc])⟩
  have hfilled : 6 - min 6 cs.length = 6 - cs.length := by omega
  rw [cutFraction, if_pos rfl, List.span_eq_takeWhile_dropWhile, List.takeWhile_append_of_pos hcs,
    List.dropWhile_append_of_pos hcs, hbehind.1, hbehind.2, List.append_nil]
  simp [hne, hfilled]

end BackupSteward.Moment
