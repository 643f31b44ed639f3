import BackupSteward.Proofs.Json.Grammar
import BackupSteward.Proofs.Text.Digits
import Mathlib.Data.List.TakeDrop

/-!
# Numbers are read as they are written

A number has no closing mark, so that the reader of one goes on as long as it can.  What it takes is
a number of the grammar, and it takes all of one unless a character stands behind that could belong
to it.
-/

namespace BackupSteward.Json

variable {cs rest text : List Char}

/-! ### Digits -/

/-- No digit stands in front. -/
def NoDigit (cs : List Char) : Prop := ∀ c ∈ cs.head?, c.isDigit = false

/-- Nothing in front belongs to a number. -/
structure Stops (cs : List Char) : Prop where
  noDigit : NoDigit cs
  noPoint : ∀ c ∈ cs.head?, c ≠ '.'
  noPower : ∀ c ∈ cs.head?, c ≠ 'e' ∧ c ≠ 'E'

lemma span_digits {ds : List Char} (h : ∀ c ∈ ds, c.isDigit = true) (hrest : NoDigit rest) :
    (ds ++ rest).span Char.isDigit = (ds, rest) := by
  rw [List.span_eq_takeWhile_dropWhile, List.takeWhile_append_of_pos h,
    List.dropWhile_append_of_pos h]
  rcases rest with _ | ⟨c, rest⟩
  · simp
  · have hc : c.isDigit = false := hrest c rfl
    rw [List.takeWhile_cons_of_neg (by simp [hc]), List.dropWhile_cons_of_neg (by simp [hc]),
      List.append_nil]

lemma append_of_span {ds : List Char} (h : cs.span Char.isDigit = (ds, rest)) :
    cs = ds ++ rest ∧ ∀ c ∈ ds, c.isDigit = true := by
  rw [List.span_eq_takeWhile_dropWhile] at h
  cases h
  exact ⟨List.takeWhile_append_dropWhile.symm, List.all_eq_true.1 List.all_takeWhile⟩

lemma digits_of_span {ds : List Char} (h : cs.span Char.isDigit = (ds, rest)) :
    digits cs = (decimal ds, ds.length, rest) := by
  rw [digits, h]
  simp only [Number.ofManyDigits_eq, decimal]

lemma digits_of_all {ds : List Char} (h : ∀ c ∈ ds, c.isDigit = true) :
    digits ds = (decimal ds, ds.length, []) := by
  have hspan : (ds ++ []).span Char.isDigit = (ds, []) := span_digits h (by simp [NoDigit])
  rw [List.append_nil] at hspan
  exact digits_of_span hspan

/-! ### The whole part -/

lemma isWhole_of_wholePart? {whole : List Char} (h : wholePart? cs = some (whole, rest)) :
    cs = whole ++ rest ∧ IsWhole whole := by
  rcases cs with _ | ⟨c, cs⟩
  · cases h
  simp only [wholePart?] at h
  split at h
  case isTrue hzero =>
    cases h
    subst hzero
    exact ⟨rfl, ⟨by simp, by simp⟩, fun _ => rfl⟩
  case isFalse hzero =>
    split at h
    case isTrue hdigit =>
      have hspan := Option.some.inj h
      obtain ⟨happend, hall⟩ := append_of_span hspan
      rcases whole with _ | ⟨d, whole⟩
      · -- the digit in front is taken
        rw [List.span_eq_takeWhile_dropWhile, List.takeWhile_cons_of_pos hdigit] at hspan
        cases hspan
      · obtain ⟨rfl, -⟩ := List.cons.inj happend
        exact ⟨happend, ⟨by simp, hall⟩, fun hhead => absurd (Option.some.inj hhead) hzero⟩
    case isFalse => cases h

lemma wholePart?_append {whole : List Char} (h : IsWhole whole) (hrest : NoDigit rest) :
    wholePart? (whole ++ rest) = some (whole, rest) := by
  obtain ⟨c, whole, rfl⟩ := List.exists_cons_of_ne_nil h.ne_nil
  by_cases hzero : c = '0'
  · subst hzero
    obtain ⟨-, rfl⟩ := List.cons.inj (h.zero_alone rfl)
    rfl
  · have hspan := span_digits h.all hrest
    rw [List.cons_append] at hspan ⊢
    simp only [wholePart?]
    rw [if_neg hzero, if_pos (h.all c List.mem_cons_self), hspan]

/-! ### The fraction -/

lemma FractionText.isDigit_places {places : List Char} (h : FractionText text places) :
    ∀ c ∈ places, c.isDigit = true := by
  cases h with
  | absent => simp
  | point hplaces => exact hplaces.all

lemma exists_fractionText (cs : List Char) : ∃ text,
    cs = text ++ ((fraction? cs).map (·.2)).getD cs ∧
    FractionText text (((fraction? cs).map (·.1)).getD []) ∧ (text = [] ↔ fraction? cs = none) := by
  rcases hfraction : fraction? cs with _ | ⟨places, rest⟩
  · exact ⟨[], rfl, .absent, by simp⟩
  rcases cs with _ | ⟨c, cs⟩
  · cases hfraction
  simp only [fraction?] at hfraction
  split at hfraction
  case isTrue hpoint =>
    rcases hspan : cs.span Char.isDigit with ⟨ds, left⟩
    rw [hspan] at hfraction
    dsimp only at hfraction
    split at hfraction
    case isTrue => cases hfraction
    case isFalse hsome =>
      cases hfraction
      subst hpoint
      obtain ⟨rfl, hall⟩ := append_of_span hspan
      exact ⟨'.' :: places, rfl, .point ⟨by simpa using hsome, hall⟩, by simp⟩
  case isFalse => cases hfraction

lemma fraction?_append {places : List Char} (h : FractionText text places) (hrest : NoDigit rest)
    (hpoint : ∀ c ∈ rest.head?, c ≠ '.') :
    ((fraction? (text ++ rest)).map (·.2)).getD (text ++ rest) = rest ∧
    ((fraction? (text ++ rest)).map (·.1)).getD [] = places ∧
    (fraction? (text ++ rest) = none ↔ text = []) := by
  cases h with
  | absent =>
    have hnone : fraction? rest = none := by
      rcases rest with _ | ⟨c, rest⟩
      · rfl
      · rw [fraction?, if_neg (hpoint c rfl)]
    simp [hnone]
  | point hplaces =>
    have hsome : fraction? ('.' :: places ++ rest) = some (places, rest) := by
      rw [List.cons_append, fraction?, if_pos rfl, span_digits hplaces.all hrest]
      simp [hplaces.ne_nil]
    rw [hsome]
    simp

/-! ### The exponent -/

lemma exists_sign (cs : List Char) : ∃ sign, (sign = [] ∨ sign = ['+'] ∨ sign = ['-']) ∧
    cs = sign ++ (Number.takeSign cs).2 ∧ (Number.takeSign cs).1 = decide (sign = ['-']) := by
  rcases cs with _ | ⟨c, cs⟩
  · exact ⟨[], .inl rfl, rfl, rfl⟩
  rw [Number.takeSign]
  by_cases hminus : c = '-'
  · subst hminus
    exact ⟨['-'], by simp, rfl, rfl⟩
  by_cases hplus : c = '+'
  · subst hplus
    exact ⟨['+'], by simp, rfl, rfl⟩
  rw [if_neg hminus, if_neg hplus]
  exact ⟨[], .inl rfl, rfl, rfl⟩

lemma takeSign_append {sign ds : List Char} (hsign : sign = [] ∨ sign = ['+'] ∨ sign = ['-'])
    (hds : IsDigits ds) (rest : List Char) :
    Number.takeSign (sign ++ ds ++ rest) = (decide (sign = ['-']), ds ++ rest) := by
  rcases hsign with rfl | rfl | rfl
  · obtain ⟨d, ds, rfl⟩ := List.exists_cons_of_ne_nil hds.ne_nil
    have hd := hds.all d List.mem_cons_self
    rw [List.nil_append, List.cons_append, Number.takeSign, if_neg (Text.ne_of_isDigit hd rfl),
      if_neg (Text.ne_of_isDigit hd rfl)]
    rfl
  · rfl
  · rfl

lemma exists_exponentText (cs : List Char) : ∃ text,
    cs = text ++ ((exponent? cs).getD (0, cs)).2 ∧
    ExponentText text ((exponent? cs).getD (0, cs)).1 ∧ (text = [] ↔ exponent? cs = none) := by
  rcases hexponent : exponent? cs with _ | ⟨e, rest⟩
  · exact ⟨[], rfl, .absent, by simp⟩
  rcases cs with _ | ⟨c, cs⟩
  · cases hexponent
  simp only [exponent?] at hexponent
  split at hexponent
  case isTrue hletter =>
    obtain ⟨sign, hsign, hcs, hnegative⟩ := exists_sign cs
    rcases htaken : Number.takeSign cs with ⟨negative, left⟩
    rcases hspan : left.span Char.isDigit with ⟨ds, behind⟩
    rw [htaken] at hcs hnegative hexponent
    dsimp only at hcs hnegative hexponent
    rw [digits_of_span hspan] at hexponent
    dsimp only at hexponent
    obtain ⟨rfl, hall⟩ := append_of_span hspan
    split at hexponent
    case isTrue => cases hexponent
    case isFalse hcount =>
      cases hexponent
      subst hcs hnegative
      have hds : IsDigits ds := ⟨by simpa using hcount, hall⟩
      exact ⟨c :: (sign ++ ds), by simp, .power (by simpa using hletter) hsign hds, by simp⟩
  case isFalse => cases hexponent

lemma exponent?_append {e : Int} (h : ExponentText text e) (hrest : NoDigit rest)
    (hpower : ∀ c ∈ rest.head?, c ≠ 'e' ∧ c ≠ 'E') :
    (exponent? (text ++ rest)).getD (0, text ++ rest) = (e, rest) ∧
    (exponent? (text ++ rest) = none ↔ text = []) := by
  cases h with
  | absent =>
    have hnone : exponent? rest = none := by
      rcases rest with _ | ⟨c, rest⟩
      · rfl
      · rw [exponent?, if_neg (by simpa using hpower c rfl)]
    simp [hnone]
  | @power letter sign ds hletter hsign hds =>
    have hcount : ds.length ≠ 0 := by simpa using hds.ne_nil
    have hsome : exponent? (letter :: (sign ++ ds) ++ rest) =
        some (signed (sign = ['-']) (decimal ds), rest) := by
      rw [List.cons_append, exponent?, if_pos (by simpa using hletter), takeSign_append hsign hds]
      dsimp only
      rw [digits_of_span (span_digits hds.all hrest)]
      dsimp only
      rw [if_neg hcount]
      rfl
    rw [hsome]
    simp

/-! ### Numbers -/

/-- A whole part does not begin with a sign. -/
lemma IsWhole.head_ne_minus {whole : List Char} (h : IsWhole whole) (rest : List Char) :
    ∀ c ∈ (whole ++ rest).head?, c ≠ '-' := by
  obtain ⟨d, whole, rfl⟩ := List.exists_cons_of_ne_nil h.ne_nil
  intro c hc
  cases hc
  exact Text.ne_of_isDigit (h.all _ List.mem_cons_self) rfl

/-- Neither an exponent nor what may stand behind a number begins with a digit or a point. -/
lemma ExponentText.head_append {e : Int} (h : ExponentText text e) (hrest : Stops rest) :
    NoDigit (text ++ rest) ∧ ∀ c ∈ (text ++ rest).head?, c ≠ '.' := by
  cases h with
  | absent => exact ⟨hrest.noDigit, hrest.noPoint⟩
  | power hletter =>
    rcases hletter with rfl | rfl <;> simp [NoDigit]

lemma FractionText.noDigit_append {places : List Char} (h : FractionText text places)
    (hrest : NoDigit rest) : NoDigit (text ++ rest) := by
  cases h with
  | absent => exact hrest
  | point => simp [NoDigit]

/-- A digit stands in front, or behind a minus. -/
lemma exists_digit_of_numberText {v : Value} (h : NumberText text v) :
    ∃ negative d more, text = minus negative ++ d :: more ∧ d.isDigit = true := by
  have hwhole :
      ∃ negative whole more, text = minus negative ++ (whole ++ more) ∧ IsWhole whole := by
    cases h with
    | int negative hwhole => exact ⟨negative, _, [], by rw [List.append_nil], hwhole⟩
    | double negative hwhole => exact ⟨negative, _, _, rfl, hwhole⟩
  obtain ⟨negative, whole, more, rfl, hwhole⟩ := hwhole
  obtain ⟨d, whole, rfl⟩ := List.exists_cons_of_ne_nil hwhole.ne_nil
  exact ⟨negative, d, whole ++ more, rfl, hwhole.all d List.mem_cons_self⟩

/-- **What is read as a number is a number of the grammar.** -/
theorem numberText_of_number {v : Value} (h : number cs = .ok (v, rest)) :
    ∃ text, cs = text ++ rest ∧ NumberText text v := by
  unfold number at h
  split at h
  rename_i negative body hsign
  have hcs : cs = minus negative ++ body := by
    split at hsign <;> cases hsign <;> rfl
  subst hcs
  rcases hwhole : wholePart? body with _ | ⟨whole, left⟩
  · rw [hwhole] at h
    cases h
  obtain ⟨rfl, hwhole'⟩ := isWhole_of_wholePart? hwhole
  obtain ⟨fraction, hleft, hfraction, hnoFraction⟩ := exists_fractionText left
  obtain ⟨exponent, hbehind, hexponent, hnoExponent⟩ :=
    exists_exponentText (((fraction? left).map (·.2)).getD left)
  rw [hwhole] at h
  dsimp only at h
  split at h
  case h_1 hnone hnone' =>
    split at h
    case isTrue => cases h
    case isFalse hcount =>
      rw [digits_of_all hwhole'.all] at h
      cases h
      exact ⟨_, (List.append_assoc _ _ _).symm, .int negative hwhole' (by omega)⟩
  case h_2 hsome =>
    have hall : ∀ c ∈ whole ++ ((fraction? left).map (·.1)).getD [], c.isDigit = true := by
      intro c hc
      exact (List.mem_append.1 hc).elim (hwhole'.all c) (hfraction.isDigit_places c)
    rw [digits_of_all hall] at h
    cases h
    refine ⟨_, ?_, .double negative hwhole' hfraction hexponent fun hnone => ?_⟩
    · conv => lhs; rw [hleft, hbehind]
      simp only [List.append_assoc]
    · obtain ⟨hnone, hnone'⟩ := List.append_eq_nil_iff.1 hnone
      exact hsome (hnoFraction.1 hnone) (hnoExponent.1 hnone')

lemma number_append (negative : Bool) {whole fraction places exponent : List Char} {e : Int}
    (hwhole : IsWhole whole) (hfraction : FractionText fraction places)
    (hexponent : ExponentText exponent e) (hrest : Stops rest) :
    number (minus negative ++ (whole ++ (fraction ++ (exponent ++ rest)))) =
      if fraction = [] ∧ exponent = [] then
        if Number.maxDigits < whole.length then .error .badValue
        else .ok (.int (signed negative (decimal whole)), rest)
      else
        .ok (.double (Double.ofDecimal negative (decimal (whole ++ places)) (e - places.length)),
          rest) := by
  obtain ⟨hbehind, hpoint⟩ := hexponent.head_append hrest
  have hleft := hfraction.noDigit_append hbehind
  obtain ⟨hbehind', hplaces, hnoFraction⟩ := fraction?_append hfraction hbehind hpoint
  obtain ⟨hexponent', hnoExponent⟩ := exponent?_append hexponent hrest.noDigit hrest.noPower
  generalize hparts : fraction ++ (exponent ++ rest) = left at *
  have hfirst := hwhole.head_ne_minus left
  unfold number
  split
  rename_i negative' body hsign
  obtain ⟨rfl, rfl⟩ : negative' = negative ∧ body = whole ++ left := by
    split at hsign
    case h_1 body' hminus =>
      cases hsign
      cases negative with
      | true => exact ⟨rfl, (List.cons.inj hminus).2.symm⟩
      | false => exact absurd rfl (hfirst '-' (congrArg List.head? hminus))
    case h_2 hno =>
      cases hsign
      cases negative with
      | true => exact absurd rfl (hno _)
      | false => exact ⟨rfl, rfl⟩
  rw [wholePart?_append hwhole hleft]
  dsimp only
  rw [hplaces, hbehind', hexponent']
  split
  case h_1 hnone hnone' =>
    obtain rfl := hnoFraction.1 hnone
    obtain rfl := hnoExponent.1 hnone'
    rw [digits_of_all hwhole.all, ← hparts]
    simp only [and_self, if_true]
    rfl
  case h_2 hsome =>
    have hall : ∀ c ∈ whole ++ places, c.isDigit = true := by
      intro c hc
      exact (List.mem_append.1 hc).elim (hwhole.all c) (hfraction.isDigit_places c)
    rw [if_neg fun hnone => hsome (hnoFraction.2 hnone.1) (hnoExponent.2 hnone.2),
      digits_of_all hall]

/-- **A number of the grammar is read as a whole.** -/
theorem number_of_numberText {v : Value} (h : NumberText text v) (hrest : Stops rest) :
    number (text ++ rest) = .ok (v, rest) := by
  cases h with
  | @int negative whole hwhole hcount =>
    have hread := number_append negative hwhole .absent .absent hrest
    rw [if_pos ⟨rfl, rfl⟩, if_neg (by omega)] at hread
    rwa [List.append_assoc]
  | @double negative whole fraction places exponent e hwhole hfraction hexponent hsome =>
    have hread := number_append negative hwhole hfraction hexponent hrest
    rw [if_neg fun h => hsome (by rw [h.1, h.2]; rfl)] at hread
    simpa only [List.append_assoc] using hread

end BackupSteward.Json
