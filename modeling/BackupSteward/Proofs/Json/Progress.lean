import BackupSteward.Json.Reader
import Mathlib.Data.List.TakeDrop

/-!
# Reading makes progress

Whatever is read from a text leaves fewer characters behind.  So the readers of items and of
fields, which go through a list with a bound on the number of rounds, never run into that bound.
-/

namespace BackupSteward.Json

/-- What is read from some characters takes at least one of them. -/
def Consumes {α : Type} (r : Read α) (cs : List Char) : Prop :=
  ∀ a rest, r = .ok (a, rest) → rest.length < cs.length

lemma length_skipSpace_le (cs : List Char) : (skipSpace cs).length ≤ cs.length :=
  (List.dropWhile_sublist _).length_le

/-! ### Strings -/

lemma length_hexWord? {cs rest : List Char} {n : Nat} (h : hexWord? cs = some (n, rest)) :
    rest.length < cs.length := by
  unfold hexWord? at h
  split at h
  · split at h
    · cases h
      simp only [List.length_cons]
      omega
    · cases h
  · cases h

lemma length_lowSurrogate? {cs rest : List Char} {n : Nat}
    (h : lowSurrogate? cs = some (n, rest)) : rest.length < cs.length := by
  unfold lowSurrogate? at h
  split at h
  case h_1 b u more =>
    split at h
    · split at h
      case h_1 m left hword =>
        have := length_hexWord? hword
        split at h
        · cases h
          simp only [List.length_cons]
          omega
        · cases h
      · cases h
    · cases h
  case h_2 => cases h

lemma length_numbered_le (n : Nat) (rest : List Char) :
    (numbered n rest).2.length ≤ rest.length := by
  unfold numbered
  split
  · split
    case h_1 low left hlow => exact Nat.le_of_lt (length_lowSurrogate? hlow)
    · exact Nat.le_refl _
  · split <;> exact Nat.le_refl _

lemma consumes_stringBody (fuel : Nat) (before cs : List Char) :
    Consumes (stringBody fuel before cs) cs := by
  intro s rest h
  induction fuel generalizing before cs with
  | zero => cases h
  | succ fuel ih =>
    rcases cs with _ | ⟨c, cs⟩
    · cases h
    rw [List.length_cons]
    unfold stringBody at h
    split at h
    · cases h
      omega
    split at h
    · rcases cs with _ | ⟨e, es⟩
      · cases h
      dsimp only at h
      rw [List.length_cons]
      split at h
      -- a numbered character takes its four digits, and those of a second half if there is one
      · rcases hword : hexWord? es with _ | ⟨n, left⟩
        · rw [hword] at h
          cases h
        · rw [hword] at h
          have hleft := length_hexWord? hword
          have hnumbered := length_numbered_le n left
          have := ih _ _ h
          omega
      · rcases hescaped : escaped? e with _ | x
        · rw [hescaped] at h
          cases h
        · rw [hescaped] at h
          have := ih _ _ h
          omega
    · split at h
      · cases h
      · have := ih _ _ h
        omega

/-! ### Names and numbers -/

lemma length_behindWord? {word cs rest : List Char} (h : behindWord? word cs = some rest) :
    rest.length + word.length = cs.length := by
  induction word generalizing cs with
  | nil =>
    cases h
    rfl
  | cons w word ih =>
    rcases cs with _ | ⟨c, cs⟩
    · cases h
    · unfold behindWord? at h
      split at h
      · have := ih h
        simp only [List.length_cons]
        omega
      · cases h

lemma length_namedValue? {cs rest : List Char} {v : Value} (h : namedValue? cs = some (v, rest)) :
    rest.length < cs.length := by
  obtain ⟨⟨word, w⟩, hword, hv⟩ := List.exists_of_findSome?_eq_some h
  obtain ⟨left, hleft, heq⟩ := Option.map_eq_some_iff.1 hv
  cases heq
  have hpos : ∀ entry ∈ named, 0 < entry.1.toList.length := by decide
  have hlength := length_behindWord? hleft
  have hword : 0 < word.toList.length := hpos _ hword
  omega

lemma length_wholePart? {cs whole rest : List Char} (h : wholePart? cs = some (whole, rest)) :
    rest.length < cs.length := by
  rcases cs with _ | ⟨c, cs⟩
  · cases h
  · unfold wholePart? at h
    dsimp only at h
    split at h
    · cases h
      simp
    split at h
    case isTrue hdigit =>
      rw [List.span_eq_takeWhile_dropWhile, List.dropWhile_cons_of_pos hdigit] at h
      cases h
      exact Nat.lt_succ_of_le (List.dropWhile_sublist _).length_le
    case isFalse => cases h

lemma length_fraction?_le {cs places rest : List Char} (h : fraction? cs = some (places, rest)) :
    rest.length ≤ cs.length := by
  rcases cs with _ | ⟨c, cs⟩
  · cases h
  · simp only [fraction?] at h
    split at h
    · rw [List.span_eq_takeWhile_dropWhile] at h
      dsimp only at h
      split at h
      · cases h
      · cases h
        exact ((List.dropWhile_sublist _).trans (List.sublist_cons_self c cs)).length_le
    · cases h

lemma length_takeSign_le (cs : List Char) : (Number.takeSign cs).2.length ≤ cs.length := by
  rcases cs with _ | ⟨c, cs⟩
  · exact Nat.le_refl _
  · simp only [Number.takeSign]
    split
    · simp
    · split <;> simp

lemma length_digits_le (cs : List Char) : (digits cs).2.2.length ≤ cs.length := by
  rw [digits, List.span_eq_takeWhile_dropWhile]
  exact (List.dropWhile_sublist _).length_le

lemma length_exponent?_le {cs rest : List Char} {e : Int} (h : exponent? cs = some (e, rest)) :
    rest.length ≤ cs.length := by
  rcases cs with _ | ⟨c, cs⟩
  · cases h
  · have hsign := length_takeSign_le cs
    have hdigits := length_digits_le (Number.takeSign cs).2
    simp only [exponent?] at h
    split at h
    · split at h
      · cases h
      · cases h
        exact Nat.le_succ_of_le (Nat.le_trans hdigits hsign)
    · cases h

/-- Behind the whole part of a number there may be a fraction and an exponent. -/
lemma length_tail_le (cs : List Char) :
    let behind := ((fraction? cs).map (·.2)).getD cs
    behind.length ≤ cs.length ∧ ((exponent? behind).getD (0, behind)).2.length ≤ cs.length := by
  intro behind
  have hbehind : behind.length ≤ cs.length := by
    rcases hfraction : fraction? cs with _ | ⟨places, rest⟩
    · simp [behind, hfraction]
    · simpa [behind, hfraction] using length_fraction?_le hfraction
  refine ⟨hbehind, ?_⟩
  rcases hexponent : exponent? behind with _ | ⟨e, rest⟩
  · exact hbehind
  · exact Nat.le_trans (length_exponent?_le hexponent) hbehind

lemma consumes_number (cs : List Char) : Consumes (number cs) cs := by
  intro v rest h
  unfold number at h
  split at h
  rename_i negative body hsign
  have hlength : body.length ≤ cs.length := by
    split at hsign <;> cases hsign <;> simp
  rcases hwhole : wholePart? body with _ | ⟨whole, left⟩
  · rw [hwhole] at h
    cases h
  · rw [hwhole] at h
    have hleft := length_wholePart? hwhole
    obtain ⟨-, hexponent⟩ := length_tail_le left
    dsimp only at h
    split at h
    · split at h
      · cases h
      · cases h
        omega
    · cases h
      exact Nat.lt_of_le_of_lt hexponent (Nat.lt_of_lt_of_le hleft hlength)

lemma consumes_scalar (size : Nat) (cs : List Char) : Consumes (scalar size cs) cs := by
  intro v rest h
  rcases cs with _ | ⟨c, cs⟩
  · cases h
  rw [scalar] at h
  split at h
  · rcases hbody : stringBody size [] cs with fault | ⟨text, left⟩
    · rw [hbody] at h
      cases h
    · rw [hbody] at h
      cases h
      exact Nat.lt_succ_of_lt (consumes_stringBody _ _ _ _ _ hbody)
  · split at h
    case h_1 r hname =>
      cases h
      exact length_namedValue? hname
    case h_2 => exact consumes_number _ _ _ h

/-! ### Arrays and objects -/

variable {read : List Char → Read Value}

lemma consumes_items (hread : ∀ cs, Consumes (read cs) cs) (fuel : Nat) (before : List Value)
    (cs : List Char) : Consumes (items read fuel before cs) cs := by
  intro w rest h
  induction fuel generalizing before cs with
  | zero => cases h
  | succ fuel ih =>
    rw [items] at h
    rcases hitem : read cs with fault | ⟨v, left⟩
    · rw [hitem] at h
      cases h
    · rw [hitem] at h
      have hleft := hread cs v left hitem
      have hspace := length_skipSpace_le left
      dsimp only at h
      split at h
      case h_1 more hclose =>
        cases h
        rw [hclose, List.length_cons] at hspace
        omega
      case h_2 more hcomma =>
        rw [hcomma, List.length_cons] at hspace
        have := ih _ _ h
        have := length_skipSpace_le more
        omega
      case h_3 => cases h

lemma consumes_field (size : Nat) (hread : ∀ cs, Consumes (read cs) cs) (cs : List Char) :
    Consumes (field size read cs) cs := by
  intro a rest h
  rcases cs with _ | ⟨c, cs⟩
  · cases h
  rw [field] at h
  split at h
  · rcases hname : stringBody size [] cs with fault | ⟨name, left⟩
    · rw [hname] at h
      cases h
    · rw [hname] at h
      have hleft := consumes_stringBody _ _ _ _ _ hname
      have hspace := length_skipSpace_le left
      dsimp only at h
      split at h
      case h_1 more hcolon =>
        rw [hcolon, List.length_cons] at hspace
        have hmore := length_skipSpace_le more
        rcases hvalue : read (skipSpace more) with fault | ⟨v, behind⟩
        · rw [hvalue] at h
          cases h
        · rw [hvalue] at h
          cases h
          have := hread _ _ _ hvalue
          rw [List.length_cons]
          dsimp only
          omega
      case h_2 => cases h
  · cases h

lemma consumes_fields (size : Nat) (hread : ∀ cs, Consumes (read cs) cs) (fuel : Nat)
    (before : Fields) (cs : List Char) : Consumes (fields size read fuel before cs) cs := by
  intro w rest h
  induction fuel generalizing before cs with
  | zero => cases h
  | succ fuel ih =>
    rw [fields] at h
    rcases hfield : field size read cs with fault | ⟨⟨name, v⟩, left⟩
    · rw [hfield] at h
      cases h
    · rw [hfield] at h
      have hleft := consumes_field size hread cs _ _ hfield
      have hspace := length_skipSpace_le left
      dsimp only at h
      split at h
      case h_1 more hclose =>
        cases h
        rw [hclose, List.length_cons] at hspace
        omega
      case h_2 more hcomma =>
        rw [hcomma, List.length_cons] at hspace
        have := ih _ _ h
        have := length_skipSpace_le more
        omega
      case h_3 => cases h

/-- **Reading a value takes at least one character.** -/
theorem consumes_value (size depth : Nat) (cs : List Char) :
    Consumes (value size depth cs) cs := by
  induction depth generalizing cs with
  | zero =>
    intro v rest h
    unfold value at h
    split at h
    · cases h
    · cases h
    · exact consumes_scalar _ _ _ _ h
  | succ depth ih =>
    intro v rest h
    unfold value at h
    split at h
    -- the bracket itself is taken, so what stands inside need not take anything
    case h_1 more =>
      have hmore := length_skipSpace_le more
      rw [List.length_cons]
      split at h
      case h_1 left hclose =>
        cases h
        rw [hclose, List.length_cons] at hmore
        omega
      case h_2 =>
        have := consumes_items ih _ _ _ _ _ h
        omega
    case h_2 more =>
      have hmore := length_skipSpace_le more
      rw [List.length_cons]
      split at h
      case h_1 left hclose =>
        cases h
        rw [hclose, List.length_cons] at hmore
        omega
      case h_2 =>
        have := consumes_fields size ih _ _ _ _ _ h
        omega
    case h_3 => exact consumes_scalar _ _ _ _ h

end BackupSteward.Json
