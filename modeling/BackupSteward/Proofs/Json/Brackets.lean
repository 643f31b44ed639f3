import BackupSteward.Proofs.Json.Depth
import BackupSteward.Proofs.Text.Trimming

/-!
# The bracket in front of a text

A text that holds an array or an object begins with the bracket of one, up to the white space of the
grammar.  Trimming takes more than this white space away, so in a trimmed text the bracket stands in
front.
-/

namespace BackupSteward.Json

/-- The bracket that a value is written with, if it has one. -/
def bracketOf : Value → Option Char
  | .list _ => some '['
  | .record _ => some '{'
  | _ => none

section

variable {cs rest : List Char} {v : Value}

/-! ### Scalars -/

lemma bracketOf_number (h : number cs = .ok (v, rest)) : bracketOf v = none := by
  unfold number at h
  split at h
  split at h
  · cases h
  · dsimp only at h
    split at h
    · split at h
      · cases h
      · cases h
        rfl
    · cases h
      rfl

lemma bracketOf_namedValue? (h : namedValue? cs = some (v, rest)) : bracketOf v = none := by
  obtain ⟨⟨word, w⟩, hword, hv⟩ := List.exists_of_findSome?_eq_some h
  obtain ⟨left, -, heq⟩ := Option.map_eq_some_iff.1 hv
  cases heq
  have hnamed : ∀ entry ∈ named, (bracketOf entry.2).isNone = true := by decide
  exact Option.isNone_iff_eq_none.1 (hnamed _ hword)

lemma bracketOf_scalar {size : Nat} (h : scalar size cs = .ok (v, rest)) : bracketOf v = none := by
  cases cs with
  | nil => cases h
  | cons c cs =>
    unfold scalar at h
    dsimp only at h
    split at h
    · cases hbody : stringBody size [] cs with
      | error fault =>
        rw [hbody] at h
        cases h
      | ok read =>
        rw [hbody] at h
        cases h
        rfl
    · split at h
      case h_1 read hnamed =>
        cases h
        exact bracketOf_namedValue? hnamed
      case h_2 => exact bracketOf_number h

/-! ### Arrays and objects -/

lemma bracketOf_items {read : List Char → Read Value} {fuel : Nat} {before : List Value}
    (h : items read fuel before cs = .ok (v, rest)) : bracketOf v = some '[' := by
  induction fuel generalizing before cs with
  | zero => cases h
  | succ fuel ih =>
    rw [items] at h
    split at h
    · cases h
    · split at h
      · cases h
        rfl
      · exact ih h
      · cases h

lemma bracketOf_fields {size : Nat} {read : List Char → Read Value} {fuel : Nat} {before : Fields}
    (h : fields size read fuel before cs = .ok (v, rest)) : bracketOf v = some '{' := by
  induction fuel generalizing before cs with
  | zero => cases h
  | succ fuel ih =>
    rw [fields] at h
    split at h
    · cases h
    · split at h
      · cases h
        rfl
      · exact ih h
      · cases h

/-! ### Texts -/

/-- A value with a bracket has this bracket in front. -/
lemma head?_of_value {size depth : Nat} (h : value size depth cs = .ok (v, rest)) {bracket : Char}
    (hbracket : bracketOf v = some bracket) : cs.head? = some bracket := by
  by_cases hopens : Opens cs
  swap
  · rw [value_of_not_opens hopens] at h
    rw [bracketOf_scalar h] at hbracket
    cases hbracket
  cases depth with
  | zero =>
    rw [value_zero_of_opens hopens] at h
    cases h
  | succ depth =>
    rcases cs with _ | ⟨c, cs⟩
    · simp [Opens] at hopens
    rw [← hbracket]
    rcases hopens with hopens | hopens <;> cases hopens
    · by_cases hempty : ∃ more, skipSpace cs = ']' :: more
      · obtain ⟨more, hempty⟩ := hempty
        rw [value_emptyArray hempty] at h
        cases h
        rfl
      · rw [value_array fun more h => hempty ⟨more, h⟩] at h
        exact (bracketOf_items h).symm
    · by_cases hempty : ∃ more, skipSpace cs = '}' :: more
      · obtain ⟨more, hempty⟩ := hempty
        rw [value_emptyObject hempty] at h
        cases h
        rfl
      · rw [value_object fun more h => hempty ⟨more, h⟩] at h
        exact (bracketOf_fields h).symm

end

/-- The white space of the grammar is white space. -/
lemma isBlank_of_isSpace {c : Char} (h : isSpace c = true) : Text.isBlank c = true := by
  simp only [isSpace, Bool.or_eq_true, decide_eq_true_eq] at h
  rcases h with ((rfl | rfl) | rfl) | rfl <;> rfl

lemma skipSpace_trim (cs : List Char) : skipSpace (Text.trim cs) = Text.trim cs := by
  cases htext : Text.trim cs with
  | nil => rfl
  | cons c text =>
    have hblank : Text.isBlank c = false := Text.isBlank_head_trim (by rw [htext]; rfl)
    have hspace : ¬ isSpace c = true := fun h => by simp [isBlank_of_isSpace h] at hblank
    exact List.dropWhile_cons_of_neg hspace

/-- **A trimmed text begins with the bracket of the value that it holds.** -/
theorem head?_of_readChars_trim {cs : List Char} {v : Value} {bracket : Char}
    (h : readChars (Text.trim cs) = .ok v) (hbracket : bracketOf v = some bracket) :
    (Text.trim cs).head? = some bracket := by
  unfold readChars at h
  rw [skipSpace_trim] at h
  split at h
  · cases h
  case h_2 w rest hvalue =>
    split at h
    · cases h
      exact head?_of_value hvalue hbracket
    · cases h

end BackupSteward.Json
