import BackupSteward.Text.Blank
import Mathlib.Tactic.Lemma

/-!
# Trimmed texts

Trimming takes the white space around a text away and nothing else: what is left begins and ends
with other characters, and a text that does so comes out of any white space around it unchanged.
-/

namespace BackupSteward.Text

variable {before cs after : List Char}

/-! ### In front -/

lemma trimLeft_append (h : before.all isBlank = true) : trimLeft (before ++ cs) = trimLeft cs :=
  List.dropWhile_append_of_pos (List.all_eq_true.1 h)

lemma trimLeft_of_head (h : ∀ c ∈ cs.head?, isBlank c = false) : trimLeft cs = cs := by
  cases cs with
  | nil => rfl
  | cons c cs =>
    have hfirst : isBlank c = false := h c rfl
    exact List.dropWhile_cons_of_neg (by simp [hfirst])

/-! ### Behind -/

lemma trimRight_eq (cs : List Char) : trimRight cs = (trimLeft cs.reverse).reverse := rfl

lemma trimRight_append (h : after.all isBlank = true) : trimRight (cs ++ after) = trimRight cs := by
  rw [trimRight_eq, List.reverse_append, trimLeft_append (by rwa [List.all_reverse]), trimRight_eq]

lemma trimRight_of_last (h : ∀ c ∈ cs.getLast?, isBlank c = false) : trimRight cs = cs := by
  rw [trimRight_eq, trimLeft_of_head (by rwa [List.head?_reverse]), List.reverse_reverse]

lemma trimRight_prefix (cs : List Char) : trimRight cs <+: cs := by
  rw [trimRight_eq, ← List.reverse_suffix, List.reverse_reverse]
  exact List.dropWhile_suffix _

/-! ### On both sides -/

/-- A trimmed text does not begin with white space. -/
lemma isBlank_head_trim {c : Char} (h : (trim cs).head? = some c) : isBlank c = false := by
  obtain ⟨rest, hrest⟩ := List.head?_eq_some_iff.1 h
  obtain ⟨behind, hbehind⟩ := trimRight_prefix (trimLeft cs)
  rw [show trimRight (trimLeft cs) = c :: rest from hrest] at hbehind
  exact isBlank_head_trimLeft hbehind.symm

/-- A trimmed text does not end with white space. -/
lemma isBlank_getLast_trim {c : Char} (h : (trim cs).getLast? = some c) : isBlank c = false := by
  rw [trim, trimRight_eq, List.getLast?_reverse] at h
  obtain ⟨rest, hrest⟩ := List.head?_eq_some_iff.1 h
  exact isBlank_head_trimLeft hrest

/-- White space around a text does not matter. -/
lemma trim_surrounded (hbefore : before.all isBlank = true) (hafter : after.all isBlank = true)
    (hhead : ∀ c ∈ cs.head?, isBlank c = false) (hlast : ∀ c ∈ cs.getLast?, isBlank c = false) :
    trim (before ++ cs ++ after) = cs := by
  rw [trim, List.append_assoc, trimLeft_append hbefore]
  cases cs with
  | nil => rw [List.nil_append, trimLeft_of_all hafter]; rfl
  | cons c cs =>
    rw [trimLeft_of_head (by simpa using hhead), trimRight_append hafter, trimRight_of_last hlast]

/-- More white space around a text is taken away as well. -/
lemma trim_append (hbefore : before.all isBlank = true) (hafter : after.all isBlank = true) :
    trim (before ++ cs ++ after) = trim cs := by
  rw [trim, List.append_assoc, trimLeft_append hbefore, trim]
  have hdrop : trimLeft (cs ++ after) =
      if (trimLeft cs).isEmpty then trimLeft after else trimLeft cs ++ after :=
    List.dropWhile_append
  rw [hdrop]
  by_cases hblank : trimLeft cs = []
  · rw [hblank, trimLeft_of_all hafter]
    rfl
  · rw [if_neg fun h => hblank (List.isEmpty_iff.1 h), trimRight_append hafter]

end BackupSteward.Text
