import BackupSteward.Text.Blank
import BackupSteward.Text.Digit
import Mathlib.Tactic.Lemma

/-!
# ASCII digits

The ten digits that numbers are written with stand for their values, and they are none of the
characters that stand between and around numbers.
-/

namespace BackupSteward.Text

variable {c d : Char}

lemma toNat_of_isDigit (h : c.isDigit = true) : 48 ≤ c.toNat ∧ c.toNat ≤ 57 := by
  simpa [Char.isDigit, UInt32.le_iff_toNat_le] using h

lemma ne_of_isDigit (hc : c.isDigit = true) (hd : d.isDigit = false) : c ≠ d := by
  rintro rfl
  rw [hc] at hd
  cases hd

lemma isBlank_of_isDigit (h : c.isDigit = true) : isBlank c = false := by
  have hbounds := toNat_of_isDigit h
  simp only [isBlank, Bool.or_eq_false_iff, Bool.and_eq_false_iff, decide_eq_false_iff_not,
    beq_eq_false_iff_ne]
  omega

lemma digitValue?_of_isDigit (h : c.isDigit = true) : digitValue? c = some (c.toNat - 48) := by
  have hbounds := toNat_of_isDigit h
  have hascii : c.toNat < 128 := by omega
  simp [digitValue?, hascii, hbounds]

lemma isDigit_of_isDigit (h : c.isDigit = true) : isDigit c = true := by
  rw [isDigit, digitValue?_of_isDigit h, Option.isSome_some]

end BackupSteward.Text
