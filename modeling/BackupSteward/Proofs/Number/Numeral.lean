import BackupSteward.Number.Reader
import BackupSteward.Proofs.Text.Digits

/-!
# Numbers that are written and read again

A number that is written in decimal is read as itself, with white space around it or without.  The
four separators below the space are white space of a text, but not of a number: with one of them
beside it a number is not read.
-/

namespace BackupSteward.Number

/-- A text is a number in decimal with characters of some kind around it. -/
def Written (around : Char → Bool) (n : Nat) (text : String) : Prop :=
  ∃ before after : List Char, before.all around = true ∧ after.all around = true ∧
    text.toList = before ++ Nat.toDigits 10 n ++ after

variable {cs before after : List Char}

lemma isMargin_of_isDigit {c : Char} (h : c.isDigit = true) : isMargin c = false := by
  rw [isMargin, Text.isBlank_of_isDigit h, Bool.false_and]

/-- Digits without anything between them are all taken. -/
lemma takeDigits_of_isDigit (h : ∀ c ∈ cs, c.isDigit = true) (taken : List Nat) :
    takeDigits taken cs = ((cs.map fun c => c.toNat - 48).reverse ++ taken, []) := by
  induction cs generalizing taken with
  | nil => rfl
  | cons c cs ih =>
    obtain ⟨hc, hcs⟩ := List.forall_mem_cons.1 h
    have hstep : takeDigits taken (c :: cs) = takeDigits ((c.toNat - 48) :: taken) cs := by
      rw [takeDigits.eq_def]
      simp only [Text.digitValue?_of_isDigit hc]
    rw [hstep, ih hcs, List.map_cons, List.reverse_cons, List.append_assoc, List.singleton_append]

lemma takeSign_of_isDigit (h : ∀ c ∈ cs, c.isDigit = true) : takeSign cs = (false, cs) := by
  cases cs with
  | nil => rfl
  | cons c cs =>
    have hc := h c List.mem_cons_self
    rw [takeSign, if_neg (Text.ne_of_isDigit hc rfl), if_neg (Text.ne_of_isDigit hc rfl)]

/-- The digits of a number make the number. -/
lemma ofDigits_toDigits (n : Nat) :
    ofDigits ((Nat.toDigits 10 n).map fun c => c.toNat - 48) = n := by
  have hread : (Nat.toDigits 10 n).foldl (fun m c => 10 * m + (c.toNat - 48)) 0 = n :=
    Nat.ofDigitChars_ten_toDigits
  rw [ofDigits, List.foldl_map]
  simpa only [Nat.mul_comm] using hread

lemma dropWhile_margin_append (hne : cs ≠ []) (hcs : ∀ c ∈ cs, isMargin c = false)
    (rest : List Char) : (cs ++ rest).dropWhile isMargin = cs ++ rest := by
  obtain ⟨c, cs, rfl⟩ := List.exists_cons_of_ne_nil hne
  have hc : isMargin c = false := hcs c List.mem_cons_self
  exact List.dropWhile_cons_of_neg (by simp [hc])

/-- Margins around other characters are taken off. -/
lemma withoutMargin_surrounded (hbefore : before.all isMargin = true)
    (hafter : after.all isMargin = true) (hne : cs ≠ []) (hcs : ∀ c ∈ cs, isMargin c = false) :
    withoutMargin (before ++ cs ++ after) = cs := by
  have hback : cs.reverse.dropWhile isMargin = cs.reverse := by
    rw [← List.append_nil cs.reverse]
    exact dropWhile_margin_append (List.reverse_ne_nil_iff.2 hne)
      (fun c hc => hcs c (List.mem_reverse.1 hc)) []
  rw [← List.all_reverse] at hafter
  rw [withoutMargin, List.append_assoc, List.dropWhile_append_of_pos (List.all_eq_true.1 hbefore),
    dropWhile_margin_append hne hcs, List.reverse_append,
    List.dropWhile_append_of_pos (List.all_eq_true.1 hafter), hback, List.reverse_reverse]

/-- **A number that is written in decimal is read again**, if it has no more digits than are
read. -/
theorem wholeNumber?_written {n : Nat} {text : String} (h : Written isMargin n text)
    (hdigits : (Nat.toDigits 10 n).length ≤ maxDigits) : wholeNumber? text = some (n : Int) := by
  obtain ⟨before, after, hbefore, hafter, htext⟩ := h
  have hdigit : ∀ c ∈ Nat.toDigits 10 n, c.isDigit = true :=
    fun c => Nat.isDigit_of_mem_toDigits (by omega) (by omega)
  have hbare : withoutMargin text.toList = Nat.toDigits 10 n := by
    rw [htext]
    exact withoutMargin_surrounded hbefore hafter Nat.toDigits_ne_nil
      fun c hc => isMargin_of_isDigit (hdigit c hc)
  obtain ⟨values, hvalues⟩ :
      ∃ values, values = (Nat.toDigits 10 n).map fun c => c.toNat - 48 := ⟨_, rfl⟩
  have htaken : takeDigits [] (Nat.toDigits 10 n) = (values.reverse, []) := by
    rw [takeDigits_of_isDigit hdigit, List.append_nil, hvalues]
  have hread : ¬ (values.reverse.isEmpty || !([] : List Char).isEmpty ||
      decide (maxDigits < values.reverse.length)) = true := by
    simp [hvalues, Nat.toDigits_ne_nil, hdigits]
  rw [wholeNumber?, hbare, takeSign_of_isDigit hdigit]
  dsimp only
  rw [htaken]
  dsimp only
  rw [if_neg hread, List.reverse_reverse, hvalues, ofDigits_toDigits]
  rfl

end BackupSteward.Number
