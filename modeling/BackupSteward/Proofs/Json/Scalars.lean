import BackupSteward.Proofs.Json.Numerals
import BackupSteward.Proofs.Json.Strings
import Mathlib.Data.List.Nodup

/-!
# Names, numbers and strings

The reader takes for a string what begins with a quote, and for a number only what does not begin
with a name.  No text of the grammar is both, so that every scalar is read as what it is.
-/

namespace BackupSteward.Json

variable {size : Nat} {cs text rest : List Char} {v : Value}

/-- White space, or a bracket of arrays and objects. -/
def isSpaceOrBracket (c : Char) : Bool := isSpace c || c = '[' || c = ']' || c = '{' || c = '}'

/-! ### Names -/

/-- Names have more than one character, and none of them is a digit or stands around values. -/
lemma letters_of_named {word : String} (h : (word, v) ∈ named) :
    (∃ a b more, word.toList = a :: b :: more) ∧
      ∀ c ∈ word.toList, c.isDigit = false ∧ isSpaceOrBracket c = false ∧ c.toNat ≠ 34 := by
  have hlengths : ∀ entry ∈ named, 2 ≤ entry.1.toList.length := by decide
  have hletters : named.all (fun entry => entry.1.toList.all fun c =>
      !c.isDigit && !isSpaceOrBracket c && c.toNat != 34) = true := by decide
  constructor
  · have hlength : 2 ≤ word.toList.length := hlengths _ h
    rcases hword : word.toList with _ | ⟨a, _ | ⟨b, more⟩⟩
    · simp [hword] at hlength
    · simp [hword] at hlength
    · exact ⟨a, b, more, rfl⟩
  · intro c hc
    have hletter := List.all_eq_true.1 (List.all_eq_true.1 hletters _ h) c hc
    simpa [and_assoc] using hletter

lemma behindWord?_iff {word : List Char} : behindWord? word cs = some rest ↔ cs = word ++ rest := by
  induction word generalizing cs with
  | nil => simp [behindWord?]
  | cons w word ih =>
    rcases cs with _ | ⟨c, cs⟩
    · simp [behindWord?]
    · by_cases hw : w = c
      · simp [behindWord?, hw, ih]
      · simp [behindWord?, hw, Ne.symm hw]

lemma exists_named (h : namedValue? cs = some (v, rest)) :
    ∃ word, (word, v) ∈ named ∧ cs = word.toList ++ rest := by
  obtain ⟨⟨word, w⟩, hword, hv⟩ := List.exists_of_findSome?_eq_some h
  obtain ⟨left, hleft, heq⟩ := Option.map_eq_some_iff.1 hv
  cases heq
  exact ⟨word, hword, behindWord?_iff.1 hleft⟩

/-- Of two names none is the beginning of the other, since their first characters differ. -/
lemma namedValue?_append {word : String} (h : (word, v) ∈ named) (rest : List Char) :
    namedValue? (word.toList ++ rest) = some (v, rest) := by
  have hfirst : (named.map fun entry => entry.1.toList.head?).Nodup := by decide
  have hsome : (namedValue? (word.toList ++ rest)).isSome = true := by
    refine List.findSome?_isSome_iff.2 ⟨_, h, ?_⟩
    simp [behindWord?_iff.2 rfl]
  obtain ⟨⟨w, left⟩, hread⟩ := Option.isSome_iff_exists.1 hsome
  obtain ⟨word', hword', happend⟩ := exists_named hread
  obtain ⟨⟨a, b, more, hletters⟩, -⟩ := letters_of_named h
  obtain ⟨⟨a', b', more', hletters'⟩, -⟩ := letters_of_named hword'
  have hsame : word'.toList.head? = word.toList.head? := by
    rw [hletters, hletters'] at happend ⊢
    rw [(List.cons.inj happend).1]
    rfl
  cases List.inj_on_of_nodup_map hfirst hword' h hsame
  rw [hread, List.append_cancel_left happend]

/-- A name does not begin like a number. -/
lemma namedValue?_digit (negative : Bool) {d : Char} (hd : d.isDigit = true) (cs : List Char) :
    namedValue? (minus negative ++ d :: cs) = none := by
  rw [Option.eq_none_iff_forall_ne_some]
  rintro ⟨w, rest⟩ h
  obtain ⟨word, hword, hcs⟩ := exists_named h
  obtain ⟨⟨a, b, more, hletters⟩, hdigit⟩ := letters_of_named hword
  rw [hletters] at hcs hdigit
  have hmem : d ∈ a :: b :: more := by
    cases negative with
    | true =>
      cases hcs
      simp
    | false =>
      cases hcs
      simp
  rw [(hdigit d hmem).1] at hd
  cases hd

/-! ### Scalars -/

lemma scalar_quote (size : Nat) (cs : List Char) :
    scalar size ('"' :: cs) = (stringBody size [] cs).map fun (s, rest) => (.str s, rest) := by
  rw [scalar, if_pos (by decide)]

lemma scalar_of_named (hquote : ∀ c ∈ cs.head?, c.toNat ≠ 34) {read : Value × List Char}
    (h : namedValue? cs = some read) (size : Nat) : scalar size cs = .ok read := by
  rcases cs with _ | ⟨c, cs⟩
  · cases h
  · rw [scalar, if_neg (hquote c rfl), h]

lemma scalar_of_number (hquote : ∀ c ∈ cs.head?, c.toNat ≠ 34) (h : namedValue? cs = none)
    (size : Nat) : scalar size cs = number cs := by
  rcases cs with _ | ⟨c, cs⟩
  · rfl
  · rw [scalar, if_neg (hquote c rfl), h]

/-- **What is read as a scalar is the text of one.** -/
theorem scalarText_of_scalar (h : scalar size cs = .ok (v, rest)) :
    ∃ text, cs = text ++ rest ∧ ScalarText text v := by
  by_cases hquote : cs.head? = some '"'
  · obtain ⟨cs, rfl⟩ := List.head?_eq_some_iff.1 hquote
    rw [scalar_quote] at h
    rcases hbody : stringBody size [] cs with fault | ⟨s, left⟩
    · rw [hbody] at h
      cases h
    · rw [hbody] at h
      cases h
      obtain ⟨body, pieces, hpieces, rfl, rfl⟩ := piecesText_of_stringBody hbody
      exact ⟨_, by simp, .string (.intro hpieces)⟩
  · have hfirst : ∀ c ∈ cs.head?, c.toNat ≠ 34 :=
      fun c hc hcode => hquote (by rw [hc, eq_quote_of_toNat hcode])
    rcases hnamed : namedValue? cs with _ | read
    · rw [scalar_of_number hfirst hnamed] at h
      obtain ⟨text, hcs, hnumber⟩ := numberText_of_number h
      exact ⟨text, hcs, .number hnumber⟩
    · rw [scalar_of_named hfirst hnamed] at h
      cases h
      obtain ⟨word, hword, hcs⟩ := exists_named hnamed
      exact ⟨_, hcs, .name hword⟩

/-- **The text of a scalar is read as a whole.** -/
theorem scalar_of_scalarText (h : ScalarText text v) (hrest : Stops rest)
    (hsize : text.length ≤ size) :
    scalar size (text ++ rest) = .ok (v, rest) := by
  cases h with
  | name hname =>
    obtain ⟨⟨a, b, more, hletters⟩, hquote⟩ := letters_of_named hname
    refine scalar_of_named ?_ (namedValue?_append hname rest) size
    rw [hletters] at hquote ⊢
    intro c hc
    cases hc
    exact (hquote _ List.mem_cons_self).2.2
  | number hnumber =>
    have hread := number_of_numberText hnumber hrest
    obtain ⟨negative, d, more, rfl, hd⟩ := exists_digit_of_numberText hnumber
    rw [List.append_assoc, List.cons_append] at hread ⊢
    rw [scalar_of_number ?_ (namedValue?_digit negative hd _)]
    · exact hread
    · have hbounds := Text.toNat_of_isDigit hd
      intro c hc
      cases negative with
      | true =>
        cases hc
        decide
      | false =>
        cases hc
        omega
  | string hstring =>
    obtain ⟨hpieces⟩ := hstring
    rw [List.length_cons, List.length_append] at hsize
    rw [List.cons_append, List.append_assoc, List.singleton_append, scalar_quote,
      stringBody_of_piecesText hpieces (by omega)]
    rfl

/-- A scalar begins with a character of its own. -/
lemma exists_head_of_scalarText (h : ScalarText text v) :
    ∃ c more, text = c :: more ∧ isSpaceOrBracket c = false := by
  cases h with
  | name hname =>
    obtain ⟨⟨a, b, more, hletters⟩, hletter⟩ := letters_of_named hname
    rw [hletters] at hletter ⊢
    exact ⟨_, _, rfl, (hletter a List.mem_cons_self).2.1⟩
  | number hnumber =>
    obtain ⟨negative, d, more, rfl, hd⟩ := exists_digit_of_numberText hnumber
    cases negative with
    | true => exact ⟨_, _, rfl, by decide⟩
    | false =>
      refine ⟨_, _, rfl, Bool.eq_false_iff.2 fun hgap => ?_⟩
      simp only [isSpaceOrBracket, isSpace, Bool.or_eq_true, decide_eq_true_eq] at hgap
      rcases hgap with ((((((rfl | rfl) | rfl) | rfl) | rfl) | rfl) | rfl) | rfl <;> cases hd
  | string hstring =>
    obtain ⟨hpieces⟩ := hstring
    exact ⟨_, _, rfl, by decide⟩

end BackupSteward.Json
