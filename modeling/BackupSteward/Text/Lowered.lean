/-!
# Comparing without case

Messages of the engine are searched for fixed ASCII phrases without regard to case.  Besides
the ASCII letters two characters have a lower case that contains an ASCII letter: the Kelvin
sign and the dotted capital I.
-/

namespace BackupSteward.Text

/-- The lower case of a character, as far as ASCII letters come out of it. -/
def lowered (c : Char) : List Char :=
  if c.toNat = 0x212A then ['k']
  else if c.toNat = 0x130 then ['i', Char.ofNat 0x307]
  else [c.toLower]

/-- Whether a phrase occurs in some characters. -/
def occurs (phrase : List Char) : List Char → Bool
  | [] => phrase.isEmpty
  | c :: cs => phrase.isPrefixOf (c :: cs) || occurs phrase cs

/-- Whether a lower-case ASCII phrase occurs in a text, whatever the case of its letters. -/
def mentions (s : String) (phrase : String) : Bool :=
  occurs phrase.toList (s.toList.flatMap lowered)

/-- A phrase occurs in a text exactly if the text is something before it, the phrase, and
something behind it. -/
theorem occurs_iff {phrase cs : List Char} :
    occurs phrase cs = true ↔ ∃ before behind, cs = before ++ phrase ++ behind := by
  induction cs with
  | nil =>
    simp only [occurs, List.isEmpty_iff]
    constructor
    · rintro rfl; exact ⟨[], [], rfl⟩
    · rintro ⟨b, e, h⟩
      simp at h
      exact h.2.1
  | cons c cs ih =>
    simp only [occurs, Bool.or_eq_true, ih, List.isPrefixOf_iff_prefix]
    constructor
    · rintro (⟨t, ht⟩ | ⟨b, e, rfl⟩)
      · exact ⟨[], t, by simpa using ht.symm⟩
      · exact ⟨c :: b, e, rfl⟩
    · rintro ⟨b, e, h⟩
      cases b with
      | nil => exact .inl ⟨e, by simpa using h.symm⟩
      | cons d b =>
        simp only [List.cons_append, List.cons.injEq] at h
        exact .inr ⟨b, e, h.2⟩

end BackupSteward.Text
