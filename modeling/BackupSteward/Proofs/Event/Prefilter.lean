import BackupSteward.Proofs.Event.Totality
import BackupSteward.Proofs.Json.Brackets
import BackupSteward.Proofs.Json.Values

/-!
# The look at the first character

A line is read only if it begins with a brace, up to white space around it.  No object is lost by
this: what begins otherwise is no text of an object.  The white space that is taken away is that of
Unicode, and more than JSON has, but all of it stands in front of the brace or behind the text.
-/

namespace BackupSteward

/-- A line holds an object: without the white space around it, it is a JSON text of the object. -/
def HoldsObject (line : String) (fields : Fields) : Prop :=
  Json.IsText (Text.trim line.toList) (.record fields)

section

variable {line : String} {fields : Fields}

/-- The look at the first character changes nothing about the objects that are found. -/
lemma decodeLine_eq_some_iff : decodeLine line = .ok (some fields) ↔
    Json.readChars (Text.trim line.toList) = .ok (.record fields) := by
  unfold decodeLine
  dsimp only
  split
  case isTrue =>
    rcases Json.readChars (Text.trim line.toList) with fault | v
    · cases fault <;> simp
    · cases v <;> simp
  case isFalse hbrace =>
    constructor
    · intro h
      cases h
    · intro hread
      exact absurd (Json.head?_of_readChars_trim hread rfl) hbrace

/-- A line that holds an object begins with its brace. -/
lemma HoldsObject.head? (h : HoldsObject line fields) :
    (Text.trim line.toList).head? = some '{' := by
  obtain ⟨depth, htext⟩ := h
  obtain ⟨rest, hread, -⟩ := Json.textWithin_iff.1 htext
  rw [Json.skipSpace_trim] at hread
  exact Json.head?_of_value hread rfl

lemma decodeLine_iff_holdsObject (h : ¬ TooDeep line) :
    decodeLine line = .ok (some fields) ↔ HoldsObject line fields := by
  rw [decodeLine_eq_some_iff]
  refine ⟨fun hread => ⟨_, Json.readChars_iff.1 hread⟩, fun hobject => ?_⟩
  refine (Json.readChars_iff_isText fun hdeep => h ⟨hobject.head?, ?_⟩).2 hobject
  have hnests := (Json.readChars_tooDeep_iff _).1 hdeep
  rwa [Json.skipSpace_trim] at hnests

lemma decodeLine_eq_none_iff (h : ¬ TooDeep line) :
    decodeLine line = .ok none ↔ ∀ fields, ¬ HoldsObject line fields := by
  simp only [← decodeLine_iff_holdsObject h]
  rcases hread : decodeLine line with fault | _ | fields
  · exact absurd ((decodeLine_error_iff line fault).1 hread).2 h
  · simp
  · simp

end

lemma decodeLine_surrounded (line : String) {before after : String}
    (hbefore : Text.blank before = true) (hafter : Text.blank after = true) :
    decodeLine (before ++ line ++ after) = decodeLine line := by
  unfold decodeLine
  rw [String.toList_append, String.toList_append, Text.trim_append hbefore hafter]

/-- **The look at the first character loses no object.**  A line that does not nest beyond the limit
is decoded as an object exactly if it holds this object, and as none exactly if it holds none.  No
line that begins with another character than a brace holds an object, and white space around a line
changes nothing. -/
theorem prefilter_loses_no_object (line : String) :
    (¬ TooDeep line →
      (∀ fields, decodeLine line = .ok (some fields) ↔ HoldsObject line fields) ∧
      (decodeLine line = .ok none ↔ ∀ fields, ¬ HoldsObject line fields)) ∧
    ((Text.trim line.toList).head? ≠ some '{' → ∀ fields, ¬ HoldsObject line fields) ∧
    ∀ before after : String, Text.blank before = true → Text.blank after = true →
      decodeLine (before ++ line ++ after) = decodeLine line := by
  refine ⟨fun h => ⟨fun fields => decodeLine_iff_holdsObject h, decodeLine_eq_none_iff h⟩, ?_, ?_⟩
  · intro hbrace fields hobject
    exact hbrace hobject.head?
  · intro before after hbefore hafter
    exact decodeLine_surrounded line hbefore hafter

/-- White space that JSON does not know may stand around a text, and a number that is none inside
it. -/
theorem prefilter_between_separators :
    let line := "\u2003\x7b\"eta\": NaN\x7d\x1c"
    ¬ TooDeep line ∧ HoldsObject line [("eta", .double .nan)] ∧
      decodeLine ("\u3000" ++ line ++ "\n") = .ok (some [("eta", .double .nan)]) := by
  intro line
  have hread : decodeLine line = .ok (some [("eta", .double .nan)]) := by
    unfold line
    cbv
  have hdeep : ¬ TooDeep line := by
    intro hdeep
    have hfault := (decodeLine_error_iff line .tooDeep).2 ⟨rfl, hdeep⟩
    rw [hread] at hfault
    cases hfault
  obtain ⟨hdecoded, -, hspace⟩ := prefilter_loses_no_object line
  exact ⟨hdeep, ((hdecoded hdeep).1 _).1 hread, (hspace _ _ (by decide) (by decide)).trans hread⟩

end BackupSteward
