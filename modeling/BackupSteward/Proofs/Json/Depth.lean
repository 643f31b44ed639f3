import BackupSteward.Proofs.Json.Progress

/-!
# Texts that nest too deeply

Reading stops at the bracket that stands inside as many others as the limit allows.  Which
bracket that is can be said without the limit: a text is gone through from the front, past items
and fields that can be read, and into brackets.  The file defines how deep this leads, and shows
that reading with a limit stops exactly where it leads beyond the limit.
-/

namespace BackupSteward.Json

/-- A bracket stands in front. -/
def Opens (cs : List Char) : Prop := cs.head? = some '[' ∨ cs.head? = some '{'

instance (cs : List Char) : Decidable (Opens cs) :=
  inferInstanceAs (Decidable (_ ∨ _))

/-- A value stands in front, however deeply it nests, and is followed by some characters. -/
def Reads (size : Nat) (cs : List Char) (v : Value) (rest : List Char) : Prop :=
  ∃ depth, value size depth cs = .ok (v, rest)

/-- The name of a field stands in front, and its value after that. -/
inductive FieldAt (size : Nat) : List Char → String → List Char → Prop
  | intro {c : Char} {cs behind more : List Char} {name : String} (hquote : c.toNat = 34)
    (hname : stringBody size [] cs = .ok (name, behind)) (hcolon : skipSpace behind = ':' :: more) :
    FieldAt size (c :: cs) name (skipSpace more)

/-- One of the items in front begins with characters of some kind; those before it can be
read. -/
inductive SomeItem (size : Nat) (kind : List Char → Prop) : List Char → Prop
  | here {cs : List Char} (h : kind cs) : SomeItem size kind cs
  | later {cs rest more : List Char} {v : Value} (hitem : Reads size cs v rest)
    (hcomma : skipSpace rest = ',' :: more) (h : SomeItem size kind (skipSpace more)) :
    SomeItem size kind cs

/-- The value of one of the fields in front begins with characters of some kind; the fields before
it can be read. -/
inductive SomeField (size : Nat) (kind : List Char → Prop) : List Char → Prop
  | here {cs start : List Char} {name : String} (hfield : FieldAt size cs name start)
    (h : kind start) : SomeField size kind cs
  | later {cs start rest more : List Char} {name : String} {v : Value}
    (hfield : FieldAt size cs name start) (hvalue : Reads size start v rest)
    (hcomma : skipSpace rest = ',' :: more) (h : SomeField size kind (skipSpace more)) :
    SomeField size kind cs

/-- Going through a value from the front leads to a bracket that stands inside some number of
others. -/
def Nests (size : Nat) : (others : Nat) → List Char → Prop
  | 0, cs => Opens cs
  | n + 1, cs =>
    (∃ rest, cs = '[' :: rest ∧ SomeItem size (Nests size n) (skipSpace rest)) ∨
      ∃ rest, cs = '{' :: rest ∧ SomeField size (Nests size n) (skipSpace rest)

/-! ### Scalars -/

lemma stringBody_ne_tooDeep (fuel : Nat) (before cs : List Char) :
    stringBody fuel before cs ≠ .error .tooDeep := by
  induction fuel generalizing before cs with
  | zero => simp [stringBody]
  | succ fuel ih =>
    rcases cs with _ | ⟨c, cs⟩
    · simp [stringBody]
    unfold stringBody
    split
    · simp
    split
    · rcases cs with _ | ⟨e, es⟩
      · simp
      dsimp only
      split
      · cases hexWord? es with
        | none => simp
        | some word => exact ih _ _
      · cases escaped? e with
        | none => simp
        | some x => exact ih _ _
    · split
      · simp
      · exact ih _ _

lemma number_ne_tooDeep (cs : List Char) : number cs ≠ .error .tooDeep := by
  unfold number
  split
  rename_i negative body hsign
  cases wholePart? body with
  | none => simp
  | some whole =>
    dsimp only
    split
    · split <;> simp
    · simp

lemma scalar_ne_tooDeep (size : Nat) (cs : List Char) : scalar size cs ≠ .error .tooDeep := by
  rcases cs with _ | ⟨c, cs⟩
  · simp [scalar]
  rw [scalar]
  split
  · intro h
    rcases hbody : stringBody size [] cs with fault | r
    · rw [hbody] at h
      cases h
      exact stringBody_ne_tooDeep _ _ _ hbody
    · rw [hbody] at h
      cases h
  · split
    · simp
    · exact number_ne_tooDeep _

lemma value_of_not_opens {cs : List Char} (h : ¬ Opens cs) (size depth : Nat) :
    value size depth cs = scalar size cs := by
  cases depth with
  | zero =>
    unfold value
    split
    · exact absurd (.inl rfl) h
    · exact absurd (.inr rfl) h
    · rfl
  | succ depth =>
    unfold value
    split
    · exact absurd (.inl rfl) h
    · exact absurd (.inr rfl) h
    · rfl

lemma value_zero_of_opens {cs : List Char} (h : Opens cs) (size : Nat) :
    value size 0 cs = .error .tooDeep := by
  rcases cs with _ | ⟨c, cs⟩
  · simp [Opens] at h
  · rcases h with h | h <;> cases h <;> rfl

/-- A closing bracket is no value. -/
lemma not_reads_of_closing {size : Nat} {c : Char} (hc : c = ']' ∨ c = '}') {cs rest : List Char}
    {v : Value} : ¬ Reads size (c :: cs) v rest := by
  rintro ⟨depth, h⟩
  rw [value_of_not_opens (by rcases hc with rfl | rfl <;> simp [Opens])] at h
  rcases hc with rfl | rfl <;> cases h

/-! ### Fields -/

section

variable {size : Nat} {cs start : List Char} {name : String}

lemma field_of_fieldAt (h : FieldAt size cs name start) (read : List Char → Read Value) :
    field size read cs = (read start).map fun r => ((name, r.1), r.2) := by
  obtain ⟨hquote, hname, hcolon⟩ := h
  rw [field, if_pos hquote, hname]
  dsimp only
  rw [hcolon]
  rfl

lemma field_of_not_fieldAt (h : ∀ name start, ¬ FieldAt size cs name start) :
    ∃ fault, fault ≠ .tooDeep ∧ ∀ read, field size read cs = .error fault := by
  rcases cs with _ | ⟨c, cs⟩
  · exact ⟨.badValue, by simp, fun _ => rfl⟩
  by_cases hquote : c.toNat = 34
  -- the fault lies in front of the value, so that it does not depend on how values are read
  · rcases hname : stringBody size [] cs with fault | ⟨name, behind⟩
    · refine ⟨fault, fun heq => stringBody_ne_tooDeep _ _ _ (heq ▸ hname), fun read => ?_⟩
      rw [field, if_pos hquote, hname]
    · refine ⟨.badValue, by simp, fun read => ?_⟩
      rw [field, if_pos hquote, hname]
      dsimp only
      split
      case h_1 more hcolon => exact absurd (.intro hquote hname hcolon) (h name _)
      case h_2 => rfl
  · exact ⟨.badValue, by simp, fun read => by rw [field, if_neg hquote]⟩

lemma length_of_fieldAt (h : FieldAt size cs name start) : start.length < cs.length := by
  obtain ⟨-, hname, hcolon⟩ := h
  rename_i cs behind more
  have hbehind := consumes_stringBody _ _ _ _ _ hname
  have hspace := length_skipSpace_le behind
  have hmore := length_skipSpace_le more
  rw [hcolon, List.length_cons] at hspace
  rw [List.length_cons]
  omega

end

/-! ### A larger limit -/

section

variable {read further : List Char → Read Value}

lemma items_of_agree (h : ∀ cs, read cs ≠ .error .tooDeep → further cs = read cs) (fuel : Nat)
    (before : List Value) (cs : List Char) (hne : items read fuel before cs ≠ .error .tooDeep) :
    items further fuel before cs = items read fuel before cs := by
  induction fuel generalizing before cs with
  | zero => rfl
  | succ fuel ih =>
    rw [items] at hne ⊢
    rw [items]
    have hsame : read cs ≠ .error .tooDeep := by
      intro hdeep
      rw [hdeep] at hne
      exact hne rfl
    rw [h cs hsame]
    rcases hread : read cs with fault | ⟨v, rest⟩
    · rfl
    · rw [hread] at hne
      dsimp only at hne ⊢
      split at hne
      · rfl
      · exact ih _ _ hne
      · rfl

lemma fields_of_agree (h : ∀ cs, read cs ≠ .error .tooDeep → further cs = read cs) (size fuel : Nat)
    (before : Fields) (cs : List Char) (hne : fields size read fuel before cs ≠ .error .tooDeep) :
    fields size further fuel before cs = fields size read fuel before cs := by
  induction fuel generalizing before cs with
  | zero => rfl
  | succ fuel ih =>
    rw [fields] at hne ⊢
    rw [fields]
    have hsame : field size further cs = field size read cs := by
      by_cases hat : ∃ name start, FieldAt size cs name start
      · obtain ⟨name, start, hat⟩ := hat
        rw [field_of_fieldAt hat] at hne
        rw [field_of_fieldAt hat, field_of_fieldAt hat, h start]
        intro hdeep
        rw [hdeep] at hne
        exact hne rfl
      · obtain ⟨fault, -, hfault⟩ :=
          field_of_not_fieldAt fun name start hat' => hat ⟨name, start, hat'⟩
        rw [hfault, hfault]
    rw [hsame]
    rcases hread : field size read cs with fault | ⟨⟨name, v⟩, rest⟩
    · rfl
    · rw [hread] at hne
      dsimp only at hne ⊢
      split at hne
      · rfl
      · exact ih _ _ hne
      · rfl

end

section

variable {size depth : Nat} {rest : List Char}

lemma value_emptyArray {more : List Char} (h : skipSpace rest = ']' :: more) :
    value size (depth + 1) ('[' :: rest) = .ok (.list [], more) := by
  rw [value, h]
  rfl

lemma value_array (h : ∀ more, skipSpace rest ≠ ']' :: more) :
    value size (depth + 1) ('[' :: rest) =
      items (value size depth) (size + 1) [] (skipSpace rest) := by
  rw [value]
  split
  case h_1 more hclose => exact absurd hclose (h more)
  case h_2 => rfl

lemma value_emptyObject {more : List Char} (h : skipSpace rest = '}' :: more) :
    value size (depth + 1) ('{' :: rest) = .ok (.record [], more) := by
  rw [value, h]
  rfl

lemma value_object (h : ∀ more, skipSpace rest ≠ '}' :: more) :
    value size (depth + 1) ('{' :: rest) =
      fields size (value size depth) (size + 1) [] (skipSpace rest) := by
  rw [value]
  split
  case h_1 more hclose => exact absurd hclose (h more)
  case h_2 => rfl

end

/-- A larger limit changes nothing about a text that does not go beyond the smaller one. -/
theorem value_succ {size depth : Nat} {cs : List Char}
    (h : value size depth cs ≠ .error .tooDeep) :
    value size (depth + 1) cs = value size depth cs := by
  induction depth generalizing cs with
  | zero =>
    have hopens : ¬ Opens cs := fun hopens => h (value_zero_of_opens hopens size)
    rw [value_of_not_opens hopens, value_of_not_opens hopens]
  | succ depth ih =>
    by_cases hopens : Opens cs
    swap
    · rw [value_of_not_opens hopens, value_of_not_opens hopens]
    rcases cs with _ | ⟨c, rest⟩
    · simp [Opens] at hopens
    rcases hopens with hopens | hopens <;> cases hopens
    · by_cases hempty : ∃ more, skipSpace rest = ']' :: more
      · obtain ⟨more, hempty⟩ := hempty
        rw [value_emptyArray hempty, value_emptyArray hempty]
      · have hsome : ∀ more, skipSpace rest ≠ ']' :: more := fun more h => hempty ⟨more, h⟩
        rw [value_array hsome] at h ⊢
        rw [value_array hsome]
        exact items_of_agree (fun _ => ih) _ _ _ h
    · by_cases hempty : ∃ more, skipSpace rest = '}' :: more
      · obtain ⟨more, hempty⟩ := hempty
        rw [value_emptyObject hempty, value_emptyObject hempty]
      · have hsome : ∀ more, skipSpace rest ≠ '}' :: more := fun more h => hempty ⟨more, h⟩
        rw [value_object hsome] at h ⊢
        rw [value_object hsome]
        exact fields_of_agree (fun _ => ih) _ _ _ _ h

lemma value_of_le {size depth more : Nat} (hle : depth ≤ more) {cs : List Char}
    (h : value size depth cs ≠ .error .tooDeep) : value size more cs = value size depth cs := by
  induction hle with
  | refl => rfl
  | step _ ih => exact (value_succ (ih.symm ▸ h)).trans ih

/-- What can be read with some limit is read with any, or goes beyond it. -/
lemma value_of_reads {size : Nat} {cs rest : List Char} {v : Value} (h : Reads size cs v rest)
    {depth : Nat} (hne : value size depth cs ≠ .error .tooDeep) :
    value size depth cs = .ok (v, rest) := by
  obtain ⟨enough, h⟩ := h
  -- the smaller of the two limits suffices, so the larger one reads the same
  rcases Nat.le_total depth enough with hle | hle
  · rw [← value_of_le hle hne, h]
  · rw [value_of_le hle (by rw [h]; simp), h]

/-! ### Where reading stops -/

section

variable {size depth : Nat} {kind : List Char → Prop}

/-- A closing bracket is not followed by items. -/
lemma not_someItem_of_closing (hkind : ∀ cs, kind cs → Opens cs) {more : List Char} :
    ¬ SomeItem size kind (']' :: more) := by
  rintro (h | ⟨hitem, -, -⟩)
  · exact absurd (hkind _ h) (by simp [Opens])
  · exact not_reads_of_closing (.inl rfl) hitem

lemma not_someField_of_closing {more : List Char} : ¬ SomeField size kind ('}' :: more) := by
  rintro (⟨⟨hquote, -, -⟩, -⟩ | ⟨⟨hquote, -, -⟩, -, -, -⟩) <;> exact absurd hquote (by decide)

/-- Behind an item and a comma there are fewer characters. -/
lemma length_behind_comma {cs rest more : List Char} {v : Value} (h : Reads size cs v rest)
    (hcomma : skipSpace rest = ',' :: more) : (skipSpace more).length < cs.length := by
  obtain ⟨depth, h⟩ := h
  have hrest := consumes_value size depth cs v rest h
  have hspace := length_skipSpace_le rest
  have hmore := length_skipSpace_le more
  rw [hcomma, List.length_cons] at hspace
  omega

lemma items_eq_tooDeep (hread : ∀ cs, cs.length ≤ size → kind cs →
      value size depth cs = .error .tooDeep) {cs : List Char} (h : SomeItem size kind cs)
    (hsize : cs.length ≤ size) {fuel : Nat} (hfuel : cs.length < fuel) (before : List Value) :
    items (value size depth) fuel before cs = .error .tooDeep := by
  induction h generalizing fuel before with
  | here hkind =>
    obtain ⟨fuel, rfl⟩ := Nat.exists_eq_add_of_lt hfuel
    rw [items, hread _ hsize hkind]
  | @later cs rest more v hitem hcomma hlater ih =>
    obtain ⟨fuel, rfl⟩ := Nat.exists_eq_add_of_lt hfuel
    -- the item in front can be read, but perhaps not with this limit; then it is the one where
    -- reading stops
    by_cases hdeep : value size depth cs = .error .tooDeep
    · rw [items, hdeep]
    · have hlength := length_behind_comma hitem hcomma
      rw [items, value_of_reads hitem hdeep]
      dsimp only
      rw [hcomma]
      exact ih (by omega) (by omega) _

lemma fields_eq_tooDeep (hread : ∀ cs, cs.length ≤ size → kind cs →
      value size depth cs = .error .tooDeep) {cs : List Char} (h : SomeField size kind cs)
    (hsize : cs.length ≤ size) {fuel : Nat} (hfuel : cs.length < fuel) (before : Fields) :
    fields size (value size depth) fuel before cs = .error .tooDeep := by
  induction h generalizing fuel before with
  | @here cs start name hfield hkind =>
    obtain ⟨fuel, rfl⟩ := Nat.exists_eq_add_of_lt hfuel
    have hstart := length_of_fieldAt hfield
    rw [fields, field_of_fieldAt hfield, hread _ (by omega) hkind]
    rfl
  | @later cs start rest more name v hfield hvalue hcomma hlater ih =>
    obtain ⟨fuel, rfl⟩ := Nat.exists_eq_add_of_lt hfuel
    rw [fields, field_of_fieldAt hfield]
    by_cases hdeep : value size depth start = .error .tooDeep
    · rw [hdeep]
      rfl
    · have hstart := length_of_fieldAt hfield
      have hlength := length_behind_comma hvalue hcomma
      rw [value_of_reads hvalue hdeep]
      dsimp only [Except.map]
      rw [hcomma]
      exact ih (by omega) (by omega) _

lemma someItem_of_items (hread : ∀ cs, value size depth cs = .error .tooDeep → kind cs)
    (fuel : Nat) (before : List Value) {cs : List Char}
    (h : items (value size depth) fuel before cs = .error .tooDeep) : SomeItem size kind cs := by
  induction fuel generalizing before cs with
  | zero => cases h
  | succ fuel ih =>
    rw [items] at h
    rcases hitem : value size depth cs with fault | ⟨v, rest⟩
    · rw [hitem] at h
      cases h
      exact .here (hread _ hitem)
    · rw [hitem] at h
      dsimp only at h
      split at h
      case h_1 => cases h
      case h_2 more hcomma => exact .later ⟨depth, hitem⟩ hcomma (ih _ h)
      case h_3 => cases h

lemma someField_of_fields (hread : ∀ cs, value size depth cs = .error .tooDeep → kind cs)
    (fuel : Nat) (before : Fields) {cs : List Char}
    (h : fields size (value size depth) fuel before cs = .error .tooDeep) :
    SomeField size kind cs := by
  induction fuel generalizing before cs with
  | zero => cases h
  | succ fuel ih =>
    rw [fields] at h
    by_cases hat : ∃ name start, FieldAt size cs name start
    swap
    · obtain ⟨fault, hfault, hfield⟩ :=
        field_of_not_fieldAt fun name start hat' => hat ⟨name, start, hat'⟩
      rw [hfield] at h
      cases h
      exact absurd rfl hfault
    obtain ⟨name, start, hat⟩ := hat
    rw [field_of_fieldAt hat] at h
    rcases hvalue : value size depth start with fault | ⟨v, rest⟩
    · rw [hvalue] at h
      cases h
      exact .here hat (hread _ hvalue)
    · rw [hvalue] at h
      dsimp only [Except.map] at h
      split at h
      case h_1 => cases h
      case h_2 more hcomma => exact .later hat ⟨depth, hvalue⟩ hcomma (ih _ h)
      case h_3 => cases h

end

lemma opens_of_nests {size n : Nat} {cs : List Char} (h : Nests size n cs) : Opens cs := by
  cases n with
  | zero => exact h
  | succ n =>
    rcases h with ⟨rest, rfl, -⟩ | ⟨rest, rfl, -⟩
    · exact .inl rfl
    · exact .inr rfl

lemma opens_of_tooDeep {size depth : Nat} {cs : List Char}
    (h : value size depth cs = .error .tooDeep) : Opens cs := by
  refine Decidable.byContradiction fun hopens => ?_
  rw [value_of_not_opens hopens] at h
  exact scalar_ne_tooDeep _ _ h

lemma nests_of_tooDeep {size depth : Nat} {cs : List Char}
    (h : value size depth cs = .error .tooDeep) : Nests size depth cs := by
  induction depth generalizing cs with
  | zero => exact opens_of_tooDeep h
  | succ depth ih =>
    -- a scalar never stops for depth, so a bracket stands in front, and not of an empty value
    have hopens := opens_of_tooDeep h
    rcases cs with _ | ⟨c, rest⟩
    · simp [Opens] at hopens
    rcases hopens with hopens | hopens <;> cases hopens
    · refine .inl ⟨rest, rfl, someItem_of_items (fun _ => ih) (size + 1) [] ?_⟩
      rwa [← value_array fun more hclose => ?_]
      rw [value_emptyArray hclose] at h
      cases h
    · refine .inr ⟨rest, rfl, someField_of_fields (fun _ => ih) (size + 1) [] ?_⟩
      rwa [← value_object fun more hclose => ?_]
      rw [value_emptyObject hclose] at h
      cases h

lemma tooDeep_of_nests {size depth : Nat} {cs : List Char} (hsize : cs.length ≤ size)
    (h : Nests size depth cs) : value size depth cs = .error .tooDeep := by
  induction depth generalizing cs with
  | zero => exact value_zero_of_opens h size
  | succ depth ih =>
    rcases h with ⟨rest, rfl, h⟩ | ⟨rest, rfl, h⟩
    · have hrest := length_skipSpace_le rest
      rw [List.length_cons] at hsize
      rw [value_array fun more hclose => ?_]
      · exact items_eq_tooDeep (fun _ => ih) h (by omega) (by omega) []
      · rw [hclose] at h
        exact not_someItem_of_closing (fun _ => opens_of_nests) h
    · have hrest := length_skipSpace_le rest
      rw [List.length_cons] at hsize
      rw [value_object fun more hclose => ?_]
      · exact fields_eq_tooDeep (fun _ => ih) h (by omega) (by omega) []
      · rw [hclose] at h
        exact not_someField_of_closing h

/-- **Reading stops for its depth exactly where a text nests beyond the limit.** -/
theorem readChars_tooDeep_iff (cs : List Char) :
    readChars cs = .error .tooDeep ↔ Nests cs.length maxDepth (skipSpace cs) := by
  have hvalue : readChars cs = .error .tooDeep ↔
      value cs.length maxDepth (skipSpace cs) = .error .tooDeep := by
    unfold readChars
    rcases value cs.length maxDepth (skipSpace cs) with fault | ⟨v, rest⟩
    · simp
    · simp only [reduceCtorEq, iff_false]
      split <;> simp
  rw [hvalue]
  exact ⟨nests_of_tooDeep, tooDeep_of_nests (length_skipSpace_le cs)⟩

end BackupSteward.Json
