import BackupSteward.Proofs.Json.Depth
import BackupSteward.Proofs.Json.Scalars

/-!
# Values are read as they are written

What the reader takes as a value is the text of one in the grammar, and it takes the text of a value
as a whole, unless a number ends in front of something that could belong to it.  So the reader finds
a value exactly in the texts of the grammar, and a text has one value.
-/

namespace BackupSteward.Json

variable {size depth : Nat} {cs text space rest : List Char} {v : Value}

/-! ### White space -/

lemma skipSpace_append (h : IsSpace space) (cs : List Char) :
    skipSpace (space ++ cs) = skipSpace cs :=
  List.dropWhile_append_of_pos h

lemma skipSpace_cons {c : Char} (h : isSpace c = false) (cs : List Char) :
    skipSpace (c :: cs) = c :: cs :=
  List.dropWhile_cons_of_neg (by simp [h])

lemma skipSpace_eq_nil (h : IsSpace space) : skipSpace space = [] := by
  have hskip := skipSpace_append h []
  rwa [List.append_nil] at hskip

lemma exists_space (cs : List Char) : ∃ space, IsSpace space ∧ cs = space ++ skipSpace cs :=
  ⟨_, List.all_eq_true.1 List.all_takeWhile, List.takeWhile_append_dropWhile.symm⟩

lemma Stops.nil : Stops [] := ⟨by simp [NoDigit], by simp, by simp⟩

lemma Stops.cons {c : Char} (hdigit : c.isDigit = false) (hpoint : c ≠ '.')
    (hpower : c ≠ 'e' ∧ c ≠ 'E') (cs : List Char) : Stops (c :: cs) :=
  ⟨by simpa [NoDigit] using hdigit, by simpa using hpoint, by simpa using hpower⟩

/-- White space does not belong to a number. -/
lemma Stops.append (h : Stops rest) (hspace : IsSpace space) : Stops (space ++ rest) := by
  rcases space with _ | ⟨c, space⟩
  · exact h
  · have hc : isSpace c = true := hspace c List.mem_cons_self
    simp only [isSpace, Bool.or_eq_true, decide_eq_true_eq] at hc
    rcases hc with ((rfl | rfl) | rfl) | rfl <;>
      exact .cons rfl (by decide) (by decide) _

/-- A text begins with no white space, and does not close an array. -/
def Begins (text : List Char) : Prop :=
  ∃ c more, text = c :: more ∧ isSpace c = false ∧ c ≠ ']'

lemma begins_of_valueText (h : ValueText depth text v) : Begins text := by
  cases h with
  | scalar hscalar =>
    obtain ⟨c, more, rfl, hc⟩ := exists_head_of_scalarText hscalar
    simp only [isSpaceOrBracket, Bool.or_eq_false_iff, decide_eq_false_iff_not] at hc
    exact ⟨c, more, rfl, hc.1.1.1.1, hc.1.1.2⟩
  | emptyArray => exact ⟨_, _, rfl, rfl, by decide⟩
  | array => exact ⟨_, _, rfl, rfl, by decide⟩
  | emptyObject => exact ⟨_, _, rfl, rfl, by decide⟩
  | object => exact ⟨_, _, rfl, rfl, by decide⟩

/-! ### Sequences -/

lemma commaJoined_cons {texts : List (List Char)} (h : texts ≠ []) (text : List Char) :
    commaJoined (text :: texts) = text ++ ',' :: commaJoined texts := by
  obtain ⟨next, texts, rfl⟩ := List.exists_cons_of_ne_nil h
  rfl

/-- The texts are parts of the whole, with commas between them. -/
lemma length_commaJoined (texts : List (List Char)) :
    texts.length ≤ (commaJoined texts).length + 1 ∧
      ∀ text ∈ texts, text.length ≤ (commaJoined texts).length := by
  induction texts with
  | nil => simp [commaJoined]
  | cons text texts ih =>
    obtain ⟨hcount, hparts⟩ := ih
    rcases texts with _ | ⟨next, texts⟩
    · simp [commaJoined]
    · rw [commaJoined_cons (by simp)]
      simp only [List.length_append, List.length_cons] at hcount ⊢
      refine ⟨by omega, fun part hpart => ?_⟩
      rcases List.mem_cons.1 hpart with rfl | hpart
      · omega
      · have := hparts part hpart
        omega

/-- What is read behind white space, with the white space on both sides. -/
lemma exists_spaced {α : Type} (a : α) (h : skipSpace cs = text ++ rest) :
    ∃ s : Spaced α, s.IsSpaced ∧ s.text = text ∧ s.value = a ∧
      cs = s.whole ++ skipSpace rest := by
  obtain ⟨before, hbefore, hcs⟩ := exists_space cs
  obtain ⟨after, hafter, hrest⟩ := exists_space rest
  refine ⟨⟨before, text, after, a⟩, ⟨hbefore, hafter⟩, rfl, rfl, ?_⟩
  conv => lhs; rw [hcs, h, hrest]
  simp [Spaced.whole]

section

variable {read : List Char → Read Value}

/-- What the reader takes are texts of the grammar. -/
def Sound (read : List Char → Read Value) (depth : Nat) : Prop :=
  ∀ ⦃cs v rest⦄, read cs = .ok (v, rest) → ∃ text, cs = text ++ rest ∧ ValueText depth text v

lemma exists_items (hread : Sound read depth) {fuel : Nat} {before : List Value}
    (h : items read fuel before (skipSpace cs) = .ok (v, rest)) :
    ∃ its : List (Spaced Value), its ≠ [] ∧ (∀ i ∈ its, i.IsSpaced) ∧
      (∀ i ∈ its, ValueText depth i.text i.value) ∧
      cs = commaJoined (its.map (·.whole)) ++ ']' :: rest ∧
      v = .list (before.reverse ++ its.map (·.value)) := by
  induction fuel generalizing before cs with
  | zero => cases h
  | succ fuel ih =>
    rw [items] at h
    rcases hitem : read (skipSpace cs) with fault | ⟨w, left⟩
    · rw [hitem] at h
      cases h
    rw [hitem] at h
    dsimp only at h
    obtain ⟨text, hskip, htext⟩ := hread hitem
    obtain ⟨i, hspaced, rfl, rfl, hcs⟩ := exists_spaced w hskip
    split at h
    case h_1 more hclose =>
      cases h
      exact ⟨[i], by simp, by simpa using hspaced, by simpa using htext,
        by rw [hcs, hclose]; rfl, by simp⟩
    case h_2 more hcomma =>
      obtain ⟨its, hne, hallSpaced, hall, rfl, rfl⟩ := ih h
      refine ⟨i :: its, by simp, List.forall_mem_cons.2 ⟨hspaced, hallSpaced⟩,
        List.forall_mem_cons.2 ⟨htext, hall⟩, ?_, by simp⟩
      rw [hcs, hcomma, List.map_cons, commaJoined_cons (by simpa using hne)]
      simp
    case h_3 => cases h

lemma exists_member (hread : Sound read depth) {name : String}
    (h : field size read (skipSpace cs) = .ok ((name, v), rest)) :
    ∃ m : Member, m.IsNamed ∧ ValueText depth m.value.text m.value.value ∧ m.field = (name, v) ∧
      cs = m.whole ++ skipSpace rest := by
  by_cases hat : ∃ name start, FieldAt size (skipSpace cs) name start
  swap
  · obtain ⟨fault, -, hfault⟩ :=
      field_of_not_fieldAt fun name start hat' => hat ⟨name, start, hat'⟩
    rw [hfault] at h
    cases h
  obtain ⟨name', start, hat⟩ := hat
  rw [field_of_fieldAt hat] at h
  rcases hvalue : read start with fault | ⟨w, left⟩
  · rw [hvalue] at h
    cases h
  rw [hvalue] at h
  cases h
  obtain ⟨text, hstart, htext⟩ := hread hvalue
  generalize hskip : skipSpace cs = found at hat
  obtain ⟨hquote, hname, hcolon⟩ := hat
  rename_i behind more
  cases eq_quote_of_toNat hquote
  obtain ⟨body, pieces, hpieces, rfl, rfl⟩ := piecesText_of_stringBody hname
  have hquoted : skipSpace cs = '"' :: (body ++ ['"']) ++ behind := by simpa using hskip
  obtain ⟨key, hkey, hkeyText, hkeyValue, hcs⟩ :=
    exists_spaced (String.ofList (characters pieces)) hquoted
  obtain ⟨content, hcontent, hcontentText, hcontentValue, hmore⟩ := exists_spaced w hstart
  refine ⟨⟨key, content⟩, ⟨hkey, hcontent, ?_⟩, ?_, ?_, ?_⟩
  · dsimp only
    rw [hkeyText, hkeyValue]
    exact .intro hpieces
  · dsimp only
    rwa [hcontentText, hcontentValue]
  · simp [Member.field, hkeyValue, hcontentValue]
  · rw [hcs, hcolon, hmore]
    simp [Member.whole]

lemma exists_members (hread : Sound read depth) {fuel : Nat} {before : Fields}
    (h : fields size read fuel before (skipSpace cs) = .ok (v, rest)) :
    ∃ members : List Member, members ≠ [] ∧ (∀ m ∈ members, m.IsNamed) ∧
      (∀ m ∈ members, ValueText depth m.value.text m.value.value) ∧
      cs = commaJoined (members.map (·.whole)) ++ '}' :: rest ∧
      v = .record (before.putAll (members.map (·.field))) := by
  induction fuel generalizing before cs with
  | zero => cases h
  | succ fuel ih =>
    rw [fields] at h
    rcases hfield : field size read (skipSpace cs) with fault | ⟨⟨name, w⟩, left⟩
    · rw [hfield] at h
      cases h
    rw [hfield] at h
    dsimp only at h
    obtain ⟨m, hnamed, htext, hm, hcs⟩ := exists_member hread hfield
    split at h
    case h_1 more hclose =>
      cases h
      exact ⟨[m], by simp, by simpa using hnamed, by simpa using htext,
        by rw [hcs, hclose]; rfl, by simp [Fields.putAll, hm]⟩
    case h_2 more hcomma =>
      obtain ⟨members, hne, hallNamed, hall, rfl, rfl⟩ := ih h
      refine ⟨m :: members, by simp, List.forall_mem_cons.2 ⟨hnamed, hallNamed⟩,
        List.forall_mem_cons.2 ⟨htext, hall⟩, ?_, by simp [Fields.putAll, hm]⟩
      rw [hcs, hcomma, List.map_cons, commaJoined_cons (by simpa using hne)]
      simp
    case h_3 => cases h

end

lemma valueText_of_not_opens (hopens : ¬ Opens cs) (h : value size depth cs = .ok (v, rest)) :
    ∃ text, cs = text ++ rest ∧ ValueText depth text v := by
  rw [value_of_not_opens hopens] at h
  obtain ⟨text, hcs, htext⟩ := scalarText_of_scalar h
  exact ⟨text, hcs, .scalar htext⟩

/-- **What is read as a value is the text of one.** -/
theorem valueText_of_value : ∀ depth, Sound (value size depth) depth := by
  intro depth
  induction depth with
  | zero =>
    intro cs v rest h
    refine valueText_of_not_opens (fun hopens => ?_) h
    rw [value_zero_of_opens hopens] at h
    cases h
  | succ depth ih =>
    intro cs v rest h
    by_cases hopens : Opens cs
    swap
    · exact valueText_of_not_opens hopens h
    rcases cs with _ | ⟨c, cs⟩
    · simp [Opens] at hopens
    rcases hopens with hopens | hopens <;> cases hopens
    · by_cases hempty : ∃ more, skipSpace cs = ']' :: more
      · obtain ⟨more, hempty⟩ := hempty
        rw [value_emptyArray hempty] at h
        cases h
        obtain ⟨space, hspace, hcs⟩ := exists_space cs
        exact ⟨_, by rw [hcs, hempty]; simp, .emptyArray hspace⟩
      · rw [value_array fun more h => hempty ⟨more, h⟩] at h
        obtain ⟨its, hne, hspaced, hall, rfl, rfl⟩ := exists_items ih h
        exact ⟨_, by simp, .array hne hspaced hall⟩
    · by_cases hempty : ∃ more, skipSpace cs = '}' :: more
      · obtain ⟨more, hempty⟩ := hempty
        rw [value_emptyObject hempty] at h
        cases h
        obtain ⟨space, hspace, hcs⟩ := exists_space cs
        exact ⟨_, by rw [hcs, hempty]; simp, .emptyObject hspace⟩
      · rw [value_object fun more h => hempty ⟨more, h⟩] at h
        obtain ⟨members, hne, hnamed, hall, rfl, rfl⟩ := exists_members ih h
        exact ⟨_, by simp, .object hne hnamed hall⟩

/-! ### Texts that are read -/

/-- A character ends an item or a field. -/
def Closes (c : Char) : Prop := c = ',' ∨ c = ']' ∨ c = '}'

lemma Closes.not_space {c : Char} (h : Closes c) : isSpace c = false := by
  rcases h with rfl | rfl | rfl <;> rfl

lemma Closes.stops {c : Char} (h : Closes c) (cs : List Char) : Stops (c :: cs) := by
  rcases h with rfl | rfl | rfl <;> exact .cons rfl (by decide) (by decide) _

section

variable {read : List Char → Read Value}

/-- Something spaced is read, whatever stands behind it that does not belong to a number. -/
structure Spaced.IsRead (read : List Char → Read Value) (s : Spaced Value) : Prop extends
    s.IsSpaced where
  begins : Begins s.text
  read : ∀ rest, Stops rest → read (s.text ++ rest) = .ok (s.value, rest)

lemma Spaced.skipSpace_whole {α : Type} {s : Spaced α} (h : s.IsSpaced) (hbegins : Begins s.text)
    (rest : List Char) : skipSpace (s.whole ++ rest) = s.text ++ (s.after ++ rest) := by
  obtain ⟨c, more, htext, hspace, -⟩ := hbegins
  rw [Spaced.whole, List.append_assoc, List.append_assoc, skipSpace_append h.before, htext,
    List.cons_append, skipSpace_cons hspace]

lemma Spaced.IsRead.read_whole {s : Spaced Value} (h : s.IsRead read) {c : Char} (hc : Closes c)
    (rest : List Char) :
    read (skipSpace (s.whole ++ c :: rest)) = .ok (s.value, s.after ++ c :: rest) ∧
      skipSpace (s.after ++ c :: rest) = c :: rest := by
  rw [skipSpace_whole h.toIsSpaced h.begins, skipSpace_append h.after, skipSpace_cons hc.not_space]
  exact ⟨h.read _ ((hc.stops rest).append h.after), rfl⟩

/-- It does not close an array. -/
lemma Spaced.skipSpace_whole_ne {α : Type} {s : Spaced α} (h : s.IsSpaced) (hbegins : Begins s.text)
    (rest more : List Char) : skipSpace (s.whole ++ rest) ≠ ']' :: more := by
  rw [skipSpace_whole h hbegins]
  obtain ⟨c, cs, htext, -, hclose⟩ := hbegins
  rw [htext]
  exact fun h => hclose (List.cons.inj h).1

lemma Spaced.length_text_le {α : Type} (s : Spaced α) : s.text.length ≤ s.whole.length := by
  rw [whole, List.length_append, List.length_append]
  omega

/-- A sequence does not begin with a character that none of its texts begins with. -/
lemma skipSpace_commaJoined {texts : List (List Char)} (hne : texts ≠ []) {c : Char}
    (h : ∀ text ∈ texts, ∀ rest more, skipSpace (text ++ rest) ≠ c :: more)
    (rest more : List Char) : skipSpace (commaJoined texts ++ rest) ≠ c :: more := by
  obtain ⟨text, texts, rfl⟩ := List.exists_cons_of_ne_nil hne
  have hfirst := h text List.mem_cons_self
  by_cases hlast : texts = []
  · subst hlast
    exact hfirst rest more
  · rw [commaJoined_cons hlast, List.append_assoc]
    exact hfirst _ more

lemma items_append {its : List (Spaced Value)} (hne : its ≠ []) (hread : ∀ i ∈ its, i.IsRead read)
    {fuel : Nat} (hfuel : its.length ≤ fuel) (before : List Value) (rest : List Char) :
    items read fuel before (skipSpace (commaJoined (its.map (·.whole)) ++ ']' :: rest)) =
      .ok (.list (before.reverse ++ its.map (·.value)), rest) := by
  induction its generalizing fuel before with
  | nil => exact absurd rfl hne
  | cons i its ih =>
    obtain ⟨hi, hits⟩ := List.forall_mem_cons.1 hread
    obtain ⟨fuel, rfl⟩ := Nat.exists_eq_add_of_lt (Nat.lt_of_lt_of_le (Nat.zero_lt_succ _) hfuel)
    rw [items]
    by_cases hlast : its = []
    · subst hlast
      obtain ⟨hitem, hskip⟩ := hi.read_whole (.inr (.inl rfl)) rest
      rw [List.map_singleton, commaJoined, hitem]
      dsimp only
      rw [hskip]
      simp
    · obtain ⟨hitem, hskip⟩ := hi.read_whole (.inl rfl)
        (commaJoined (its.map (·.whole)) ++ ']' :: rest)
      rw [List.map_cons, commaJoined_cons (by simpa using hlast), List.append_assoc,
        List.cons_append, hitem]
      dsimp only
      rw [hskip]
      exact (ih hlast hits (by simpa using hfuel) _).trans (by simp)

lemma array_append {its : List (Spaced Value)} (hne : its ≠ [])
    (hread : ∀ i ∈ its, i.IsRead (value size depth)) (hcount : its.length ≤ size + 1)
    (rest : List Char) :
    value size (depth + 1) ('[' :: (commaJoined (its.map (·.whole)) ++ ']' :: rest)) =
      .ok (.list (its.map (·.value)), rest) := by
  have hfirst : ∀ text ∈ its.map (·.whole), ∀ rest more,
      skipSpace (text ++ rest) ≠ ']' :: more := by
    intro text hmem
    obtain ⟨i, hi, rfl⟩ := List.mem_map.1 hmem
    exact Spaced.skipSpace_whole_ne (hread i hi).toIsSpaced (hread i hi).begins
  rw [value_array (skipSpace_commaJoined (by simpa using hne) hfirst _),
    items_append hne hread hcount]
  rfl

/-- A field is read, whatever stands behind it that ends its value. -/
structure Member.IsRead (size : Nat) (read : List Char → Read Value) (m : Member) : Prop extends
    m.IsNamed where
  length_name : m.name.text.length ≤ size
  content : m.value.IsRead read

lemma exists_quote {s : String} (h : StringText text s) : ∃ more, text = '"' :: more := by
  cases h
  exact ⟨_, rfl⟩

/-- It does not close an object. -/
lemma Member.skipSpace_whole_ne {m : Member} (h : m.IsNamed) (rest more : List Char) :
    skipSpace (m.whole ++ rest) ≠ '}' :: more := by
  obtain ⟨cs, htext⟩ := exists_quote h.string
  rw [whole, List.append_assoc, Spaced.skipSpace_whole h.name ⟨_, _, htext, rfl, by decide⟩, htext]
  exact fun h => absurd (List.cons.inj h).1 (by decide)

lemma field_append {m : Member} (h : m.IsRead size read) {c : Char} (hc : Closes c)
    (rest : List Char) : field size read (skipSpace (m.whole ++ c :: rest)) =
        .ok (m.field, m.value.after ++ c :: rest) ∧
      skipSpace (m.value.after ++ c :: rest) = c :: rest := by
  obtain ⟨⟨before, text, after, name⟩, content⟩ := m
  obtain ⟨⟨hspaced, -, hstring⟩, hsize, hvalue⟩ := h
  obtain ⟨hread, hskip⟩ := hvalue.read_whole hc rest
  dsimp only at hspaced hstring hsize hread hskip
  obtain ⟨hpieces⟩ := hstring
  rename_i body pieces
  refine ⟨?_, hskip⟩
  have hstart : skipSpace (Member.whole ⟨⟨before, '"' :: (body ++ ['"']), after,
      String.ofList (characters pieces)⟩, content⟩ ++ c :: rest) =
        '"' :: (body ++ '"' :: (after ++ ':' :: (content.whole ++ c :: rest))) := by
    rw [Member.whole, List.append_assoc, List.cons_append,
      Spaced.skipSpace_whole hspaced ⟨_, _, rfl, rfl, by decide⟩]
    simp
  have hat : FieldAt size ('"' :: (body ++ '"' :: (after ++ ':' :: (content.whole ++ c :: rest))))
      (String.ofList (characters pieces)) (skipSpace (content.whole ++ c :: rest)) := by
    rw [List.length_cons, List.length_append] at hsize
    refine .intro (by decide) (stringBody_of_piecesText hpieces (by omega) _ _) ?_
    rw [skipSpace_append hspaced.after, skipSpace_cons rfl]
  rw [hstart, field_of_fieldAt hat, hread]
  rfl

lemma fields_append {members : List Member} (hne : members ≠ [])
    (hread : ∀ m ∈ members, m.IsRead size read) {fuel : Nat} (hfuel : members.length ≤ fuel)
    (before : Fields) (rest : List Char) :
    fields size read fuel before
        (skipSpace (commaJoined (members.map (·.whole)) ++ '}' :: rest)) =
      .ok (.record (before.putAll (members.map (·.field))), rest) := by
  induction members generalizing fuel before with
  | nil => exact absurd rfl hne
  | cons m members ih =>
    obtain ⟨hm, hmembers⟩ := List.forall_mem_cons.1 hread
    obtain ⟨fuel, rfl⟩ := Nat.exists_eq_add_of_lt (Nat.lt_of_lt_of_le (Nat.zero_lt_succ _) hfuel)
    rw [fields]
    by_cases hlast : members = []
    · subst hlast
      obtain ⟨hfield, hskip⟩ := field_append hm (.inr (.inr rfl)) rest
      rw [List.map_singleton, commaJoined, hfield]
      dsimp only
      rw [hskip]
      rfl
    · obtain ⟨hfield, hskip⟩ := field_append hm (.inl rfl)
        (commaJoined (members.map (·.whole)) ++ '}' :: rest)
      rw [List.map_cons, commaJoined_cons (by simpa using hlast), List.append_assoc,
        List.cons_append, hfield]
      dsimp only
      rw [hskip]
      exact ih hlast hmembers (by simpa using hfuel) _

lemma object_append {members : List Member} (hne : members ≠ [])
    (hread : ∀ m ∈ members, m.IsRead size (value size depth)) (hcount : members.length ≤ size + 1)
    (rest : List Char) :
    value size (depth + 1) ('{' :: (commaJoined (members.map (·.whole)) ++ '}' :: rest)) =
      .ok (.record (Fields.putAll [] (members.map (·.field))), rest) := by
  have hfirst : ∀ text ∈ members.map (·.whole), ∀ rest more,
      skipSpace (text ++ rest) ≠ '}' :: more := by
    intro text hmem
    obtain ⟨m, hm, rfl⟩ := List.mem_map.1 hmem
    exact Member.skipSpace_whole_ne (hread m hm).toIsNamed
  rw [value_object (skipSpace_commaJoined (by simpa using hne) hfirst _),
    fields_append hne hread hcount]

end

/-- **The text of a value is read as a whole.** -/
theorem value_of_valueText (h : ValueText depth text v) (hsize : text.length ≤ size)
    (hrest : Stops rest) : value size depth (text ++ rest) = .ok (v, rest) := by
  induction h generalizing rest with
  | scalar hscalar =>
    obtain ⟨c, more, htext, hc⟩ := exists_head_of_scalarText hscalar
    rw [value_of_not_opens]
    · exact scalar_of_scalarText hscalar hrest hsize
    · subst htext
      rintro (hopens | hopens) <;> cases hopens <;> cases hc
  | emptyArray hspace =>
    rw [List.cons_append, List.append_assoc, List.singleton_append]
    exact value_emptyArray (by rw [skipSpace_append hspace, skipSpace_cons rfl])
  | @array depth its hne hspaced hits ih =>
    obtain ⟨hcount, hparts⟩ := length_commaJoined (its.map (·.whole))
    simp only [List.length_cons, List.length_append, List.length_nil, List.length_map]
      at hsize hcount
    have hread : ∀ i ∈ its, i.IsRead (value size depth) := by
      intro i hi
      have hpart := hparts i.whole (List.mem_map_of_mem hi)
      have htext := i.length_text_le
      exact ⟨hspaced i hi, begins_of_valueText (hits i hi), fun rest => ih i hi (by omega)⟩
    rw [List.cons_append, List.append_assoc, List.singleton_append]
    exact array_append hne hread (by omega) rest
  | emptyObject hspace =>
    rw [List.cons_append, List.append_assoc, List.singleton_append]
    exact value_emptyObject (by rw [skipSpace_append hspace, skipSpace_cons rfl])
  | @object depth members hne hnamed hmembers ih =>
    obtain ⟨hcount, hparts⟩ := length_commaJoined (members.map (·.whole))
    simp only [List.length_cons, List.length_append, List.length_nil, List.length_map]
      at hsize hcount
    have hread : ∀ m ∈ members, m.IsRead size (value size depth) := by
      intro m hm
      have hpart := hparts m.whole (List.mem_map_of_mem hm)
      rw [Member.whole, List.length_append, List.length_cons] at hpart
      have hname := m.name.length_text_le
      have hvalue := m.value.length_text_le
      exact ⟨hnamed m hm, by omega, (hnamed m hm).value, begins_of_valueText (hmembers m hm),
        fun rest => ih m hm (by omega)⟩
    rw [List.cons_append, List.append_assoc, List.singleton_append]
    exact object_append hne hread (by omega) rest

/-! ### Texts -/

lemma skipSpace_eq_nil_iff : skipSpace cs = [] ↔ IsSpace cs := by
  refine ⟨fun h => ?_, skipSpace_eq_nil⟩
  obtain ⟨space, hspace, hcs⟩ := exists_space cs
  rwa [hcs, h, List.append_nil]

/-- A text of the grammar is a value and white space for the reader, with the depth as the limit. -/
lemma textWithin_iff : TextWithin depth cs v ↔
    ∃ rest, value cs.length depth (skipSpace cs) = .ok (v, rest) ∧ IsSpace rest := by
  constructor
  · rintro ⟨hbefore, hafter, htext⟩
    rename_i before text after
    have hsize : text.length ≤ (before ++ text ++ after).length := by
      rw [List.length_append, List.length_append]
      omega
    have hread := value_of_valueText htext hsize (by simpa using Stops.nil.append hafter)
    obtain ⟨c, cs, rfl, hspace, -⟩ := begins_of_valueText htext
    refine ⟨after, ?_, hafter⟩
    rwa [List.append_assoc before, skipSpace_append hbefore, List.cons_append,
      skipSpace_cons hspace, ← List.cons_append, ← List.append_assoc]
  · rintro ⟨rest, hread, hrest⟩
    obtain ⟨space, hspace, hcs⟩ := exists_space cs
    obtain ⟨text, hskip, htext⟩ := valueText_of_value _ hread
    rw [hcs, hskip, ← List.append_assoc]
    exact .intro hspace hrest htext

/-- **The reader finds a value exactly in the texts of the grammar** that do not go beyond its
limit. -/
theorem readChars_iff : readChars cs = .ok v ↔ TextWithin maxDepth cs v := by
  rw [textWithin_iff, readChars]
  rcases value cs.length maxDepth (skipSpace cs) with fault | ⟨w, rest⟩
  · simp
  · simp only [← skipSpace_eq_nil_iff]
    by_cases hrest : skipSpace rest = []
    · simp [hrest]
    · simp [hrest]

/-- Where the reader does not stop for the depth, it finds the values of all texts. -/
theorem readChars_iff_isText (h : readChars cs ≠ .error .tooDeep) :
    readChars cs = .ok v ↔ IsText cs v := by
  refine ⟨fun hread => ⟨maxDepth, readChars_iff.1 hread⟩, fun ⟨depth, htext⟩ => ?_⟩
  obtain ⟨rest, hread, hrest⟩ := textWithin_iff.1 htext
  have hlimit : value cs.length maxDepth (skipSpace cs) ≠ .error .tooDeep := by
    intro hdeep
    rw [readChars, hdeep] at h
    exact h rfl
  exact readChars_iff.2 (textWithin_iff.2 ⟨rest, value_of_reads ⟨depth, hread⟩ hlimit, hrest⟩)

/-- A text has one value. -/
theorem IsText.unique {w : Value} (h : IsText cs v) (h' : IsText cs w) : v = w := by
  obtain ⟨depth, h⟩ := h
  obtain ⟨depth', h'⟩ := h'
  obtain ⟨rest, hread, -⟩ := textWithin_iff.1 h
  obtain ⟨rest', hread', -⟩ := textWithin_iff.1 h'
  have hlimit : value cs.length depth (skipSpace cs) ≠ .error .tooDeep := by
    rw [hread]
    simp
  have hsame := value_of_reads ⟨depth', hread'⟩ hlimit
  rw [hread] at hsame
  cases hsame
  rfl

end BackupSteward.Json
