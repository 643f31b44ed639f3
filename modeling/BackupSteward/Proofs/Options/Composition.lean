import BackupSteward.Proofs.Options.Growth
import Mathlib.Data.List.Induction
import Mathlib.Data.Set.List

/-!
# What options make of a field

Options may be nested in each other, but in the end each of them changes single fields of a record
of arguments, and what it makes of a field is told by that field alone.  The file takes options
apart into changes of single fields and follows each field through all of them: a list grows by all
that is supplied for it, a field that is set has the last value, and of the variables of one name
the last one counts.
-/

namespace BackupSteward

/-- Two records with the same values in the same fields. -/
def Fields.Same (p q : Fields) : Prop := ∀ name, p.get? name = q.get? name

lemma Fields.Same.put {p q : Fields} (h : p.Same q) (name : String) (v : Value) :
    (p.put name v).Same (q.put name v) := by
  intro field
  rw [get?_put, get?_put, h field]

namespace Step

variable {p q : Fields} {steps others : List Step} {change : Step} {field : String}

/-! ### Changes to single fields -/

mutual

/-- The changes to single fields that a change consists of, from the first to the last. -/
@[simp]
def parts : Step → List Step
  | append field texts => [append field texts]
  | assign field value => [assign field value]
  | addVariables more => [addVariables more]
  | sequence steps => partsOfAll steps

/-- The changes to single fields that several changes consist of, from the first to the last. -/
@[simp]
def partsOfAll : List Step → List Step
  | [] => []
  | step :: steps => parts step ++ partsOfAll steps

end

lemma applyAll_single (step : Step) (p : Fields) : applyAll [step] p = apply step p := by
  rw [applyAll]
  cases apply step p with
  | error fault => rfl
  | ok q =>
    dsimp only
    rw [applyAll]

mutual

/-- Taking a change apart makes no difference to a record. -/
theorem applyAll_parts : ∀ (step : Step) (p : Fields), applyAll (parts step) p = apply step p
  | append field texts, p | assign field texts, p | addVariables more, p => by
    rw [parts, applyAll_single]
  | sequence steps, p => by rw [parts, apply, applyAll_partsOfAll steps p]

/-- Taking changes apart makes no difference to a record, however they are nested. -/
theorem applyAll_partsOfAll : ∀ (steps : List Step) (p : Fields),
    applyAll (partsOfAll steps) p = applyAll steps p
  | [], p => by rw [partsOfAll]
  | step :: steps, p => by
    rw [partsOfAll, applyAll_append, applyAll_parts step p, applyAll]
    rcases apply step p with fault | q
    · rfl
    · exact applyAll_partsOfAll steps q

end

/-- The field that a change is for; a sequence is for none of its own. -/
def field? : Step → Option String
  | append field _ | assign field _ => some field
  | addVariables _ => some "env"
  | sequence _ => none

/-- The value that a change sets its field to. -/
def value? : Step → Option Value
  | assign _ value => some value
  | append _ _ | addVariables _ | sequence _ => none

/-- Those of some changes that are for a field. -/
def onField (field : String) (changes : List Step) : List Step :=
  changes.filter fun change => change.field? = some field

/-- The changes to a field that some options consist of, from the first to the last. -/
def changesTo (field : String) (steps : List Step) : List Step := onField field (partsOfAll steps)

mutual

lemma isSome_field?_of_parts : ∀ (step : Step), ∀ change ∈ parts step, change.field?.isSome
  | append field texts | assign field texts | addVariables more => by simp [field?]
  | sequence steps => by
    rw [parts]
    exact isSome_field?_of_partsOfAll steps

lemma isSome_field?_of_partsOfAll : ∀ (steps : List Step),
    ∀ change ∈ partsOfAll steps, change.field?.isSome
  | [] => by simp
  | step :: steps => by
    rw [partsOfAll, List.forall_mem_append]
    exact ⟨isSome_field?_of_parts step, isSome_field?_of_partsOfAll steps⟩

end

/-! ### What becomes of a field -/

/-- The list that a field with some value holds. -/
def listOf : Option Value → Except Fault (List Value)
  | none => .ok []
  | some v => v.items

/-- The variables that a field with some value holds. -/
def variablesOf : Option Value → Except Fault Fields
  | none => .ok []
  | some (.record vars) => .ok vars
  | some _ => .error .badType

lemma listIn_eq (p : Fields) (field : String) : listIn p field = listOf (p.get? field) := rfl

lemma variablesIn_eq (p : Fields) : variablesIn p = variablesOf (p.get? "env") := rfl

/-- What a change makes of the value of its field. -/
def revised (v : Option Value) : Step → Except Fault (Option Value)
  | append _ texts => (listOf v).map fun xs => some (.list (xs ++ texts.map .str))
  | assign _ value => .ok (some value)
  | addVariables more => (variablesOf v).map fun vars => some (.record (vars.putAll more))
  | sequence _ => .ok v

/-- What several changes, one after the other, make of the value of their field. -/
def settled (changes : List Step) (v : Option Value) : Except Fault (Option Value) :=
  changes.foldlM revised v

lemma listOf_cases (v : Option Value) : (∃ xs, listOf v = .ok xs) ∨ listOf v = .error .badType := by
  rcases v with _ | v
  · exact .inl ⟨[], rfl⟩
  · cases v <;> simp [listOf, Value.items]

lemma variablesOf_cases (v : Option Value) :
    (∃ vars, variablesOf v = .ok vars) ∨ variablesOf v = .error .badType := by
  rcases v with _ | v
  · exact .inl ⟨[], rfl⟩
  · cases v <;> simp [variablesOf]

/-- A change sets its field to what it makes of it, or is a fault if the field does not allow
that. -/
lemma apply_cases (hfield : change.field? = some field) (p : Fields) :
    (∃ v, revised (p.get? field) change = .ok (some v) ∧ apply change p = .ok (p.put field v)) ∨
      revised (p.get? field) change = .error .badType ∧ apply change p = .error .badType := by
  cases change with
  | append name texts =>
    cases hfield
    rw [apply, revised, listIn_eq]
    rcases listOf_cases (p.get? field) with ⟨xs, hxs⟩ | hfault
    · rw [hxs]
      exact .inl ⟨_, rfl, rfl⟩
    · rw [hfault]
      exact .inr ⟨rfl, rfl⟩
  | assign name value =>
    cases hfield
    exact .inl ⟨value, rfl, by rw [apply]⟩
  | addVariables more =>
    cases hfield
    rw [apply, revised, variablesIn_eq]
    rcases variablesOf_cases (p.get? "env") with ⟨vars, hvars⟩ | hfault
    · rw [hvars]
      exact .inl ⟨_, rfl, rfl⟩
    · rw [hfault]
      exact .inr ⟨rfl, rfl⟩
  | sequence steps => cases hfield

/-- What becomes of a record is told field by field: each field is settled by the changes to it, or
one of them cannot be settled. -/
inductive Settles (changes : List Step) (p : Fields) : Except Fault Fields → Prop
  | record {q : Fields}
    (h : ∀ field, settled (onField field changes) (p.get? field) = .ok (q.get? field)) :
    Settles changes p (.ok q)
  | fault {field : String}
    (h : settled (onField field changes) (p.get? field) = .error .badType) :
    Settles changes p (.error .badType)

lemma settled_cons (changes : List Step) (v : Option Value) :
    settled (change :: changes) v = revised v change >>= settled changes := List.foldlM_cons

lemma onField_cons_of_eq (h : change.field? = some field) (changes : List Step) :
    onField field (change :: changes) = change :: onField field changes :=
  List.filter_cons_of_pos (by simpa using h)

lemma onField_cons_of_ne (h : change.field? ≠ some field) (changes : List Step) :
    onField field (change :: changes) = onField field changes :=
  List.filter_cons_of_neg (by simpa using h)

/-- Changes to single fields settle each field by those to it.  The induction is on the changes;
each of them concerns one field and leaves the others to the rest. -/
lemma settles_changes {changes : List Step} (h : ∀ change ∈ changes, change.field?.isSome)
    (p : Fields) : Settles changes p (applyAll changes p) := by
  induction changes generalizing p with
  | nil =>
    rw [applyAll]
    exact .record fun field => rfl
  | cons change changes ih =>
    obtain ⟨hsome, hrest⟩ := List.forall_mem_cons.1 h
    obtain ⟨field, hfield⟩ := Option.isSome_iff_exists.1 hsome
    rw [applyAll]
    rcases apply_cases hfield p with ⟨v, hrevised, happly⟩ | ⟨hrevised, happly⟩
    · -- the rest starts from a record in which only this field differs
      have hsettled (name : String) : settled (onField name (change :: changes)) (p.get? name) =
          settled (onField name changes) ((p.put field v).get? name) := by
        rw [Fields.get?_put]
        split
        case isTrue heq =>
          subst heq
          rw [onField_cons_of_eq hfield, settled_cons, hrevised]
          rfl
        case isFalse hne =>
          rw [onField_cons_of_ne (by rw [hfield]; simpa using hne)]
      have hsettles := ih hrest (p.put field v)
      rw [happly]
      dsimp only
      generalize applyAll changes (p.put field v) = result at hsettles ⊢
      cases hsettles with
      | record h => exact .record fun name => (hsettled name).trans (h name)
      | fault h => exact .fault ((hsettled _).trans h)
    · have hfault :
          settled (onField field (change :: changes)) (p.get? field) = .error .badType := by
        rw [onField_cons_of_eq hfield, settled_cons, hrevised]
        rfl
      rw [happly]
      exact .fault hfault

/-- **Options settle each field by the changes to it.** -/
theorem settles_applyAll (steps : List Step) (p : Fields) :
    Settles (partsOfAll steps) p (applyAll steps p) := by
  rw [← applyAll_partsOfAll]
  exact settles_changes (isSome_field?_of_partsOfAll steps) p

/-! ### What fields hold in the end -/

lemma settled_appends_list (field : String) (textss : List (List String)) (xs : List Value) :
    settled (textss.map (append field)) (some (.list xs)) =
      .ok (some (.list (xs ++ textss.flatten.map .str))) := by
  induction textss generalizing xs with
  | nil => simp [settled, pure, Except.pure]
  | cons texts textss ih =>
    have hrevised : revised (some (.list xs)) (append field texts) =
      .ok (some (.list (xs ++ texts.map .str))) := rfl
    rw [List.map_cons, settled_cons, hrevised, ok_bind, ih, List.flatten_cons, List.map_append,
      List.append_assoc]

/-- All texts that are added to a list stand behind what it held, in the order of the changes. -/
lemma settled_appends {v : Option Value} {xs : List Value} (h : listOf v = .ok xs) (field : String)
    (textss : List (List String)) : settled (textss.map (append field)) v =
      .ok (if textss = [] then v else some (.list (xs ++ textss.flatten.map .str))) := by
  cases textss with
  | nil => rfl
  | cons texts textss =>
    have hrevised : revised v (append field texts) = .ok (some (.list (xs ++ texts.map .str))) := by
      rw [revised, h]
      rfl
    rw [List.map_cons, settled_cons, hrevised, ok_bind, settled_appends_list, if_neg (by simp),
      List.flatten_cons, List.map_append, List.append_assoc]

/-- Of the values that a field is set to the last one counts. -/
lemma settled_assigns (field : String) (values : List Value) (v : Option Value) :
    settled (values.map (assign field)) v = .ok (values.getLast?.or v) := by
  induction values generalizing v with
  | nil => rfl
  | cons value values ih =>
    have hrevised : revised v (assign field value) = .ok (some value) := rfl
    rw [List.map_cons, settled_cons, hrevised, ok_bind, ih, List.getLast?_cons]
    cases values.getLast? <;> rfl

/-- Variables are added one record after the other. -/
lemma settled_addVariables (mores : List Fields) {v : Option Value} {vars : Fields}
    (h : variablesOf v = .ok vars) : ∃ w, settled (mores.map addVariables) v = .ok w ∧
      variablesOf w = .ok (vars.putAll mores.flatten) := by
  induction mores generalizing v vars with
  | nil => exact ⟨v, rfl, h⟩
  | cons more mores ih =>
    have hrevised : revised v (addVariables more) = .ok (some (.record (vars.putAll more))) := by
      rw [revised, h]
      rfl
    have hmerged : vars.putAll (more :: mores).flatten =
        (vars.putAll more).putAll mores.flatten := by
      rw [List.flatten_cons, Fields.putAll, List.foldl_append]
      rfl
    rw [List.map_cons, settled_cons, hrevised, ok_bind, hmerged]
    exact ih rfl

/-- What some options make of a record of arguments, field by field. -/
structure NormalForm (steps : List Step) (p q : Fields) : Prop where
  /-- A list that is added to holds what it held and all texts that are supplied, in their order. -/
  lists (field : String) (textss : List (List String)) (xs : List Value) :
    changesTo field steps = textss.map (append field) → listIn p field = .ok xs →
    q.get? field =
      if textss = [] then p.get? field else some (.list (xs ++ textss.flatten.map .str))
  /-- A field that is set has the last value. -/
  assigned (field : String) (values : List Value) :
    changesTo field steps = values.map (assign field) →
    q.get? field = values.getLast?.or (p.get? field)
  /-- Of the variables of one name the last one counts. -/
  merged (mores : List Fields) (vars : Fields) :
    changesTo "env" steps = mores.map addVariables → variablesIn p = .ok vars →
    ∃ all, variablesIn q = .ok all ∧
      ∀ name, all.get? name = (Fields.get? mores.flatten.reverse name).or (vars.get? name)

end Step

/-- Of fields that are set over others the last one of each name counts. -/
lemma Fields.get?_putAll_last (fields more : Fields) (name : String) :
    (fields.putAll more).get? name = (Fields.get? more.reverse name).or (fields.get? name) := by
  induction more using List.reverseRecOn with
  | nil => rfl
  | append_singleton more field ih =>
    have hput : fields.putAll (more ++ [field]) = (fields.putAll more).put field.1 field.2 := by
      rw [putAll, List.foldl_append]
      rfl
    rw [hput, get?_put, ih, List.reverse_concat, get?]
    split <;> rfl

namespace Step

variable {p q : Fields} {steps others : List Step}

theorem normalForm_of_applyAll (h : applyAll steps p = .ok q) : NormalForm steps p q := by
  have hsettled (field : String) : settled (changesTo field steps) (p.get? field) =
      .ok (q.get? field) := by
    have hsettles := settles_applyAll steps p
    rw [h] at hsettles
    cases hsettles with
    | record hrecord => exact hrecord field
  refine ⟨fun field textss xs hchanges hxs => ?_, fun field values hchanges => ?_,
    fun mores vars hchanges hvars => ?_⟩
  · have hfield := hsettled field
    rw [hchanges, settled_appends hxs] at hfield
    exact (Except.ok.inj hfield).symm
  · have hfield := hsettled field
    rw [hchanges, settled_assigns] at hfield
    exact (Except.ok.inj hfield).symm
  · have hfield := hsettled "env"
    obtain ⟨w, hw, hmerged⟩ := settled_addVariables mores hvars
    rw [hchanges, hw] at hfield
    obtain rfl := Except.ok.inj hfield
    exact ⟨_, hmerged, Fields.get?_putAll_last vars mores.flatten⟩

/-! ### Options of some kinds -/

mutual

lemma offered_iff_parts : ∀ (step : Step), Offered step ↔ ∀ change ∈ parts step, Offered change
  | append field texts | assign field texts | addVariables more => by
    rw [parts, List.forall_mem_singleton]
  | sequence steps => by rw [Offered, parts, allOffered_iff_parts steps]

lemma allOffered_iff_parts : ∀ (steps : List Step),
    AllOffered steps ↔ ∀ change ∈ partsOfAll steps, Offered change
  | [] => by simp [AllOffered]
  | step :: steps => by
    rw [AllOffered, partsOfAll, List.forall_mem_append, offered_iff_parts step,
      allOffered_iff_parts steps]

end

/-- Options that add to some fields and set some others, and do nothing else. -/
def MadeOf (lists free : List String) (steps : List Step) : Prop :=
  ∀ change ∈ partsOfAll steps, (∃ field ∈ lists, ∃ texts, change = append field texts) ∨
    ∃ field ∈ free, ∃ value, change = assign field value

lemma MadeOf.allOffered {lists free : List String} (h : MadeOf lists free steps)
    (hlists : lists ⊆ listFields) (hfree : free ⊆ freeFields) : AllOffered steps := by
  rw [allOffered_iff_parts]
  intro change hmem
  rcases h change hmem with ⟨field, hfield, texts, rfl⟩ | ⟨field, hfield, value, rfl⟩
  · rw [Offered]
    exact hlists hfield
  · rw [Offered]
    exact hfree hfield

mutual

lemma added_eq_flatMap (field : String) : ∀ (step : Step),
    added field step = (parts step).flatMap (added field)
  | append _ _ | assign _ _ | addVariables _ => by rw [parts, List.flatMap_singleton]
  | sequence steps => by rw [added, parts, addedByAll_eq_flatMap field steps]

lemma addedByAll_eq_flatMap (field : String) : ∀ (steps : List Step),
    addedByAll field steps = (partsOfAll steps).flatMap (added field)
  | [] => by rw [addedByAll, partsOfAll, List.flatMap_nil]
  | step :: steps => by
    rw [addedByAll, partsOfAll, List.flatMap_append, added_eq_flatMap field step,
      addedByAll_eq_flatMap field steps]

end

/-- Nothing is added to any other field. -/
lemma MadeOf.addedByAll_eq_nil {lists free : List String} (h : MadeOf lists free steps)
    {field : String} (hfield : field ∉ lists) : addedByAll field steps = [] := by
  rw [addedByAll_eq_flatMap, List.flatMap_eq_nil_iff]
  intro change hmem
  rcases h change hmem with ⟨name, hname, texts, rfl⟩ | ⟨name, -, value, rfl⟩
  · rw [added, if_neg (ne_of_mem_of_not_mem hname hfield)]
  · rw [added]

/-- The changes to each field are of one kind. -/
structure OfOneKind (steps : List Step) : Prop where
  lists (field : String) : field ∈ listFields →
    ∃ textss : List (List String), changesTo field steps = textss.map (append field)
  free (field : String) : field ∈ freeFields →
    ∃ values : List Value, changesTo field steps = values.map (assign field)
  environment : ∃ mores : List Fields, changesTo "env" steps = mores.map addVariables

/-- A change of the kind that options make is for a field of its kind. -/
lemma cases_of_offered {change : Step} {field : String} (h : Offered change)
    (hfield : change.field? = some field) :
    (field ∈ listFields ∧ ∃ texts, append field texts = change) ∨
      (field ∈ freeFields ∧ ∃ value, assign field value = change) ∨
      field = "env" ∧ ∃ more, addVariables more = change := by
  cases change with
  | append name texts =>
    cases hfield
    rw [Offered] at h
    exact .inl ⟨h, texts, rfl⟩
  | assign name value =>
    cases hfield
    rw [Offered] at h
    exact .inr (.inl ⟨h, value, rfl⟩)
  | addVariables more =>
    cases hfield
    exact .inr (.inr ⟨rfl, more, rfl⟩)
  | sequence steps => cases hfield

/-- The options that are offered change each field in one way. -/
theorem ofOneKind_of_offered (h : AllOffered steps) : OfOneKind steps := by
  have hcases {field : String} {change : Step} (hmem : change ∈ changesTo field steps) :
      (field ∈ listFields ∧ ∃ texts, append field texts = change) ∨
        (field ∈ freeFields ∧ ∃ value, assign field value = change) ∨
        field = "env" ∧ ∃ more, addVariables more = change := by
    obtain ⟨hpart, hfield⟩ := List.mem_filter.1 hmem
    exact cases_of_offered ((allOffered_iff_parts steps).1 h change hpart) (by simpa using hfield)
  have hmap {α : Type} (f : α → Step) {field : String}
      (hall : ∀ change ∈ changesTo field steps, ∃ a, f a = change) :
      ∃ xs : List α, changesTo field steps = xs.map f := by
    have hrange : changesTo field steps ∈ Set.range (List.map f) := by
      rw [Set.range_list_map]
      exact hall
    exact hrange.imp fun _ => Eq.symm
  refine ⟨fun field hlist => hmap _ fun change hmem => ?_,
    fun field hfree => hmap _ fun change hmem => ?_, hmap _ fun change hmem => ?_⟩
  · rcases hcases hmem with ⟨-, htexts⟩ | ⟨hfree, -⟩ | ⟨rfl, -⟩
    · exact htexts
    · exact absurd hlist (not_mem_listFields hfree).1
    · exact absurd hlist (by decide)
  · rcases hcases hmem with ⟨hlist, -⟩ | ⟨-, hvalue⟩ | ⟨rfl, -⟩
    · exact absurd hlist (not_mem_listFields hfree).1
    · exact hvalue
    · exact absurd hfree (by decide)
  · rcases hcases hmem with ⟨hlist, -⟩ | ⟨hfree, -⟩ | ⟨-, hmore⟩
    · exact absurd hlist (by decide)
    · exact absurd hfree (by decide)
    · exact hmore

/-- The last value that a field is set to; null if it is not set. -/
def lastOf (field : String) (steps : List Step) : Value :=
  ((changesTo field steps).filterMap value?).getLast?.getD .null

/-- A field that was null has the last value it is set to. -/
lemma get?_of_assigned {field : String} (h : AllOffered steps) (hfree : field ∈ freeFields)
    (hnull : p.get? field = some .null) (hq : applyAll steps p = .ok q) :
    q.get? field = some (lastOf field steps) := by
  obtain ⟨values, hvalues⟩ := (ofOneKind_of_offered h).free field hfree
  have hall : (values.map (assign field)).filterMap value? = values := by
    rw [List.filterMap_map]
    exact List.filterMap_some
  rw [(normalForm_of_applyAll hq).assigned field values hvalues, hnull, lastOf, hvalues, hall]
  cases values.getLast? <;> rfl

end Step

end BackupSteward
