import BackupSteward.Proofs.Repository.Environment

/-!
# Updates of a description

A description can be made anew with some of its fields replaced.  What is not replaced stays, what
is wrong with the new fields is reported together, and in that case the caller keeps the description
there was.  So every description that a caller holds after any number of updates is valid, and two
updates one after the other come to the same as one.
-/

namespace BackupSteward

/-- New values of some fields, each of them given once. -/
structure Update where
  fields : Fields
  distinct : fields.names.Nodup

namespace Update

/-- The update that gives no field. -/
def empty : Update := ⟨[], List.nodup_nil⟩

/-- The new value of a field, if one is given. -/
def get? (u : Update) (name : String) : Option Value := u.fields.get? name

/-- An update with another one over it. -/
def overriddenBy (u v : Update) : Update :=
  ⟨u.fields.putAll v.fields, Fields.nodup_putAll u.distinct v.fields⟩

/-- The fields are those of a description, and flags and a working directory can be read from what
is given for them. -/
structure IsTyped (u : Update) : Prop where
  known : ∀ name ∈ u.fields.names, name ∈ Description.fieldNames
  flags : ∀ v, u.get? "flags" = some v → ∃ values, v.items = .ok values
  workdir : ∀ v, u.get? "cwd" = some v → ∃ dir, Description.workdirOf v = .ok dir

lemma get?_overriddenBy (u v : Update) (name : String) :
    (u.overriddenBy v).get? name = (v.get? name).or (u.get? name) :=
  Fields.get?_putAll v.distinct u.fields name

end Update

lemma Fields.mem_names_put {fields : Fields} {name other : String} {v : Value} :
    other ∈ (fields.put name v).names ↔ other ∈ fields.names ∨ other = name := by
  rw [names_put]
  split
  case isTrue hmem => exact ⟨.inl, fun h => h.elim id fun heq => heq ▸ hmem⟩
  case isFalse => rw [List.mem_append, List.mem_singleton]

lemma Fields.mem_names_putAll {fields more : Fields} {other : String} :
    other ∈ (fields.putAll more).names ↔ other ∈ fields.names ∨ other ∈ more.names := by
  induction more generalizing fields with
  | nil => simp [putAll, names]
  | cons field more ih =>
    have hstep : fields.putAll (field :: more) = (fields.put field.1 field.2).putAll more := rfl
    have hnames : names (field :: more) = field.1 :: names more := rfl
    rw [hstep, ih, mem_names_put, hnames, List.mem_cons, or_assoc]

namespace Description

/-! ### What has to hold of a description -/

/-- What has to hold of a description. -/
inductive Requirement where
  | location
  | password
  | binary
  | flags
  | environment
  deriving DecidableEq

namespace Requirement

/-- The requirements in the order in which they are reported. -/
def all : List Requirement := [location, password, binary, flags, environment]

/-- Some values of the fields violate a requirement. -/
def Violated (value : String → Value) : Requirement → Prop
  | location => (value "uri").truthy = false ∨ Text.blank (value "uri").text = true
  | password => (value "password").truthy = false
  | binary => (value "binary").truthy = false
  | flags => ¬ ∃ flags : List String, (value "flags").items = .ok (flags.map .str) ∧
      ∀ flag ∈ flags, isFlag flag = true
  | environment => ¬ ∃ vars : List (String × String),
      value "env" = .record (vars.map fun v => (v.1, .str v.2)) ∧
        ∀ v ∈ vars, isVariableName v.1 = true

/-- The problem that is reported for a requirement, where these are the values given for the
flags. -/
def problem (flags : List Value) : Requirement → DescriptionProblem
  | location => .emptyLocation
  | password => .emptyPassword
  | binary => .emptyBinary
  | Requirement.flags => .badFlags flags
  | environment => .badVariables

end Requirement

/-- A failure that tells for each requirement that some values violate what is wrong, in the order
of the requirements, and nothing else. -/
def Refuses (value : String → Value) (failure : Failure) : Prop :=
  ∃ violated : List Requirement, violated ≠ [] ∧ violated.Sublist Requirement.all ∧
    (∀ req, req ∈ violated ↔ req.Violated value) ∧
    ∃ flags, (value "flags").items = .ok flags ∧
      failure.report? = some ⟨.configuration, "Repository configuration validation failed",
        .record [("errors", .texts (violated.map fun req => (req.problem flags).text))]⟩

lemma flags?_eq_some_iff {values : List Value} {flags : List String} :
    flags? values = some flags ↔ values = flags.map .str ∧ ∀ flag ∈ flags, isFlag flag = true := by
  constructor
  · intro h
    refine ⟨?_, isFlag_of_flags? h⟩
    induction values generalizing flags with
    | nil =>
      cases h
      rfl
    | cons v values ih =>
      cases v with
      | str s =>
        rw [flags?] at h
        obtain ⟨-, h⟩ := Option.ite_none_right_eq_some.1 h
        obtain ⟨rest, hrest, rfl⟩ := Option.map_eq_some_iff.1 h
        rw [ih hrest, List.map_cons]
      | _ => cases h
  · rintro ⟨rfl, h⟩
    induction flags with
    | nil => rfl
    | cons flag flags ih =>
      obtain ⟨hflag, hflags⟩ := List.forall_mem_cons.1 h
      rw [List.map_cons, flags?, if_pos hflag, ih hflags, Option.map_some]

lemma environment?_eq_some_iff {v : Value} {vars : List (String × String)} :
    environment? v = some vars ↔ v = .record (vars.map fun v => (v.1, .str v.2)) ∧
      ∀ v ∈ vars, isVariableName v.1 = true := by
  constructor
  · intro h
    obtain ⟨fields, rfl, hfields⟩ := environment?_eq_some h
    rw [map_of_textVariables? hfields]
    exact ⟨rfl, isVariableName_of_textVariables? hfields⟩
  · rintro ⟨rfl, h⟩
    rw [environment?]
    induction vars with
    | nil => rfl
    | cons var vars ih =>
      obtain ⟨hvar, hvars⟩ := List.forall_mem_cons.1 h
      rw [List.map_cons, textVariables?, if_pos hvar, ih hvars, Option.map_some]

/-- The parts of a description that some values of the fields are. -/
def partsOfValues (value : String → Value) (flags : List Value) : Parts where
  location := value "uri"
  flags := flags
  binary := value "binary"
  environment := value "env"
  workdir := value "cwd"
  label := value "repo_id"

lemma Requirement.isNone_flags?_iff {value : String → Value} {flags : List Value}
    (hflags : (value "flags").items = .ok flags) :
    (flags? flags).isNone = true ↔ Requirement.flags.Violated value := by
  rw [Option.isNone_iff_eq_none, Option.eq_none_iff_forall_ne_some]
  refine Iff.trans (forall_congr' fun texts => not_congr ?_) not_exists.symm
  rw [flags?_eq_some_iff, hflags, Except.ok.injEq]

lemma Requirement.isNone_environment?_iff (value : String → Value) :
    (environment? (value "env")).isNone = true ↔ Requirement.environment.Violated value := by
  rw [Option.isNone_iff_eq_none, Option.eq_none_iff_forall_ne_some]
  exact Iff.trans (forall_congr' fun vars => not_congr environment?_eq_some_iff) not_exists.symm

open Classical in
/-- One problem is found for each requirement that is violated, in their order. -/
lemma problems_eq {value : String → Value} {flags : List Value}
    (hflags : (value "flags").items = .ok flags) :
    (partsOfValues value flags).problems (value "password") =
      (Requirement.all.filter fun req => req.Violated value).map (Requirement.problem flags) := by
  have hlocation : (!(value "uri").truthy || Text.blank (value "uri").text) = true ↔
      Requirement.location.Violated value := by
    rw [Bool.or_eq_true, Bool.not_eq_true', Requirement.Violated]
  have hpassword : (!(value "password").truthy) = true ↔ Requirement.password.Violated value := by
    rw [Bool.not_eq_true', Requirement.Violated]
  have hbinary : (!(value "binary").truthy) = true ↔ Requirement.binary.Violated value := by
    rw [Bool.not_eq_true', Requirement.Violated]
  have hone (req : Requirement) (reqs : List Requirement) :
      ((req :: reqs).filter fun req => req.Violated value).map (Requirement.problem flags) =
        (if req.Violated value then [req.problem flags] else []) ++
          (reqs.filter fun req => req.Violated value).map (Requirement.problem flags) := by
    by_cases h : req.Violated value <;> simp [h]
  rw [Requirement.all, hone, hone, hone, hone, hone, List.filter_nil, List.map_nil, List.append_nil,
    Parts.problems, problems]
  simp only [partsOfValues, hlocation, hpassword, hbinary, Requirement.isNone_flags?_iff hflags,
    Requirement.isNone_environment?_iff value, List.append_assoc, Requirement.problem]

/-! ### One update -/

/-- The value of a field of a description. -/
def value (d : Description) (name : String) : Value := (d.toFields.get? name).getD .null

/-- The value that a field has behind an update. -/
def updatedValue (d : Description) (u : Update) (name : String) : Value :=
  (u.get? name).getD (d.value name)

lemma get?_putAll_update (d : Description) (u : Update) {name : String} (h : name ∈ fieldNames) :
    (d.toFields.putAll u.fields).get? name = some (d.updatedValue u name) := by
  have hfield : ∃ v, d.toFields.get? name = some v := by
    simp only [fieldNames, List.mem_cons, List.not_mem_nil, or_false] at h
    rcases h with rfl | rfl | rfl | rfl | rfl | rfl | rfl <;> exact ⟨_, rfl⟩
  obtain ⟨v, hv⟩ := hfield
  rw [Fields.get?_putAll u.distinct, updatedValue, Update.get?, value, hv, Option.getD_some]
  cases u.fields.get? name <;> rfl

lemma any_unknown_iff (d : Description) (u : Update) :
    ((d.toFields.putAll u.fields).names.any fun name => !fieldNames.contains name) = true ↔
      ¬ ∀ name ∈ u.fields.names, name ∈ fieldNames := by
  have hnames : d.toFields.names = fieldNames := rfl
  simp only [List.any_eq_true, Bool.not_eq_true', List.contains_eq_mem, decide_eq_false_iff_not,
    Fields.mem_names_putAll, hnames, not_forall]
  constructor
  · rintro ⟨name, hmem | hmem, hunknown⟩
    · exact absurd hmem hunknown
    · exact ⟨name, hmem, hunknown⟩
  · rintro ⟨name, hmem, hunknown⟩
    exact ⟨name, .inr hmem, hunknown⟩

/-- An update of unknown fields is a fault. -/
lemma withUpdates_of_unknown (d : Description) {u : Update}
    (h : ¬ ∀ name ∈ u.fields.names, name ∈ fieldNames) :
    d.withUpdates u.fields = .error (.fault .badType) := by
  rw [withUpdates, ofFields, if_pos ((d.any_unknown_iff u).2 h)]
  rfl

/-- An update makes a description of the values that the fields have behind it. -/
lemma withUpdates_of_known (d : Description) {u : Update}
    (h : ∀ name ∈ u.fields.names, name ∈ fieldNames) :
    d.withUpdates u.fields = (do
      let flags ← orFail (d.updatedValue u "flags").items
      ofFields
        ((partsOfValues (d.updatedValue u) flags).fields (d.updatedValue u "password"))) := by
  have hget (name : String) (hname : name ∈ fieldNames) := d.get?_putAll_update u hname
  rw [withUpdates, ofFields, if_neg (not_not_intro h ∘ (d.any_unknown_iff u).1), Step.listIn,
    hget "uri" (by decide), hget "password" (by decide), hget "flags" (by decide),
    hget "binary" (by decide), hget "env" (by decide), hget "cwd" (by decide),
    hget "repo_id" (by decide)]
  rfl

/-- What becomes of a part of a description: what is read from the value that is given for it, or
what it was if none is given. -/
def Replaced {α : Type} (reads : Value → α → Prop) (given : Option Value) (before after : α) :
    Prop :=
  match given with
  | some v => reads v after
  | none => after = before

/-- An update replaces the fields that it gives and keeps the others.  The flags are read as a list
of texts, and the working directory as a path. -/
structure Updated (d : Description) (u : Update) (after : Description) : Prop where
  location : Replaced (fun v location => location = v) (u.get? "uri") d.location after.location
  password : Replaced (fun v password => password = v) (u.get? "password") d.password after.password
  flags :
    Replaced (fun v flags => v.items = .ok (flags.map .str)) (u.get? "flags") d.flags after.flags
  binary : Replaced (fun v binary => binary = v) (u.get? "binary") d.binary after.binary
  environment : Replaced (fun v vars => v = .record (vars.map fun var => (var.1, .str var.2)))
    (u.get? "env") d.environment after.environment
  workdir : Replaced (fun v dir => workdirOf v = .ok dir) (u.get? "cwd") d.workdir after.workdir
  label : Replaced (fun v label => label = v) (u.get? "repo_id") d.label after.label

/-- How an update ends: with a valid description that differs in the fields given, with one failure
that tells of each requirement that is violated, or with a fault if it is not typed. -/
inductive Answers (d : Description) (u : Update) : Except Failure Description → Prop
  | updated {after : Description} (htyped : u.IsTyped)
    (hnone : ∀ req : Requirement, ¬ req.Violated (d.updatedValue u)) (hupdated : Updated d u after)
    (hvalid : after.IsValid) : Answers d u (.ok after)
  | refused {failure : Failure} (htyped : u.IsTyped)
    (hrefuses : Refuses (d.updatedValue u) failure) : Answers d u (.error failure)
  | illTyped (htyped : ¬ u.IsTyped) : Answers d u (.error (.fault .badType))

lemma Replaced.getD {α : Type} {reads : Value → α → Prop} {given : Option Value} {before after : α}
    (h : Replaced reads given before after) {motive : Value → Prop} (old : Value)
    (hreads : ∀ v, reads v after → motive v) (hkept : after = before → motive old) :
    motive (given.getD old) := by
  cases given with
  | none => exact hkept h
  | some v => exact hreads v h

lemma replaced_of_getD {α : Type} {reads : Value → α → Prop} {given : Option Value}
    {before after : α} (old : Value) (hreads : reads (given.getD old) after)
    (hkept : reads old after → after = before) :
    Replaced reads given before after := by
  cases given with
  | none => exact hkept hreads
  | some v => exact hreads

lemma items_cases (v : Value) : (∃ values, v.items = .ok values) ∨ v.items = .error .badType := by
  cases v with
  | str _ | list _ | tuple _ | record _ => exact .inl ⟨_, rfl⟩
  | _ => exact .inr rfl

lemma workdirOf_cases (v : Value) :
    (∃ dir, workdirOf v = .ok dir) ∨ workdirOf v = .error .badType := by
  cases v with
  | null | str _ | path _ => exact .inl ⟨_, rfl⟩
  | _ => exact .inr rfl

/-- The description that some values of the fields make, with what is read from three of them. -/
def ofValues (value : String → Value) (flags : List String) (vars : List (String × String))
    (dir : Option Path) : Description where
  location := value "uri"
  password := value "password"
  flags := flags
  binary := value "binary"
  environment := vars
  workdir := dir
  label := value "repo_id"

open Classical in
/-- Values that violate no requirement make a description of them. -/
lemma ofFields_of_not_violated {value : String → Value} {flags : List Value} {dir : Option Path}
    (hflags : (value "flags").items = .ok flags) (hdir : workdirOf (value "cwd") = .ok dir)
    (hnone : ∀ req : Requirement, ¬ req.Violated value) :
    ∃ (texts : List String) (vars : List (String × String)),
      (value "flags").items = .ok (texts.map .str) ∧
      value "env" = .record (vars.map fun var => (var.1, .str var.2)) ∧
      ofFields ((partsOfValues value flags).fields (value "password")) =
        .ok (ofValues value texts vars dir) ∧
      (ofValues value texts vars dir).IsValid := by
  obtain ⟨texts, htexts, hflag⟩ := not_not.1 (hnone .flags)
  obtain ⟨vars, hvars, hname⟩ := not_not.1 (hnone .environment)
  have hsome : flags? (partsOfValues value flags).flags = some texts :=
    flags?_eq_some_iff.2 ⟨Except.ok.inj (hflags.symm.trans htexts), hflag⟩
  have hvariables : environment? (partsOfValues value flags).environment = some vars :=
    environment?_eq_some_iff.2 ⟨hvars, hname⟩
  have hproblems : (partsOfValues value flags).problems (value "password") = [] := by
    rw [problems_eq hflags, List.map_eq_nil_iff, List.filter_eq_nil_iff]
    exact fun req _ => by simpa using hnone req
  refine ⟨texts, vars, htexts, hvars, ?_, isValid_of_problems hproblems hsome hvariables dir⟩
  have hworkdir : workdirOf (partsOfValues value flags).workdir = .ok dir := hdir
  rw [ofFields_parts, hworkdir, Options.orFail_ok, ok_bind, hproblems, hsome, hvariables]
  rfl

open Classical in
/-- Values that violate a requirement are refused. -/
lemma ofFields_of_violated {value : String → Value} {flags : List Value} {dir : Option Path}
    (hflags : (value "flags").items = .ok flags) (hdir : workdirOf (value "cwd") = .ok dir)
    {req : Requirement} (hreq : req.Violated value) :
    ∃ failure, ofFields ((partsOfValues value flags).fields (value "password")) = .error failure ∧
      Refuses value failure := by
  have hproblems := problems_eq hflags
  generalize hviolated : (Requirement.all.filter fun req => req.Violated value) = violated
    at hproblems
  have hiff (req : Requirement) : req ∈ violated ↔ req.Violated value := by
    rw [← hviolated, List.mem_filter, decide_eq_true_iff]
    exact and_iff_right (by cases req <;> decide)
  obtain ⟨first, rest, rfl⟩ := List.exists_cons_of_ne_nil (List.ne_nil_of_mem ((hiff req).2 hreq))
  have hworkdir : workdirOf (partsOfValues value flags).workdir = .ok dir := hdir
  refine ⟨.invalidDescription ((first :: rest).map (Requirement.problem flags)), ?_, first :: rest,
    List.cons_ne_nil _ _, hviolated ▸ List.filter_sublist, hiff, flags, hflags, ?_⟩
  · rw [ofFields_parts, hworkdir, Options.orFail_ok, ok_bind, hproblems]
    rfl
  · rw [Failure.report?, List.map_map]
    rfl

lemma map_str_injective : Function.Injective (List.map Value.str) :=
  List.map_injective_iff.2 fun _ _ h => Value.str.inj h

lemma map_variable_injective : Function.Injective
    (List.map fun var : String × String => (var.1, Value.str var.2)) := by
  refine List.map_injective_iff.2 fun x y h => ?_
  obtain ⟨hname, hvalue⟩ := Prod.mk.inj h
  exact Prod.ext hname (Value.str.inj hvalue)

lemma workdirOf_value (d : Description) : workdirOf (d.value "cwd") = .ok d.workdir := by
  obtain ⟨_, _, _, _, _, workdir, _⟩ := d
  cases workdir <;> rfl

lemma getD_value_ok {β : Type} {f : Value → Except Fault β} {given : Option Value} {old : Value}
    {b : β} (hold : f old = .ok b) (hgiven : ∀ v, given = some v → ∃ b, f v = .ok b) :
    ∃ b, f (given.getD old) = .ok b := by
  cases given with
  | none => exact ⟨b, hold⟩
  | some v => exact hgiven v rfl

/-- **How an update ends.** -/
theorem answers_withUpdates (d : Description) (u : Update) :
    Answers d u (d.withUpdates u.fields) := by
  by_cases hknown : ∀ name ∈ u.fields.names, name ∈ fieldNames
  case neg =>
    rw [d.withUpdates_of_unknown hknown]
    exact .illTyped fun htyped => hknown htyped.known
  rw [d.withUpdates_of_known hknown]
  have hflags : (d.value "flags").items = .ok (d.flags.map .str) := rfl
  have hworkdir := d.workdirOf_value
  rcases items_cases (d.updatedValue u "flags") with ⟨values, hvalues⟩ | hfault
  case inr =>
    rw [hfault]
    refine .illTyped fun htyped => ?_
    obtain ⟨values, hvalues⟩ := getD_value_ok hflags htyped.flags
    cases hfault.symm.trans hvalues
  rw [hvalues, Options.orFail_ok, ok_bind]
  rcases workdirOf_cases (d.updatedValue u "cwd") with ⟨dir, hdir⟩ | hfault
  case inr =>
    have hworkdir' :
        workdirOf (partsOfValues (d.updatedValue u) values).workdir = .error .badType :=
      hfault
    rw [ofFields_parts, hworkdir']
    refine .illTyped fun htyped => ?_
    obtain ⟨dir, hdir⟩ := getD_value_ok hworkdir htyped.workdir
    cases hfault.symm.trans hdir
  have htyped : u.IsTyped := by
    refine ⟨hknown, fun v hv => ⟨values, ?_⟩, fun v hv => ⟨dir, ?_⟩⟩
    · rw [updatedValue, hv] at hvalues
      exact hvalues
    · rw [updatedValue, hv] at hdir
      exact hdir
  by_cases hnone : ∀ req : Requirement, ¬ req.Violated (d.updatedValue u)
  · obtain ⟨texts, vars, htexts, hvars, hmade, hvalid⟩ :=
      ofFields_of_not_violated hvalues hdir hnone
    rw [hmade]
    refine .updated htyped hnone ⟨?_, ?_, ?_, ?_, ?_, ?_, ?_⟩ hvalid
    · exact replaced_of_getD d.location rfl id
    · exact replaced_of_getD d.password rfl id
    · refine replaced_of_getD (d.value "flags") htexts fun hkept => ?_
      exact map_str_injective (Except.ok.inj (hkept.symm.trans hflags))
    · exact replaced_of_getD d.binary rfl id
    · refine replaced_of_getD (d.value "env") hvars fun hkept => ?_
      exact map_variable_injective (Value.record.inj hkept.symm)
    · refine replaced_of_getD (d.value "cwd") hdir fun hkept => ?_
      exact Except.ok.inj (hkept.symm.trans hworkdir)
    · exact replaced_of_getD d.label rfl id
  · obtain ⟨req, hreq⟩ := not_forall_not.1 hnone
    obtain ⟨failure, hfailure, hrefuses⟩ := ofFields_of_violated hvalues hdir hreq
    rw [hfailure]
    exact .refused htyped hrefuses

/-! ### Several updates -/

/-- A valid description violates no requirement. -/
lemma IsValid.not_violated {d : Description} (h : d.IsValid) (req : Requirement) :
    ¬ req.Violated d.value := by
  have htruthy {v : Value} (hv : v.truthy = true) : ¬ v.truthy = false := by simp [hv]
  cases req with
  | location =>
    rintro (hfalse | hblank)
    · exact htruthy h.location hfalse
    · cases h.location_text.symm.trans hblank
  | password => exact htruthy h.password
  | binary => exact htruthy h.binary
  | flags => exact not_not_intro ⟨d.flags, rfl, h.flags⟩
  | environment => exact not_not_intro ⟨d.environment, rfl, h.names⟩

lemma Updated.eq_of_empty {d after : Description} (h : Updated d .empty after) : after = d := by
  obtain ⟨location, password, flags, binary, environment, workdir, label⟩ := after
  obtain ⟨rfl, rfl, rfl, rfl, rfl, rfl, rfl⟩ := h
  rfl

/-- The update of no field gives the description that there was. -/
theorem withUpdates_empty {d : Description} (h : d.IsValid) :
    d.withUpdates Update.empty.fields = .ok d := by
  have hanswers := d.answers_withUpdates .empty
  generalize d.withUpdates Update.empty.fields = outcome at hanswers
  cases hanswers with
  | updated htyped hnone hupdated hvalid => rw [hupdated.eq_of_empty]
  | refused htyped hrefuses =>
    obtain ⟨violated, hne, -, hiff, -⟩ := hrefuses
    obtain ⟨req, hreq⟩ := List.exists_mem_of_ne_nil violated hne
    exact absurd ((hiff req).1 hreq) (h.not_violated req)
  | illTyped htyped =>
    refine absurd ⟨fun name hname => ?_, fun v hv => ?_, fun v hv => ?_⟩ htyped
    · cases hname
    · cases hv
    · cases hv

/-- Behind an update a field holds the value that is given for it or that there was. -/
lemma Updated.value_eq {d after : Description} {u : Update} (h : Updated d u after) {name : String}
    (hname : name ∈ ["uri", "password", "binary", "env", "repo_id"]) :
    after.value name = d.updatedValue u name := by
  have hvalue {given : Option Value} {before after : Value}
      (h : Replaced (fun v after => after = v) given before after) : after = given.getD before :=
    h.getD before (fun _ => id) id
  simp only [List.mem_cons, List.not_mem_nil, or_false] at hname
  rcases hname with rfl | rfl | rfl | rfl | rfl
  · exact hvalue h.location
  · exact hvalue h.password
  · exact hvalue h.binary
  · refine h.environment.getD (d.value "env") (fun _ => Eq.symm) fun hkept => ?_
    exact congrArg (fun vars => Value.record (vars.map fun var => (var.1, .str var.2))) hkept
  · exact hvalue h.label

lemma Updated.items_flags {d after : Description} {u : Update} (h : Updated d u after) :
    (d.updatedValue u "flags").items = (after.value "flags").items := by
  refine h.flags.getD (motive := fun v => v.items = (after.value "flags").items) (d.value "flags")
    (fun _ => id) fun hkept => ?_
  exact congrArg (fun flags => Except.ok (flags.map Value.str)) hkept.symm

lemma Updated.workdirOf_eq {d after : Description} {u : Update} (h : Updated d u after) :
    workdirOf (d.updatedValue u "cwd") = workdirOf (after.value "cwd") := by
  rw [workdirOf_value]
  refine h.workdir.getD (motive := fun v => workdirOf v = .ok after.workdir) (d.value "cwd")
    (fun _ => id) fun hkept => ?_
  rw [workdirOf_value, hkept]

lemma updatedValue_overriddenBy (d : Description) (u v : Update) (name : String) :
    d.updatedValue (u.overriddenBy v) name = (v.get? name).getD (d.updatedValue u name) := by
  rw [updatedValue, Update.get?_overriddenBy, updatedValue]
  cases v.get? name <;> rfl

/-- What is read from the working directory is all that a description has of it. -/
lemma ofFields_parts_congr {p q : Parts} (password : Value)
    (hworkdir : workdirOf q.workdir = workdirOf p.workdir)
    (hrest : q = { p with workdir := q.workdir }) :
    ofFields (q.fields password) = ofFields (p.fields password) := by
  rw [ofFields_parts, ofFields_parts, hworkdir]
  rw [hrest]
  rfl

/-- **An update behind another one is the same as one update with the later over the earlier.** -/
theorem withUpdates_withUpdates {d after : Description} {u : Update}
    (h : d.withUpdates u.fields = .ok after) (v : Update) :
    after.withUpdates v.fields = d.withUpdates (u.overriddenBy v).fields := by
  have hanswers := d.answers_withUpdates u
  rw [h] at hanswers
  cases hanswers with
  | updated htyped hnone hupdated hvalid =>
    have hnames : (∀ name ∈ (u.overriddenBy v).fields.names, name ∈ fieldNames) ↔
        ∀ name ∈ v.fields.names, name ∈ fieldNames := by
      refine forall_congr' fun name => ?_
      rw [Update.overriddenBy, Fields.mem_names_putAll]
      exact ⟨fun h hmem => h (.inr hmem), fun h hmem => hmem.elim (htyped.known name) h⟩
    by_cases hknown : ∀ name ∈ v.fields.names, name ∈ fieldNames
    case neg =>
      rw [withUpdates_of_unknown after hknown, withUpdates_of_unknown d (mt hnames.1 hknown)]
    have hvalue {name : String} (hname : name ∈ ["uri", "password", "binary", "env", "repo_id"]) :
        after.updatedValue v name = d.updatedValue (u.overriddenBy v) name := by
      rw [updatedValue_overriddenBy, updatedValue, hupdated.value_eq hname]
    have hread {β : Type} (read : Value → β) {name : String}
        (hread : read (d.updatedValue u name) = read (after.value name)) :
        read (after.updatedValue v name) = read (d.updatedValue (u.overriddenBy v) name) := by
      rw [updatedValue_overriddenBy, updatedValue]
      cases v.get? name with
      | none => exact hread.symm
      | some v => rfl
    rw [withUpdates_of_known after hknown, withUpdates_of_known d (hnames.2 hknown),
      hread Value.items hupdated.items_flags, hvalue (by decide : "password" ∈ _)]
    cases (d.updatedValue (u.overriddenBy v) "flags").items with
    | error fault => rfl
    | ok flags =>
      refine ofFields_parts_congr _ (hread workdirOf hupdated.workdirOf_eq) ?_
      simp only [partsOfValues, hvalue (by decide : "uri" ∈ _), hvalue (by decide : "binary" ∈ _),
        hvalue (by decide : "env" ∈ _), hvalue (by decide : "repo_id" ∈ _)]

/-- The description that a caller has behind an update: the new one, or the one there was if the
update is refused. -/
def lastGood (d : Description) (u : Update) : Description :=
  match d.withUpdates u.fields with
  | .ok after => after
  | .error _ => d

/-- The description that a caller has behind some updates. -/
def afterUpdates (d : Description) (updates : List Update) : Description := updates.foldl lastGood d

lemma isValid_lastGood {d : Description} (h : d.IsValid) (u : Update) : (d.lastGood u).IsValid := by
  have hanswers := d.answers_withUpdates u
  rw [lastGood]
  generalize d.withUpdates u.fields = outcome at hanswers
  cases hanswers with
  | updated htyped hnone hupdated hvalid => exact hvalid
  | refused htyped hrefuses => exact h
  | illTyped htyped => exact h

/-- Whatever is updated, the description that a caller has is valid. -/
theorem isValid_afterUpdates {d : Description} (h : d.IsValid) (updates : List Update) :
    (d.afterUpdates updates).IsValid := by
  induction updates generalizing d with
  | nil => exact h
  | cons u updates ih => exact ih (isValid_lastGood h u)

/-- A description that is made of options is valid. -/
theorem isValid_of_create {location password : Value} {steps : List Step} {settings : Fields}
    {d : Description} (h : create location password steps settings = .ok d) : d.IsValid := by
  rw [create] at h
  split at h
  case isTrue => cases h
  case isFalse =>
    obtain ⟨fields, -, h⟩ := bind_eq_ok.1 h
    rw [ofArguments_eq] at h
    obtain ⟨parts, -, h⟩ := bind_eq_ok.1 h
    rw [ofFields_parts] at h
    obtain ⟨workdir, -, h⟩ := bind_eq_ok.1 h
    split at h
    case h_1 hproblems hflags henvironment =>
      cases h
      exact isValid_of_problems hproblems hflags henvironment workdir
    case h_2 => cases h

/-- **Updates keep a description valid and concern the fields given only.**  Behind any updates the
description that a caller has is valid.  A further update replaces the fields that it gives, or is
refused with one message for each requirement that is violated and changes nothing.  The update of
no field gives the same description, and an update that is followed by another one is that with the
later over the earlier. -/
theorem updates_valid_and_local {location password : Value} {steps : List Step} {settings : Fields}
    {start : Description} (h : create location password steps settings = .ok start)
    (updates : List Update) :
    let d := start.afterUpdates updates
    d.IsValid ∧ d.withUpdates Update.empty.fields = .ok d ∧
      (∀ u : Update, Answers d u (d.withUpdates u.fields) ∧
        ∀ failure, d.withUpdates u.fields = .error failure →
          start.afterUpdates (updates ++ [u]) = d) ∧
      ∀ (u : Update) (after : Description), d.withUpdates u.fields = .ok after →
        ∀ v : Update, after.withUpdates v.fields = d.withUpdates (u.overriddenBy v).fields := by
  intro d
  have hvalid : d.IsValid := isValid_afterUpdates (isValid_of_create h) updates
  refine ⟨hvalid, withUpdates_empty hvalid, fun u => ⟨d.answers_withUpdates u, ?_⟩,
    fun u after hafter v => withUpdates_withUpdates hafter v⟩
  intro failure hfailure
  have hlast : start.afterUpdates (updates ++ [u]) = d.lastGood u := List.foldl_concat ..
  rw [hlast, lastGood, hfailure]

/-- A location of blanks is refused, and what was behind the update before is kept. -/
theorem updates_valid_and_local_blank :
    let start : Description :=
      ⟨.str "/repo", .str "secret", ["--no-cache"], .str "restic", [], none, .str ""⟩
    let quiet : Update := ⟨[("flags", .list [.str "-q"])], List.nodup_singleton _⟩
    let blank : Update := ⟨[("uri", .str " "), ("binary", .str "")], by decide⟩
    let quieter : Description := { start with flags := ["-q"] }
    create (.str "/repo") (.str "secret") [Step.globalFlags [.str "--no-cache"]] [] = .ok start ∧
      start.afterUpdates [quiet] = quieter ∧ quieter.IsValid ∧
      (∃ failure, quieter.withUpdates blank.fields = .error failure ∧
        Refuses (quieter.updatedValue blank) failure) ∧
      start.afterUpdates [quiet, blank] = quieter := by
  intro start quiet blank quieter
  have hcreate : create (.str "/repo") (.str "secret") [Step.globalFlags [.str "--no-cache"]] [] =
    .ok start := rfl
  have hupdated : start.withUpdates quiet.fields = .ok quieter := by
    subst start quiet quieter
    rfl
  have hquiet : start.afterUpdates [quiet] = quieter := by
    show start.lastGood quiet = quieter
    rw [lastGood, hupdated]
  have hrefused : quieter.withUpdates blank.fields =
      .error (.invalidDescription [.emptyLocation, .emptyBinary]) := by
    subst start blank quieter
    rfl
  obtain ⟨hvalid, -, hupdates, -⟩ := updates_valid_and_local hcreate [quiet]
  rw [hquiet] at hvalid hupdates
  obtain ⟨hanswers, hkept⟩ := hupdates blank
  rw [hrefused] at hanswers
  refine ⟨hcreate, hquiet, hvalid, ⟨_, hrefused, ?_⟩, hkept _ hrefused⟩
  cases hanswers with
  | refused htyped hrefuses => exact hrefuses

end Description

end BackupSteward
