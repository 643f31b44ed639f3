import BackupSteward.Options.Render
import BackupSteward.Proofs.Outcome

/-!
# How options grow into arguments

The options of an operation are applied to a record of arguments one by one.  The options that are
offered only add to lists and to the variables, and set fields that are no lists; so all of them
apply, and each list in the record afterwards is what the options have added to it, in their order.
The file reads off this which options are refused.
-/

namespace BackupSteward

namespace Step

/-- The fields that options add to. -/
def listFields : List String :=
  ["paths", "excludes", "iexcludes", "tags", "extra_flags", "hosts", "includes", "flags"]

/-- The fields that options set. -/
def freeFields : List String := ["host", "parent", "binary", "cwd", "repo_id"]

mutual

/-- A change of the kind that options make, for whatever operation. -/
def Offered : Step → Prop
  | append field _ => field ∈ listFields
  | assign field _ => field ∈ freeFields
  | addVariables _ => True
  | sequence steps => AllOffered steps

/-- Several changes of the kind that options make. -/
def AllOffered : List Step → Prop
  | [] => True
  | step :: steps => Offered step ∧ AllOffered steps

end

mutual

/-- The texts that a change adds to a field. -/
def added (field : String) : Step → List String
  | append name texts => if name = field then texts else []
  | assign _ _ | addVariables _ => []
  | sequence steps => addedByAll field steps

/-- The texts that several changes add to a field, from the first to the last. -/
def addedByAll (field : String) : List Step → List String
  | [] => []
  | step :: steps => added field step ++ addedByAll field steps

end

/-- A record of arguments holds a list in a field; where there is no such field the list is
empty. -/
def HoldsList (fields : Fields) (name : String) (xs : List Value) : Prop :=
  fields.get? name = some (.list xs) ∨ fields.get? name = none ∧ xs = []

/-- A record of arguments that options apply to. -/
structure Ready (fields : Fields) : Prop where
  lists : ∀ name ∈ listFields, ∃ xs, HoldsList fields name xs
  environment : ∃ vars, variablesIn fields = .ok vars

/-- From one record of arguments to another one the lists have grown by some texts, and what options
neither add to nor set is the same. -/
structure Grows (texts : String → List String) (p q : Fields) : Prop where
  list (name : String) (xs : List Value) : name ∈ listFields → HoldsList p name xs →
    HoldsList q name (xs ++ (texts name).map .str)
  environment : (∃ vars, variablesIn p = .ok vars) → ∃ vars, variablesIn q = .ok vars
  fixed (name : String) : name ∉ listFields → name ∉ freeFields → name ≠ "env" →
    q.get? name = p.get? name

variable {p q : Fields}

lemma HoldsList.listIn {name : String} {xs : List Value} (h : HoldsList p name xs) :
    listIn p name = .ok xs := by
  rcases h with hsome | ⟨hnone, rfl⟩
  · rw [Step.listIn, hsome]
    rfl
  · rw [Step.listIn, hnone]

lemma HoldsList.given {name : String} {xs : List Value} (h : HoldsList p name xs) :
    Value.given (p.get? name) = !xs.isEmpty := by
  rcases h with hsome | ⟨hnone, rfl⟩
  · rw [hsome, Value.given, Value.truthy]
  · rw [hnone]
    rfl

lemma HoldsList.put_of_ne {name field : String} {xs : List Value} (h : HoldsList p name xs)
    (v : Value) (hne : field ≠ name) : HoldsList (p.put field v) name xs := by
  rw [HoldsList, Fields.get?_put, if_neg hne]
  exact h

lemma variablesIn_put {field : String} (v : Value) (hne : field ≠ "env") :
    variablesIn (p.put field v) = variablesIn p := by
  rw [variablesIn, Fields.get?_put, if_neg hne, variablesIn]

lemma Grows.ready {texts : String → List String} (h : Grows texts p q) (hp : Ready p) :
    Ready q where
  lists name hname := by
    obtain ⟨xs, hxs⟩ := hp.lists name hname
    exact ⟨_, h.list name xs hname hxs⟩
  environment := h.environment hp.environment

lemma Grows.refl (p : Fields) : Grows (fun _ => []) p p where
  list name xs _ hxs := by simpa using hxs
  environment h := h
  fixed _ _ _ _ := rfl

lemma Grows.trans {texts more : String → List String} {r : Fields} (h : Grows texts p q)
    (h' : Grows more q r) : Grows (fun name => texts name ++ more name) p r where
  list name xs hname hxs := by
    rw [List.map_append, ← List.append_assoc]
    exact h'.list name _ hname (h.list name xs hname hxs)
  environment hp := h'.environment (h.environment hp)
  fixed name hlist hfree henv :=
    (h'.fixed name hlist hfree henv).trans (h.fixed name hlist hfree henv)

/-- Adding texts to a list makes it grow. -/
lemma grows_append {field : String} {xs : List Value} (hfield : field ∈ listFields)
    (hxs : HoldsList p field xs) (texts : List String) :
    Grows (added · (append field texts)) p (p.put field (.list (xs ++ texts.map .str))) where
  list name ys hname hys := by
    rw [added]
    split
    case isTrue heq =>
      subst heq
      have hsame : ys = xs := Except.ok.inj (hys.listIn.symm.trans hxs.listIn)
      rw [hsame]
      exact .inl (by rw [Fields.get?_put, if_pos rfl])
    case isFalse hne => simpa using hys.put_of_ne _ hne
  environment h := by
    have hne : field ≠ "env" := fun heq => absurd hfield (by rw [heq]; decide)
    rwa [variablesIn_put _ hne]
  fixed name hlist _ _ := by
    have hne : field ≠ name := fun heq => hlist (heq ▸ hfield)
    rw [Fields.get?_put, if_neg hne]

/-- Setting a field that is no list leaves the lists. -/
lemma grows_put {field : String} (hlist : field ∉ listFields)
    (hfree : field ∈ freeFields ∨ field = "env") (v : Value)
    (hvariables : (∃ vars, variablesIn p = .ok vars) →
      ∃ vars, variablesIn (p.put field v) = .ok vars) :
    Grows (fun _ => []) p (p.put field v) where
  list name xs hname hxs := by
    have hne : field ≠ name := fun heq => hlist (heq ▸ hname)
    simpa using hxs.put_of_ne v hne
  environment := hvariables
  fixed name _ hnotFree hnotEnv := by
    have hne : field ≠ name := by
      rintro rfl
      exact hfree.elim hnotFree hnotEnv
    rw [Fields.get?_put, if_neg hne]

lemma not_mem_listFields {field : String} (h : field ∈ freeFields) :
    field ∉ listFields ∧ field ≠ "env" := by
  simp only [freeFields, List.mem_cons, List.not_mem_nil, or_false] at h
  rcases h with rfl | rfl | rfl | rfl | rfl <;> decide

mutual

/-- A change of the kind that options make applies, and makes the lists grow. -/
theorem grows_apply : ∀ (step : Step) {p : Fields}, Offered step → Ready p →
    ∃ q, apply step p = .ok q ∧ Grows (added · step) p q
  | append field texts, p, hoffered, hp => by
    rw [Offered] at hoffered
    obtain ⟨xs, hxs⟩ := hp.lists field hoffered
    exact ⟨_, by rw [apply, hxs.listIn]; rfl, grows_append hoffered hxs texts⟩
  | assign field value, p, hoffered, hp => by
    rw [Offered] at hoffered
    obtain ⟨hlist, henv⟩ := not_mem_listFields hoffered
    refine ⟨_, by rw [apply], ?_⟩
    simpa only [added] using
      grows_put hlist (.inl hoffered) value fun h => by rwa [variablesIn_put value henv]
  | addVariables more, p, hoffered, hp => by
    obtain ⟨vars, hvars⟩ := hp.environment
    refine ⟨_, by rw [apply, hvars]; rfl, ?_⟩
    simpa only [added] using
      grows_put (by decide) (.inr rfl) (.record (vars.putAll more)) fun _ =>
        ⟨_, by rw [variablesIn, Fields.get?_put, if_pos rfl]⟩
  | sequence steps, p, hoffered, hp => by
    rw [Offered] at hoffered
    obtain ⟨q, hq, hgrows⟩ := grows_applyAll steps hoffered hp
    refine ⟨q, by rw [apply, hq], ?_⟩
    simpa only [added] using hgrows

/-- Changes of the kind that options make apply one after the other, and the lists grow by all that
they add. -/
theorem grows_applyAll : ∀ (steps : List Step) {p : Fields}, AllOffered steps → Ready p →
    ∃ q, applyAll steps p = .ok q ∧ Grows (addedByAll · steps) p q
  | [], p, _, _ => ⟨p, by rw [applyAll], by simpa only [addedByAll] using Grows.refl p⟩
  | step :: steps, p, hoffered, hp => by
    rw [AllOffered] at hoffered
    obtain ⟨q, hq, hgrows⟩ := grows_apply step hoffered.1 hp
    obtain ⟨r, hr, hgrows'⟩ := grows_applyAll steps hoffered.2 (hgrows.ready hp)
    refine ⟨r, ?_, ?_⟩
    · rw [applyAll, hq]
      exact hr
    · simpa only [addedByAll] using hgrows.trans hgrows'

end

/-- Options that are applied to a record with empty lists fill these with what they add. -/
lemma applyAll_of_empty (empty : Fields) {steps : List Step} (h : AllOffered steps)
    (hlists : ∀ name ∈ listFields, HoldsList empty name [])
    (hvariables : empty.get? "env" = none) :
    ∃ fields, applyAll steps empty = .ok fields ∧
      (∀ name ∈ listFields, HoldsList fields name ((addedByAll name steps).map .str)) ∧
      ∀ name, name ∉ listFields → name ∉ freeFields → name ≠ "env" →
        fields.get? name = empty.get? name := by
  have hready : Ready empty :=
    ⟨fun name hname => ⟨[], hlists name hname⟩, [], by rw [variablesIn, hvariables]⟩
  obtain ⟨fields, hfields, hgrows⟩ := grows_applyAll steps h hready
  exact ⟨fields, hfields, fun name hname => hgrows.list name [] hname (hlists name hname),
    hgrows.fixed⟩

end Step

namespace Options

open Step

/-- A flag in front of each of some texts. -/
def flaggedTexts (flag : String) (texts : List String) : List Value :=
  texts.flatMap fun text => [.str flag, .str text]

lemma flagged_of_list {fields : Fields} {name : String} {texts : List String}
    (h : HoldsList fields name (texts.map .str)) (flag : String) :
    flagged fields name flag = .ok (flaggedTexts flag texts) := by
  rw [flagged, h.listIn, flaggedTexts, Except.map, List.flatMap_map]

lemma orFail_ok {α : Type} (a : α) : orFail (.ok a : Except Fault α) = .ok a := rfl

/-- Options of a backup are refused if they name no path, and are rendered otherwise. -/
theorem backupFromSteps_eq {options : List Step} (h : AllOffered options) :
    ∃ fields, applyAll options emptyBackup = .ok fields ∧
      backupFromSteps options =
        if addedByAll "paths" options = [] then .error .noBackupPaths
        else .ok (flaggedTexts "--exclude" (addedByAll "excludes" options) ++
          flaggedTexts "--iexclude" (addedByAll "iexcludes" options) ++
          flaggedTexts "--tag" (addedByAll "tags" options) ++
          flaggedIfGiven fields "host" "--host" ++ flaggedIfGiven fields "parent" "--parent" ++
          (addedByAll "extra_flags" options).map .str ++
          (addedByAll "paths" options).map .str) := by
  obtain ⟨fields, hfields, hlist, -⟩ :=
    applyAll_of_empty emptyBackup h (by simp [listFields, HoldsList, emptyBackup, Fields.get?]) rfl
  have hpaths := hlist "paths" (by decide)
  refine ⟨fields, hfields, ?_⟩
  rw [backupFromSteps, hfields, orFail_ok, ok_bind, backupArguments]
  simp only [flagged_of_list (hlist "excludes" (by decide)),
    flagged_of_list (hlist "iexcludes" (by decide)),
    flagged_of_list (hlist "tags" (by decide)),
    (hlist "extra_flags" (by decide)).listIn, hpaths.listIn, orFail_ok, ok_bind]
  rw [hpaths.given]
  by_cases hnone : addedByAll "paths" options = []
  · simp [hnone]
    rfl
  · simp [hnone]
    rfl

lemma textIfGiven_str (text : String) : Value.textIfGiven (some (.str text)) = text := by
  by_cases h : text = ""
  · subst h
    rfl
  · simp [Value.textIfGiven, Value.truthy, Value.text, h]

/-- Options of a restore are refused if its target is blank, and are rendered otherwise. -/
theorem restoreFromSteps_eq (target : String) {options : List Step} (h : AllOffered options) :
    restoreFromSteps target options =
      if Text.blank target then .error .missingRestoreTarget
      else .ok ([.str "--target", .str target] ++
        flaggedTexts "--include" (addedByAll "includes" options) ++
        flaggedTexts "--exclude" (addedByAll "excludes" options)) := by
  obtain ⟨fields, hfields, hlist, hfixed⟩ :=
    applyAll_of_empty (emptyRestore.put "target" (.str target)) h
      (by simp [listFields, HoldsList, emptyRestore, Fields.get?]) rfl
  have htarget : fields.get? "target" = some (.str target) :=
    hfixed "target" (by decide) (by decide) (by decide)
  rw [restoreFromSteps, hfields, orFail_ok, ok_bind, restoreArguments, htarget, textIfGiven_str]
  simp only [flagged_of_list (hlist "includes" (by decide)),
    flagged_of_list (hlist "excludes" (by decide)), orFail_ok, ok_bind]
  split <;> rfl

end Options

end BackupSteward
