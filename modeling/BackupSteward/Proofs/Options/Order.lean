import BackupSteward.Proofs.Options.Composition
import BackupSteward.Repository.Description

/-!
# The order of options

What options make of a field is told by the changes to that field.  So of several options only the
order among those for one field counts: options may be reordered as long as the changes to each
field stay in their order, and neither the record nor anything that is made of it will be different.
-/

namespace BackupSteward

namespace Step

variable {steps others : List Step}

/-- The same changes to single fields in another order, where those to each field are in the same
order. -/
structure Reordered (steps others : List Step) : Prop where
  perm : (partsOfAll others).Perm (partsOfAll steps)
  inField (field : String) : changesTo field others = changesTo field steps

/-- Two attempts to change a record that come to the same record, or to the same fault. -/
inductive SameResult : Except Fault Fields → Except Fault Fields → Prop
  | record {p q : Fields} (h : p.Same q) : SameResult (.ok p) (.ok q)
  | fault (fault : Fault) : SameResult (.error fault) (.error fault)

/-- Reordered options make the same of every record. -/
theorem same_applyAll (h : Reordered steps others) (p : Fields) :
    SameResult (applyAll steps p) (applyAll others p) := by
  have hsteps := settles_applyAll steps p
  have hothers := settles_applyAll others p
  generalize applyAll steps p = x at hsteps ⊢
  generalize applyAll others p = y at hothers ⊢
  have hfield (field : String) : onField field (partsOfAll others) =
      onField field (partsOfAll steps) := h.inField field
  cases hsteps with
  | record hx =>
    cases hothers with
    | record hy =>
      refine .record fun field => ?_
      have hsame := hy field
      rw [hfield, hx field] at hsame
      exact Except.ok.inj hsame
    | fault hy =>
      rw [hfield, hx] at hy
      cases hy
  | fault hx =>
    cases hothers with
    | record hy =>
      rw [← hfield, hy] at hx
      cases hx
    | fault hy => exact .fault _

/-- What comes of a record alone comes of the same record in the same way. -/
lemma SameResult.bind_congr {α : Type} {x y : Except Fault Fields} (h : SameResult x y)
    {f : Fields → Except Failure α} (hf : ∀ p q, Fields.Same p q → f p = f q) :
    (orFail x >>= f) = (orFail y >>= f) := by
  cases h with
  | record hsame => exact hf _ _ hsame
  | fault fault => rfl

end Step

/-! ### What is made of a record -/

namespace Options

variable {p q : Fields}

lemma flagged_congr (h : p.Same q) (name flag : String) :
    flagged p name flag = flagged q name flag := by
  rw [flagged, flagged, Step.listIn, Step.listIn, h name]

lemma flaggedIfGiven_congr (h : p.Same q) (name flag : String) :
    flaggedIfGiven p name flag = flaggedIfGiven q name flag := by
  rw [flaggedIfGiven, flaggedIfGiven, h name]

lemma backupArguments_congr (p q : Fields) (h : p.Same q) :
    backupArguments p = backupArguments q := by
  simp only [backupArguments, flagged_congr h, flaggedIfGiven_congr h, Step.listIn, h _]

lemma queryArguments_congr (p q : Fields) (h : p.Same q) :
    queryArguments p = queryArguments q := by
  simp only [queryArguments, joinedTags, flagged_congr h, Step.listIn, h _]

lemma restoreArguments_congr (p q : Fields) (h : p.Same q) :
    restoreArguments p = restoreArguments q := by
  simp only [restoreArguments, flagged_congr h, h _]

end Options

namespace Description

variable {p q : Fields}

lemma same_putKnown (h : p.Same q) (settings : Fields) :
    (putKnown p settings).Same (putKnown q settings) := by
  induction settings generalizing p q with
  | nil => exact h
  | cons setting settings ih =>
    rw [putKnown, putKnown, List.foldl_cons, List.foldl_cons, h setting.1]
    split
    · exact ih (h.put setting.1 setting.2)
    · exact ih h

lemma ofArguments_congr (p q : Fields) (h : p.Same q) : ofArguments p = ofArguments q := by
  simp only [ofArguments, Step.listIn, h _]

end Description

namespace Step

open Options Description

variable {steps others : List Step}

/-- Options that make the same of all records of arguments, and of all that is made of them. -/
structure ActAlike (steps others : List Step) : Prop where
  record (p : Fields) : SameResult (applyAll steps p) (applyAll others p)
  backup : backupFromSteps steps = backupFromSteps others
  query : queryFromSteps steps = queryFromSteps others
  restore (p : Fields) : (orFail (applyAll steps p) >>= restoreArguments) =
    (orFail (applyAll others p) >>= restoreArguments)
  description (location password : Value) (settings : Fields) :
    create location password steps settings = create location password others settings

theorem actAlike_of_reordered (h : Reordered steps others) : ActAlike steps others where
  record := same_applyAll h
  backup := (same_applyAll h _).bind_congr backupArguments_congr
  query := (same_applyAll h _).bind_congr queryArguments_congr
  restore p := (same_applyAll h p).bind_congr restoreArguments_congr
  description location password settings := by
    have hmade := (same_applyAll h ((emptyRepository.put "uri" (.str location.text)).put
      "password" password)).bind_congr fun p q hsame =>
        ofArguments_congr _ _ (same_putKnown hsame settings)
    rw [create, create, hmade]

/-- **Only the order among the options for one field counts.**  Options that are reordered
otherwise, and nested in whatever way, make the same of every record of arguments; lists hold all
that is supplied for them, fields that are set the last value, and of the variables of one name the
last one counts. -/
theorem order_counts_within_fields {steps others : List Step} (h : Reordered steps others) :
    ActAlike steps others ∧
      (∀ p, applyAll (partsOfAll steps) p = applyAll steps p) ∧
      (∀ p q, applyAll steps p = .ok q → NormalForm steps p q) ∧
      (AllOffered steps → OfOneKind steps ∧
        ∀ p, Ready p → ∃ q r, applyAll steps p = .ok q ∧ applyAll others p = .ok r ∧ q.Same r) := by
  refine ⟨actAlike_of_reordered h, applyAll_partsOfAll steps, fun p q => normalForm_of_applyAll,
    fun hoffered => ⟨ofOneKind_of_offered hoffered, fun p hready => ?_⟩⟩
  obtain ⟨q, hq, -⟩ := grows_applyAll steps hoffered hready
  have hsame := same_applyAll h p
  rw [hq] at hsame ⊢
  generalize applyAll others p = y at hsame ⊢
  cases hsame with
  | record hrecord => exact ⟨q, _, rfl, rfl, hrecord⟩

/-- Options for a repository, nested and with two values of one variable, and the same ones sorted
by their fields. -/
theorem order_counts_within_fields_nested :
    let options := [globalFlags [.str "-q"],
      sequence [addVariables [("A", .str "1")],
        sequence [label (.str "x"), globalFlags [.str "-v"]]],
      addVariables [("A", .str "2")]]
    let others := [addVariables [("A", .str "1")], addVariables [("A", .str "2")], label (.str "x"),
      globalFlags [.str "-q"], globalFlags [.str "-v"]]
    Reordered options others ∧ ActAlike options others ∧
      ∃ p q, applyAll options emptyRepository = .ok p ∧ applyAll others emptyRepository = .ok q ∧
        p.Same q ∧ p.get? "flags" = some (.list [.str "-q", .str "-v"]) ∧
        p.get? "repo_id" = some (.str "x") := by
  intro options others
  have hperm : (partsOfAll others).Perm (partsOfAll options) := by
    let quiet := globalFlags [.str "-q"]
    let verbose := globalFlags [.str "-v"]
    let first := addVariables [("A", .str "1")]
    let second := addVariables [("A", .str "2")]
    let name := label (.str "x")
    have hfirst : ([quiet] ++ first :: [name, verbose, second]).Perm
      (first :: ([quiet] ++ [name, verbose, second])) := List.perm_middle
    have hsecond : ([quiet, name, verbose] ++ second :: []).Perm
      (second :: ([quiet, name, verbose] ++ [])) := List.perm_middle
    have hname : ([quiet] ++ name :: [verbose]).Perm (name :: ([quiet] ++ [verbose])) :=
      List.perm_middle
    exact (hfirst.trans (.cons _ (hsecond.trans (.cons _ hname)))).symm
  have hreordered : Reordered options others := by
    refine ⟨hperm, fun field => ?_⟩
    by_cases hflags : "flags" = field
    · subst hflags
      rfl
    by_cases henv : "env" = field
    · subst henv
      rfl
    by_cases hlabel : "repo_id" = field
    · subst hlabel
      rfl
    · simp [options, others, changesTo, onField, field?, globalFlags, appendTexts, label, hflags,
        henv, hlabel]
  obtain ⟨halike, -, hnormal, hoffered⟩ := order_counts_within_fields hreordered
  have hfits : AllOffered options := by
    simp [options, AllOffered, Offered, globalFlags, appendTexts, label, listFields, freeFields]
  have hready : Ready emptyRepository :=
    ⟨by simp [listFields, HoldsList, emptyRepository, Fields.get?], [], rfl⟩
  obtain ⟨p, q, hp, hq, hsame⟩ := (hoffered hfits).2 emptyRepository hready
  have hform := hnormal emptyRepository p hp
  exact ⟨hreordered, halike, p, q, hp, hq, hsame,
    hform.lists "flags" [["-q"], ["-v"]] [] rfl rfl, hform.assigned "repo_id" [.str "x"] rfl⟩

end Step

end BackupSteward
