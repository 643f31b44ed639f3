import BackupSteward.Proofs.Retention.Counted

/-!
# Verdicts

A policy keeps a snapshot if one of its rules marks it, and it notes the rules that do.  The
verdict on each snapshot and its reasons are read off the marks of the rules, place by place.
-/

namespace BackupSteward

/-- The rules a policy may have, in the order in which they are noted. -/
def Reason.rules : List Reason := Rule.all.map .rule ++ [.within, .tag]

namespace Policy

/-- All tags are texts. -/
def HasTextTags (p : Policy) : Prop := ∀ v ∈ p.tags, ∃ t, v = .str t

/-- Whether a rule is switched on. -/
def uses (p : Policy) : Reason → Bool
  | .noPolicy => p.isEmpty
  | .rule r => (p.count r).amount ≠ 0
  | .within => p.hasWithin
  | .tag => !p.tags.isEmpty

/-- The policy that has one of the rules alone. -/
def only (p : Policy) : Reason → Policy
  | .noPolicy => .empty
  | .rule .last => { Policy.empty with last := p.last }
  | .rule .hourly => { Policy.empty with hourly := p.hourly }
  | .rule .daily => { Policy.empty with daily := p.daily }
  | .rule .weekly => { Policy.empty with weekly := p.weekly }
  | .rule .monthly => { Policy.empty with monthly := p.monthly }
  | .rule .yearly => { Policy.empty with yearly := p.yearly }
  | .within => { Policy.empty with within := p.within }
  | .tag => { Policy.empty with tags := p.tags }

/-- A rule is the only one that is switched on. -/
def HasOnly (p : Policy) (ρ : Reason) : Prop := ∀ σ ∈ Reason.rules, p.uses σ = true ↔ σ = ρ

instance (p : Policy) (ρ : Reason) : Decidable (p.HasOnly ρ) :=
  inferInstanceAs (Decidable (∀ σ ∈ Reason.rules, p.uses σ = true ↔ σ = ρ))

lemma hasWithin_iff {p : Policy} :
    p.hasWithin = true ↔ (p.within.getD ⟨0⟩).micros ≠ 0 := by
  unfold hasWithin
  cases p.within <;> simp

lemma comparable_of_hasTextTags {p : Policy} (h : p.HasTextTags) :
    p.tags.all Value.comparable = true := by
  refine List.all_eq_true.2 fun v hv => ?_
  obtain ⟨t, rfl⟩ := h v hv
  rfl

end Policy

namespace Retention

/-- What a rule of a policy marks of the ordered snapshots. -/
def ruleMarks (p : Policy) (ordered : List Snapshot) : Reason → List Bool
  | .noPolicy => ordered.map fun _ => true
  | .rule r => marks r (p.count r).amount ordered
  | .within => withinMarks (p.within.getD ⟨0⟩) ordered
  | .tag => tagMarks p.tags ordered

/-- Whether each of the ordered snapshots is kept. -/
def verdicts (p : Policy) (ordered : List Snapshot) : List Bool :=
  (reasonsFor p ordered).map fun why => !why.isEmpty

@[simp] lemma length_ruleMarks (p : Policy) (ordered : List Snapshot) (ρ : Reason) :
    (ruleMarks p ordered ρ).length = ordered.length := by
  cases ρ with
  | noPolicy => simp [ruleMarks]
  | rule r => simp [ruleMarks]
  | within => cases ordered <;> simp [ruleMarks, withinMarks]
  | tag => simp [ruleMarks, tagMarks]

lemma columns_eq (p : Policy) (ordered : List Snapshot) :
    columns p ordered =
      (Reason.rules.filter p.uses).map fun ρ => (ρ, ruleMarks p ordered ρ) := by
  have hrules : ((Rule.all.map Reason.rule).filter p.uses).map
      (fun ρ => (ρ, ruleMarks p ordered ρ)) =
        (Rule.all.filter fun r => (p.count r).amount ≠ 0).map
          (fun r => (Reason.rule r, marks r (p.count r).amount ordered)) := by
    rw [List.filter_map, List.map_map]
    rfl
  have hwithin : (([Reason.within].filter p.uses).map fun ρ => (ρ, ruleMarks p ordered ρ)) =
      p.within.elim [] fun d =>
        if d.micros ≠ 0 then [(.within, withinMarks d ordered)] else [] := by
    rcases hw : p.within with _ | d
    · simp [Policy.uses, Policy.hasWithin, hw]
    · by_cases hd : d.micros = 0
      · simp [Policy.uses, Policy.hasWithin, hw, hd]
      · simp [Policy.uses, Policy.hasWithin, ruleMarks, hw, hd]
  have htag : (([Reason.tag].filter p.uses).map fun ρ => (ρ, ruleMarks p ordered ρ)) =
      if p.tags.isEmpty then [] else [(.tag, tagMarks p.tags ordered)] := by
    by_cases ht : p.tags.isEmpty = true
    · simp [Policy.uses, ht]
    · simp [Policy.uses, ruleMarks, ht]
  -- the columns of the model are put together from these three parts
  rw [columns, Reason.rules, List.filter_append, List.map_append, hrules,
    show [Reason.within, Reason.tag] = [.within] ++ [.tag] from rfl, List.filter_append,
    List.map_append, hwithin, htag]
  cases p.within <;> exact List.append_assoc ..

/-! ### Reasons, place by place -/

lemma getElem?_addReason (why : List (List Reason)) (ρ : Reason) {marked : List Bool}
    (h : marked.length = why.length) (i : Nat) :
    (addReason why ρ marked)[i]? =
      why[i]?.map (· ++ if marked[i]? = some true then [ρ] else []) := by
  rw [addReason, List.getElem?_zipWith]
  rcases Nat.lt_or_ge i why.length with hi | hi
  · have hi' : i < marked.length := h ▸ hi
    rw [List.getElem?_eq_getElem hi, List.getElem?_eq_getElem hi']
    cases marked[i] <;> simp
  · rw [List.getElem?_eq_none hi, List.getElem?_eq_none (h ▸ hi)]
    rfl

lemma length_addReason (why : List (List Reason)) (ρ : Reason) {marked : List Bool}
    (h : marked.length = why.length) : (addReason why ρ marked).length = why.length := by
  simp [addReason, h]

/-- The reasons noted from some columns are those whose column marks the place. -/
lemma getElem?_foldl_addReason {cols : List (Reason × List Bool)} {why : List (List Reason)}
    (h : ∀ c ∈ cols, c.2.length = why.length) (i : Nat) :
    (cols.foldl (fun why c => addReason why c.1 c.2) why)[i]? =
      why[i]?.map (· ++ (cols.filter fun c => c.2[i]? = some true).map (·.1)) := by
  induction cols generalizing why with
  | nil => simp
  | cons c cols ih =>
    have hc : c.2.length = why.length := h c (by simp)
    rw [List.foldl_cons, ih, getElem?_addReason why c.1 hc, Option.map_map]
    · congr 1
      funext w
      by_cases hm : c.2[i]? = some true <;> simp [hm]
    · intro c' hc'
      rw [length_addReason why c.1 hc]
      exact h c' (by simp [hc'])

/-- The reasons to keep the snapshot at a place. -/
def reasonsAt (p : Policy) (ordered : List Snapshot) (i : Nat) : List Reason :=
  if p.isEmpty then [.noPolicy]
  else Reason.rules.filter fun ρ => p.uses ρ && (ruleMarks p ordered ρ)[i]? = some true

theorem reasonsFor_eq (p : Policy) (ordered : List Snapshot) :
    reasonsFor p ordered = ordered.mapIdx fun i _ => reasonsAt p ordered i := by
  refine List.ext_getElem? fun i => ?_
  rw [List.getElem?_mapIdx]
  unfold reasonsFor reasonsAt
  by_cases hp : p.isEmpty = true
  · simp only [hp, if_true, List.getElem?_map]
  · rw [if_neg hp, if_neg hp, columns_eq, getElem?_foldl_addReason]
    · rw [List.getElem?_map, Option.map_map, List.filter_map, List.map_map, List.filter_filter]
      congr 1
      funext s
      simp [Function.comp_def, Bool.and_comm]
    · rintro c hc
      obtain ⟨ρ, -, rfl⟩ := List.mem_map.1 hc
      simp

@[simp] lemma length_reasonsFor (p : Policy) (ordered : List Snapshot) :
    (reasonsFor p ordered).length = ordered.length := by simp [reasonsFor_eq]

@[simp] lemma length_verdicts (p : Policy) (ordered : List Snapshot) :
    (verdicts p ordered).length = ordered.length := by simp [verdicts]

lemma getElem?_verdicts (p : Policy) (ordered : List Snapshot) (i : Nat) :
    (verdicts p ordered)[i]? = ordered[i]?.map fun _ => !(reasonsAt p ordered i).isEmpty := by
  rw [verdicts, List.getElem?_map, reasonsFor_eq, List.getElem?_mapIdx, Option.map_map]
  rfl

/-- Without rules everything is kept. -/
lemma verdicts_of_isEmpty {p : Policy} (hp : p.isEmpty = true) (ordered : List Snapshot) :
    verdicts p ordered = List.replicate ordered.length true := by
  simp [verdicts, reasonsFor, hp, List.map_const']

lemma mem_reasonsAt {p : Policy} (hp : p.isEmpty = false) {ordered : List Snapshot} {i : Nat}
    {ρ : Reason} : ρ ∈ reasonsAt p ordered i ↔
      ρ ∈ Reason.rules ∧ p.uses ρ = true ∧ (ruleMarks p ordered ρ)[i]? = some true := by
  rw [reasonsAt, if_neg (by simp [hp]), List.mem_filter, Bool.and_eq_true, decide_eq_true_eq]

/-- A snapshot is kept if a rule that is switched on marks it. -/
theorem verdict_iff {p : Policy} (hp : p.isEmpty = false) (ordered : List Snapshot) (i : Nat) :
    (verdicts p ordered)[i]? = some true ↔
      ∃ ρ ∈ Reason.rules, p.uses ρ = true ∧ (ruleMarks p ordered ρ)[i]? = some true := by
  rw [getElem?_verdicts]
  constructor
  · intro h
    obtain ⟨s, -, hs⟩ := Option.map_eq_some_iff.1 h
    obtain ⟨ρ, hρ⟩ := List.exists_mem_of_ne_nil (reasonsAt p ordered i) (by simpa using hs)
    exact ⟨ρ, (mem_reasonsAt hp).1 hρ⟩
  · rintro ⟨ρ, hmem, huses, hmark⟩
    have hi : i < ordered.length := by
      have := (List.getElem?_eq_some_iff.1 hmark).1
      simpa using this
    have hne : reasonsAt p ordered i ≠ [] :=
      List.ne_nil_of_mem ((mem_reasonsAt hp).2 ⟨hmem, huses, hmark⟩)
    rw [List.getElem?_eq_getElem hi, Option.map_some, Option.some.injEq]
    simpa using hne

/-! ### Tags -/

/-- A snapshot carries one of some tags. -/
def CarriesAny (tags : List Value) (s : Snapshot) : Prop := ∃ t ∈ s.tags, Value.str t ∈ tags

lemma getElem?_tagMarks {tags : List Value} {ordered : List Snapshot} {i : Nat} :
    (tagMarks tags ordered)[i]? = some true ↔ ∃ s, ordered[i]? = some s ∧ CarriesAny tags s := by
  simp only [tagMarks, List.getElem?_map, Option.map_eq_some_iff, List.any_eq_true,
    List.contains_iff_mem]
  refine exists_congr fun s => and_congr_right fun _ => exists_congr fun t =>
    and_congr_right fun _ => ?_
  -- only a text among the tags is looked for
  rw [List.mem_filterMap]
  constructor
  · rintro ⟨v, hv, heq⟩
    split at heq
    · obtain rfl := Option.some.inj heq
      exact hv
    · cases heq
  · exact fun h => ⟨_, h, rfl⟩

/-! ### One rule alone -/

lemma count_only_rule (p : Policy) (r r' : Rule) :
    (p.only (.rule r)).count r' = if r' = r then p.count r else .number 0 := by
  cases r <;> cases r' <;> rfl

lemma within_only_rule (p : Policy) (r : Rule) : (p.only (.rule r)).within = none := by
  cases r <;> rfl

lemma tags_only_rule (p : Policy) (r : Rule) : (p.only (.rule r)).tags = [] := by
  cases r <;> rfl

lemma ne_noPolicy_of_mem_rules {ρ : Reason} (h : ρ ∈ Reason.rules) : ρ ≠ .noPolicy := by
  rintro rfl
  simp [Reason.rules] at h

lemma rule_mem_rules (r : Rule) : Reason.rule r ∈ Reason.rules := by cases r <;> decide

/-- A policy is empty if no rule is switched on. -/
lemma isEmpty_eq_false_iff {p : Policy} :
    p.isEmpty = false ↔ ∃ ρ ∈ Reason.rules, p.uses ρ = true := by
  have hrules : p.isEmpty = Reason.rules.all fun ρ => !p.uses ρ := by
    simp [Policy.isEmpty, Reason.rules, Policy.uses, Bool.and_assoc, Function.comp_def]
  rw [hrules, List.all_eq_false]
  simp

/-- Of a policy with one rule alone, only that rule is switched on. -/
lemma uses_only {p : Policy} {ρ σ : Reason} (hρ : ρ ∈ Reason.rules) (hσ : σ ∈ Reason.rules) :
    (p.only ρ).uses σ = (decide (σ = ρ) && p.uses σ) := by
  have hρ := ne_noPolicy_of_mem_rules hρ
  have hσ := ne_noPolicy_of_mem_rules hσ
  match ρ, σ with
  | .noPolicy, _ => exact absurd rfl hρ
  | _, .noPolicy => exact absurd rfl hσ
  | .rule r, .rule r' =>
    by_cases h : r' = r
    · simp [Policy.uses, count_only_rule, h]
    · simp [Policy.uses, count_only_rule, h, Count.amount]
  | .rule r, .within => simp [Policy.uses, Policy.hasWithin, within_only_rule]
  | .rule r, .tag => simp [Policy.uses, tags_only_rule]
  | .within, .rule r =>
    have : (p.only .within).count r = .number 0 := by cases r <;> rfl
    simp [Policy.uses, this, Count.amount]
  | .tag, .rule r =>
    have : (p.only .tag).count r = .number 0 := by cases r <;> rfl
    simp [Policy.uses, this, Count.amount]
  | .within, .within => simp [Policy.uses, Policy.hasWithin, Policy.only]
  | .within, .tag => simp [Policy.uses, Policy.only, Policy.empty]
  | .tag, .within => simp [Policy.uses, Policy.hasWithin, Policy.only, Policy.empty]
  | .tag, .tag => simp [Policy.uses, Policy.only]

/-- A rule marks the same whether it is alone or not. -/
lemma ruleMarks_only (p : Policy) (ordered : List Snapshot) (ρ : Reason) :
    ruleMarks (p.only ρ) ordered ρ = ruleMarks p ordered ρ := by
  cases ρ with
  | noPolicy => rfl
  | rule r => simp [ruleMarks, count_only_rule]
  | within => rfl
  | tag => rfl

/-- What the only rule marks is kept. -/
theorem verdicts_of_hasOnly {p : Policy} {ρ : Reason} (hρ : ρ ∈ Reason.rules) (h : p.HasOnly ρ)
    (ordered : List Snapshot) : verdicts p ordered = ruleMarks p ordered ρ := by
  have huses : p.uses ρ = true := (h ρ hρ).2 rfl
  refine marks_ext (by simp) fun i => ?_
  rw [verdict_iff (isEmpty_eq_false_iff.2 ⟨ρ, hρ, huses⟩)]
  constructor
  · rintro ⟨σ, hσ, hσuses, hmark⟩
    obtain rfl := (h σ hσ).1 hσuses
    exact hmark
  · exact fun hmark => ⟨ρ, hρ, huses, hmark⟩

lemma hasOnly_only {p : Policy} {ρ : Reason} (hρ : ρ ∈ Reason.rules) (huses : p.uses ρ = true) :
    (p.only ρ).HasOnly ρ := by
  intro σ hσ
  rw [uses_only hρ hσ, Bool.and_eq_true, decide_eq_true_eq]
  exact ⟨And.left, by rintro rfl; exact ⟨rfl, huses⟩⟩

/-- A rule alone keeps what it marks. -/
theorem verdicts_only {p : Policy} {ρ : Reason} (hρ : ρ ∈ Reason.rules) (huses : p.uses ρ = true)
    (ordered : List Snapshot) : verdicts (p.only ρ) ordered = ruleMarks p ordered ρ := by
  rw [verdicts_of_hasOnly hρ (hasOnly_only hρ huses), ruleMarks_only]

/-! ### What is kept -/

/-- The kept snapshots of an ordered list, each with its reasons. -/
def kept (p : Policy) (ordered : List Snapshot) : List (Snapshot × List Reason) :=
  (ordered.zip (reasonsFor p ordered)).filter fun j => !j.2.isEmpty

/-- What a policy makes of an ordered list. -/
def outcome (p : Policy) (ordered : List Snapshot) : Retention where
  keep := (kept p ordered).map (·.1)
  remove := ((ordered.zip (reasonsFor p ordered)).filter fun j => j.2.isEmpty).map (·.1)
  reasons := (kept p ordered).foldl (fun rs j => note rs j.1.id j.2) []

/-- With tags that can be looked up a policy can be applied to any listing. -/
theorem select_of_comparable {p : Policy} (h : p.tags.all Value.comparable = true)
    (listing : List Snapshot) : select p listing = .ok (outcome p (newestFirst listing)) :=
  if_pos h

theorem select_eq {p : Policy} (h : p.HasTextTags) (listing : List Snapshot) :
    select p listing = .ok (outcome p (newestFirst listing)) :=
  select_of_comparable (Policy.comparable_of_hasTextTags h) listing

/-- The verdicts on the snapshots beside their reasons. -/
lemma map_zip_reasonsFor (p : Policy) (ordered : List Snapshot) :
    (ordered.zip (reasonsFor p ordered)).map (fun j => !j.2.isEmpty) = verdicts p ordered := by
  have := congrArg (List.map fun why : List Reason => !why.isEmpty)
    (List.map_snd_zip (length_reasonsFor p ordered).le)
  rwa [List.map_map] at this

lemma map_fst_filter_zip {α β : Type} (q : β → Bool) {xs : List α} {ys : List β}
    (h : xs.length = ys.length) :
    ((xs.zip ys).filter fun j => q j.2).map (·.1) = picked xs (ys.map q) := by
  induction xs generalizing ys with
  | nil => simp
  | cons x xs ih =>
    rcases ys with _ | ⟨y, ys⟩
    · simp at h
    · have : ((xs.zip ys).filter fun j => q j.2).map (·.1) = picked xs (ys.map q) :=
        ih (by simpa using h)
      by_cases hq : q y = true <;> simp [hq, this]

lemma outcome_keep (p : Policy) (ordered : List Snapshot) :
    (outcome p ordered).keep = picked ordered (verdicts p ordered) :=
  map_fst_filter_zip (fun why : List Reason => !why.isEmpty) (by simp)

lemma outcome_remove (p : Policy) (ordered : List Snapshot) :
    (outcome p ordered).remove = passedOver ordered (verdicts p ordered) := by
  have := map_fst_filter_zip (fun why : List Reason => why.isEmpty)
    (length_reasonsFor p ordered).symm
  rw [passedOver, verdicts, List.map_map]
  simpa [outcome, Function.comp_def] using this

/-- What is kept, and why, is read off the kept snapshots with their reasons. -/
lemma outcome_congr {p : Policy} {xs ys : List Snapshot} (h : kept p xs = kept p ys) :
    (outcome p xs).keep = (outcome p ys).keep ∧
      (outcome p xs).reasons = (outcome p ys).reasons := by
  unfold outcome
  exact ⟨by rw [h], by rw [h]⟩

/-- Of several snapshots with one identifier the reasons of the last are noted; when all differ
every note is a new one. -/
lemma foldl_note {judged : List (Snapshot × List Reason)} {noted : List (String × List Reason)}
    (h : (noted.map (·.1) ++ judged.map (·.1.id)).Nodup) :
    judged.foldl (fun rs j => note rs j.1.id j.2) noted =
      noted ++ judged.map fun j => (j.1.id, j.2) := by
  induction judged generalizing noted with
  | nil => simp
  | cons j judged ih =>
    -- no note is found under this identifier, so one is added at the end
    have hnew : note noted j.1.id j.2 = noted ++ [(j.1.id, j.2)] := by
      have hj : j.1.id ∉ noted.map (·.1) := fun hmem =>
        (List.nodup_append.1 h).2.2 _ hmem _ (by simp) rfl
      clear h
      induction noted with
      | nil => rfl
      | cons n noted ihn =>
        simp only [List.map_cons, List.mem_cons, not_or] at hj
        rw [note, if_neg (Ne.symm hj.1), ihn hj.2, List.cons_append]
    rw [List.foldl_cons, hnew, ih (by simpa using h)]
    simp

end Retention

end BackupSteward
