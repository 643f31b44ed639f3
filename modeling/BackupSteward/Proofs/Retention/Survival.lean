import BackupSteward.Proofs.Retention.Acceptance
import BackupSteward.Proofs.Retention.Partition

/-!
# The newest snapshot survives

Every rule other than that on tags marks the newest snapshot: a counted rule starts there, and a
duration is measured from there.  So a listing is removed as a whole only under a policy that has
tags and nothing else, when no snapshot carries one of them.
-/

namespace BackupSteward

/-- A policy keeps the newest snapshot, whatever it is. -/
inductive Policy.ReachesNewest (p : Policy) : Prop
  | empty (h : p.isEmpty = true)
  | count (r : Rule) (h : (p.count r).amount ≠ 0)
  | within (d : Duration) (hwithin : p.within = some d) (h : 0 < d.micros)

namespace Retention

variable {p : Policy}

/-! ### The first place -/

lemma marks_newest (r : Rule) {count : Int} (h : count ≠ 0) (newest : Snapshot)
    (rest : List Snapshot) : (marks r count (newest :: rest))[0]? = some true := by
  simp [marks, marksFrom, h]

/-- Every rule other than that on tags marks the newest snapshot. -/
lemma ruleMarks_newest (haccepted : p.Accepted) {ρ : Reason} (hρ : ρ ∈ Reason.rules)
    (htag : ρ ≠ .tag) (huses : p.uses ρ = true) (newest : Snapshot) (rest : List Snapshot) :
    (ruleMarks p (newest :: rest) ρ)[0]? = some true := by
  cases ρ with
  | noPolicy => exact absurd rfl (ne_noPolicy_of_mem_rules hρ)
  | rule r => exact marks_newest r (of_decide_eq_true huses) newest rest
  | within =>
    show (withinMarks (p.within.getD ⟨0⟩) (newest :: rest))[0]? = some true
    refine getElem?_withinMarks.2 ⟨newest, newest, rfl, rfl, ?_⟩
    rcases hwithin : p.within with _ | d
    · simp
    · have := haccepted.within d hwithin
      simpa using this
  | tag => exact absurd rfl htag

lemma reachesNewest_iff (haccepted : p.Accepted) : p.ReachesNewest ↔
    p.isEmpty = true ∨ ∃ ρ ∈ Reason.rules, ρ ≠ .tag ∧ p.uses ρ = true := by
  constructor
  · rintro (hp | ⟨r, h⟩ | ⟨d, hwithin, h⟩)
    · exact .inl hp
    · exact .inr ⟨.rule r, rule_mem_rules r, by simp, decide_eq_true h⟩
    · refine .inr ⟨.within, by decide, by simp, Policy.hasWithin_iff.2 ?_⟩
      simp only [hwithin, Option.getD_some]
      omega
  · rintro (hp | ⟨ρ, hρ, htag, huses⟩)
    · exact .empty hp
    cases ρ with
    | noPolicy => exact absurd rfl (ne_noPolicy_of_mem_rules hρ)
    | rule r => exact .count r (of_decide_eq_true huses)
    | within =>
      have hne := Policy.hasWithin_iff.1 huses
      rcases hwithin : p.within with _ | d
      · simp [hwithin] at hne
      · have hnonneg := haccepted.within d hwithin
        simp only [hwithin, Option.getD_some] at hne
        exact .within d hwithin (by omega)
    | tag => exact absurd rfl htag

/-- What does not reach the newest snapshot has tags and nothing else. -/
lemma hasOnly_tag_iff (haccepted : p.Accepted) : p.HasOnly .tag ↔ ¬p.ReachesNewest := by
  rw [reachesNewest_iff haccepted]
  constructor
  · rintro h (hp | ⟨ρ, hρ, htag, huses⟩)
    · have : p.isEmpty = false :=
        isEmpty_eq_false_iff.2 ⟨.tag, by decide, (h .tag (by decide)).2 rfl⟩
      simp [hp] at this
    · exact htag ((h ρ hρ).1 huses)
  · intro h
    push Not at h
    obtain ⟨ρ, hρ, huses⟩ := isEmpty_eq_false_iff.1 (Bool.eq_false_iff.2 h.1)
    have hother (σ : Reason) (hσ : σ ∈ Reason.rules) (hσuses : p.uses σ = true) : σ = .tag := by
      by_contra htag
      exact h.2 σ hσ htag hσuses
    obtain rfl := hother ρ hρ huses
    exact fun σ hσ => ⟨hother σ hσ, by rintro rfl; exact huses⟩

lemma verdicts_newest (haccepted : p.Accepted) (h : p.ReachesNewest) (newest : Snapshot)
    (rest : List Snapshot) : (verdicts p (newest :: rest))[0]? = some true := by
  rcases (reachesNewest_iff haccepted).1 h with hp | ⟨ρ, hρ, htag, huses⟩
  · simp [verdicts_of_isEmpty hp]
  · rw [verdict_iff (isEmpty_eq_false_iff.2 ⟨ρ, hρ, huses⟩)]
    exact ⟨ρ, hρ, huses, ruleMarks_newest haccepted hρ htag huses newest rest⟩

lemma head?_keep (haccepted : p.Accepted) (h : p.ReachesNewest) (ordered : List Snapshot) :
    (outcome p ordered).keep.head? = ordered.head? := by
  rw [outcome_keep]
  rcases ordered with _ | ⟨newest, rest⟩
  · simp
  · exact head?_picked (verdicts_newest haccepted h newest rest)

/-! ### Nothing is kept -/

lemma keep_eq_nil_iff_of_hasOnly_tag (h : p.HasOnly .tag) (ordered : List Snapshot) :
    (outcome p ordered).keep = [] ↔ ∀ s ∈ ordered, ¬CarriesAny p.tags s := by
  rw [outcome_keep, verdicts_of_hasOnly (by decide) h, picked_eq_nil_iff (by simp)]
  simp only [ruleMarks, ne_eq, getElem?_tagMarks, List.mem_iff_getElem?]
  push Not
  constructor
  · rintro h s ⟨i, hi⟩
    exact h i s hi
  · exact fun h i s hi => h s ⟨i, hi⟩

lemma keep_eq_nil_iff (haccepted : p.Accepted) {ordered : List Snapshot} (hordered : ordered ≠ []) :
    (outcome p ordered).keep = [] ↔
      p.HasOnly .tag ∧ ∀ s ∈ ordered, ¬CarriesAny p.tags s := by
  constructor
  · intro hnil
    have honly : p.HasOnly .tag := by
      rw [hasOnly_tag_iff haccepted]
      intro h
      have hhead := head?_keep haccepted h ordered
      rw [hnil] at hhead
      exact hordered (List.head?_eq_none_iff.1 hhead.symm)
    exact ⟨honly, (keep_eq_nil_iff_of_hasOnly_tag honly ordered).1 hnil⟩
  · rintro ⟨honly, hnone⟩
    exact (keep_eq_nil_iff_of_hasOnly_tag honly ordered).2 hnone

/-- All is removed if nothing is kept. -/
lemma Partitions.remove_perm_iff {listing : List Snapshot} {result : Retention}
    (h : Partitions p listing result) : result.remove.Perm listing ↔ result.keep = [] := by
  constructor
  · intro hperm
    have := h.perm.length_eq
    rw [List.length_append, hperm.length_eq] at this
    exact List.eq_nil_of_length_eq_zero (by omega)
  · intro hkeep
    simpa [hkeep] using h.perm

/-- **The newest snapshot survives.**  Under a policy without rules, with a count that is not zero,
or with a positive duration, it is the first that is kept.  All is removed just when the policy has
tags and nothing else and no snapshot carries one of them. -/
theorem newest_survives (haccepted : p.Accepted) (htags : p.tags.all Value.comparable = true)
    {listing : List Snapshot} (hlisting : listing ≠ []) :
    ∃ result newest, select p listing = .ok result ∧ Partitions p listing result ∧
      (newestFirst listing).head? = some newest ∧
      (∀ s ∈ listing, s.time.instant ≤ newest.time.instant) ∧
      (p.ReachesNewest → result.keep.head? = some newest) ∧
      (result.remove.Perm listing ↔ p.HasOnly .tag ∧ ∀ s ∈ listing, ¬CarriesAny p.tags s) := by
  have hsorted := isNewestFirst_newestFirst listing
  have hparts := partitions_outcome p listing
  have hordered : newestFirst listing ≠ [] := fun hnil =>
    hlisting (hnil ▸ hsorted.perm).nil_eq.symm
  have hhead := List.head?_eq_some_head hordered
  refine ⟨_, _, select_of_comparable htags listing, hparts, hhead, fun s hs => ?_, fun h => ?_, ?_⟩
  · exact hsorted.descending.instant_le hhead (hsorted.perm.mem_iff.2 hs)
  · rw [head?_keep haccepted h, hhead]
  · rw [hparts.remove_perm_iff, keep_eq_nil_iff haccepted hordered]
    simp only [hsorted.perm.mem_iff]

/-- One week, given as a truth value, keeps the newest of two snapshots; a tag that neither carries
removes both. -/
theorem newest_survives_week :
    let week : Policy := { Policy.empty with weekly := .switch true, tags := [.str "keep"] }
    let tags : Policy := { Policy.empty with tags := [.str "keep"] }
    let listing := [sample "b" 3 10 0 [], sample "a" 2 9 2 ["other"]]
    week.Accepted ∧ week.ReachesNewest ∧ tags.Accepted ∧
      (∃ result, select week listing = .ok result ∧
        result.keep.head? = some (sample "b" 3 10 0 [])) ∧
      ∃ result, select tags listing = .ok result ∧ result.remove.Perm listing := by
  intro week tags listing
  have hweek : week.Accepted := ⟨fun r => by cases r <;> decide, by rintro d ⟨⟩⟩
  have htags : tags.Accepted := ⟨fun r => by cases r <;> decide, by rintro d ⟨⟩⟩
  have hreaches : week.ReachesNewest := .count .weekly (by decide)
  have hlisting : listing ≠ [] := by simp [listing]
  have hordered : newestFirst listing = listing := newestFirst_of_descending (by decide)
  refine ⟨hweek, hreaches, htags, ?_, ?_⟩
  · obtain ⟨result, newest, hselect, -, hnewest, -, hkeep, -⟩ := newest_survives hweek rfl hlisting
    rw [hordered] at hnewest
    exact ⟨result, hselect, (hkeep hreaches).trans hnewest.symm⟩
  · obtain ⟨result, newest, hselect, -, -, -, -, hremove⟩ := newest_survives htags rfl hlisting
    refine ⟨result, hselect, hremove.2 ⟨by decide, ?_⟩⟩
    simp [listing, tags, sample, CarriesAny]

end Retention

end BackupSteward
