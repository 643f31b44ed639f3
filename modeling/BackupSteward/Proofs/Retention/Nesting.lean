import BackupSteward.Proofs.Retention.Newest

/-!
# Rules without limit are nested

A counted rule without limit marks a snapshot exactly if its period is not that of the snapshot in
front of it.  Where the periods of one rule lie within those of another, a change of the longer
period is a change of the shorter one too, so that the rule of the shorter periods marks all that
the other marks.  This does not depend on the order of the periods: on clocks of different offsets
they come back, and each return is a change for both rules.
-/

namespace BackupSteward

/-- The periods of the second rule lie within those of the first: months within years, days within
months and within weeks, hours within days, and each snapshot by itself within its hour. -/
inductive Rule.DividedBy : Rule → Rule → Prop
  | years : DividedBy .yearly .monthly
  | months : DividedBy .monthly .daily
  | weeks : DividedBy .weekly .daily
  | days : DividedBy .daily .hourly
  | hours : DividedBy .hourly .last

lemma Rule.DividedBy.ne_last {coarse fine : Rule} (h : coarse.DividedBy fine) : coarse ≠ .last := by
  cases h <;> decide

namespace Retention

variable {coarse fine : Rule}

/-! ### Changes of the period -/

/-- **Without a limit the snapshots are marked at which the period changes.** -/
theorem getElem?_scan_of_neg {count : Int} (h : count < 0) (last : Option (List Nat))
    (ps : List (List Nat)) (i : Nat) : (scan count last ps)[i]? = some true ↔
      ∃ p, ps[i]? = some p ∧ (last :: ps.map some)[i]? ≠ some (some p) := by
  induction ps generalizing last i with
  | nil => simp [scan]
  | cons p ps ih =>
    have hless : lessOne count = count := if_neg (by omega)
    by_cases hlast : last = some p
    -- the period marked last is that of the snapshot in front, marked or not
    · rw [scan_skip (.inr hlast)]
      cases i with
      | zero => simp [hlast]
      | succ i => simpa [hlast] using ih (some p) i
    · rw [scan_mark (by simp [hlast]; omega), hless]
      cases i with
      | zero => simp [hlast]
      | succ i => simpa using ih (some p) i

/-- Where equal shorter periods lie within equal longer ones, the longer ones change less often. -/
lemma covered_scan_of_divided {count : Int} (h : count < 0) {ps qs : List (List Nat)}
    (hlength : ps.length = qs.length)
    (hdivided : ∀ i j : Nat, i < qs.length → qs[i]? = qs[j]? → ps[i]? = ps[j]?) :
    Covered (scan count none ps) (scan count none qs) := by
  refine covered_iff.2 ⟨by simp [hlength], fun i hi => ?_⟩
  rw [getElem?_scan_of_neg h] at hi ⊢
  obtain ⟨p, hp, hchange⟩ := hi
  have hlt : i < qs.length := hlength ▸ (List.getElem?_eq_some_iff.1 hp).1
  refine ⟨qs[i], List.getElem?_eq_getElem hlt, fun hsame => hchange ?_⟩
  cases i with
  | zero => simp at hsame
  | succ i =>
    have hqs : qs[i]? = qs[i + 1]? := by simpa [hlt] using hsame
    have hps : ps[i]? = ps[i + 1]? := hdivided i (i + 1) (by omega) hqs
    rw [List.getElem?_cons_succ, List.getElem?_map, hps, hp]
    rfl

/-! ### Periods within periods -/

/-- A longer period is told by a shorter one; the year and the week of the ISO calendar are those of
the date. -/
lemma periodOf_congr (h : coarse.DividedBy fine) (hfine : fine ≠ .last) {s t : Snapshot}
    (hsame : periodOf fine s = periodOf fine t) : periodOf coarse s = periodOf coarse t := by
  cases h with
  | hours => exact absurd rfl hfine
  | years | months | weeks | days => simp_all [periodOf, period]

lemma getElem?_periods_congr (h : coarse.DividedBy fine) (ordered : List Snapshot) {i j : Nat}
    (hi : i < ordered.length)
    (hsame : (periods fine 0 ordered)[i]? = (periods fine 0 ordered)[j]?) :
    (periods coarse 0 ordered)[i]? = (periods coarse 0 ordered)[j]? := by
  by_cases hfine : fine = .last
  -- no two snapshots share a period of this rule
  · subst hfine
    have hi : i < (periods .last 0 ordered).length := by simpa using hi
    rw [(List.getElem?_inj hi (nodup_periods_last 0 ordered)).1 hsame]
  · rw [periods_eq_map hfine, List.getElem?_map, List.getElem?_map] at hsame
    rw [periods_eq_map h.ne_last, List.getElem?_map, List.getElem?_map]
    rw [List.getElem?_eq_getElem hi] at hsame ⊢
    obtain ⟨t, ht, hperiod⟩ := Option.map_eq_some_iff.1 hsame.symm
    rw [ht, Option.map_some, Option.map_some, Option.some.injEq]
    exact (periodOf_congr h hfine hperiod).symm

/-- What a rule without limit marks, the rule of the shorter periods marks without limit. -/
theorem covered_marks_of_divided (h : coarse.DividedBy fine) {count : Int} (hcount : count < 0)
    (ordered : List Snapshot) :
    Covered (marks coarse count ordered) (marks fine count ordered) := by
  rw [marks_eq_scan, marks_eq_scan]
  refine covered_scan_of_divided hcount (by simp) fun i j hi => ?_
  exact getElem?_periods_congr h ordered (by simpa using hi)

/-! ### What is kept -/

/-- A rule is the only one of a policy that is switched on, and it has no limit. -/
structure IsUnlimited (p : Policy) (r : Rule) : Prop where
  only : IsOnlyRule p r
  amount : (p.count r).amount = -1

instance (p : Policy) (r : Rule) : Decidable (IsUnlimited p r) :=
  decidable_of_iff (p.HasOnly (.rule r) ∧ (p.count r).amount = -1)
    ⟨fun h => ⟨h.1, h.2⟩, fun h => ⟨h.only, h.amount⟩⟩

/-- Each recent snapshot is kept if there is no limit to their number. -/
lemma keep_of_isUnlimited_last {p : Policy} (h : IsUnlimited p .last) (ordered : List Snapshot) :
    (outcome p ordered).keep = ordered := by
  have hall : marks .last (-1) ordered = List.replicate ordered.length true := by
    rw [marks_eq_scan, scan_of_fresh (nodup_periods_last _ _) (by simp), length_periods,
      countdown_of_neg (by decide)]
  rw [outcome_keep, h.only.verdicts_eq, h.amount, hall, picked_replicate_true]

/-- **Rules without limit are nested.**  A policy with the rule of shorter periods alone keeps every
snapshot that a policy with the rule of longer periods alone keeps, on whatever clocks they were
made; and the policy that keeps the recent snapshots without limit keeps the whole listing. -/
theorem unlimited_rules_nested (h : coarse.DividedBy fine) {p q : Policy}
    (hp : IsUnlimited p coarse) (hq : IsUnlimited q fine) (listing : List Snapshot) :
    ∃ less more, select p listing = .ok less ∧ select q listing = .ok more ∧
      Partitions p listing less ∧ Partitions q listing more ∧
      (∀ place, Keeps p listing place → Keeps q listing place) ∧ less.keep.Sublist more.keep ∧
      (fine = .last → more.keep = newestFirst listing ∧ more.keep.Perm listing) := by
  have hcovered :
      Covered (verdicts p (newestFirst listing)) (verdicts q (newestFirst listing)) := by
    rw [hp.only.verdicts_eq, hq.only.verdicts_eq, hp.amount, hq.amount]
    exact covered_marks_of_divided h (by decide) _
  refine ⟨_, _, select_eq hp.only.hasTextTags listing, select_eq hq.only.hasTextTags listing,
    partitions_outcome p listing, partitions_outcome q listing, ?_, ?_, ?_⟩
  · exact (covered_iff.1 hcovered).2
  · rw [outcome_keep, outcome_keep]
    exact hcovered.picked_sublist _
  · rintro rfl
    rw [keep_of_isUnlimited_last hq]
    exact ⟨rfl, (isNewestFirst_newestFirst listing).perm⟩

/-- The third of January comes back on another clock, in the week in which it was before. -/
theorem unlimited_rules_nested_across_midnight :
    let p : Policy := { Policy.empty with weekly := .number (-1) }
    let q : Policy := { Policy.empty with daily := .number (-1) }
    Rule.weekly.DividedBy .daily ∧ IsUnlimited p .weekly ∧ IsUnlimited q .daily ∧
      ∃ less more, select p acrossMidnight = .ok less ∧ select q acrossMidnight = .ok more ∧
        less.keep.Sublist more.keep ∧ less.keep.map (·.id) = ["a"] ∧
        more.keep.map (·.id) = ["a", "b", "c", "d"] := by
  intro p q
  have hp : IsUnlimited p .weekly := by decide
  have hq : IsUnlimited q .daily := by decide
  obtain ⟨less, more, hless, hmore, hpparts, hqparts, -, hsublist, -⟩ :=
    unlimited_rules_nested .weeks hp hq acrossMidnight
  refine ⟨.weeks, hp, hq, less, more, hless, hmore, hsublist, ?_, ?_⟩
  · rw [hpparts.keep_eq, newestFirst_acrossMidnight]
    decide
  · rw [hqparts.keep_eq, newestFirst_acrossMidnight]
    decide

end Retention

end BackupSteward
