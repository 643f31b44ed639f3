import BackupSteward.Proofs.Retention.Partition

/-!
# Retention is path independent

Whether a policy is applied in between, before newer snapshots have been made, does not change
what it keeps in the end, nor why.  A rule looks at newer snapshots and at those that it marks
itself, and the policy keeps these; so what the other rules keep, or do not, never shifts the
boundary of a period, a count, or the snapshot from which a duration is measured.
-/

namespace BackupSteward.Retention

/-- Marks on all of some newer snapshots, in front of marks on older ones. -/
def behind (new : List Snapshot) (cover : List Bool) : List Bool :=
  List.replicate new.length true ++ cover

lemma picked_behind (new old : List Snapshot) (cover : List Bool) :
    picked (new ++ old) (behind new cover) = new ++ picked old cover := by
  rw [behind, picked_append (by simp), picked_replicate_true]

/-! ### What a rule marks of the snapshots that are left -/

/-- A rule that judges each snapshot by itself. -/
lemma map_picked_behind (f : Snapshot → Bool) (new : List Snapshot) {old : List Snapshot}
    {cover : List Bool} (hcover : Covered (old.map f) cover) :
    (new ++ picked old cover).map f = picked ((new ++ old).map f) (behind new cover) ∧
      Covered ((new ++ old).map f) (behind new cover) := by
  constructor
  · rw [picked_map, picked_behind]
  · have := (covered_replicate_true (new.map f)).append hcover
    rwa [List.length_map, ← List.map_append] at this

lemma covered_map_of_imp {f g : Snapshot → Bool} {xs : List Snapshot} {cover : List Bool}
    (h : ∀ s ∈ xs, f s = true → g s = true) (hcover : Covered (xs.map g) cover) :
    Covered (xs.map f) cover := by
  rw [covered_iff] at hcover ⊢
  refine ⟨by simpa using hcover.1, fun i hi => hcover.2 i ?_⟩
  rw [List.getElem?_map, Option.map_eq_some_iff] at hi ⊢
  obtain ⟨s, hs, hf⟩ := hi
  exact ⟨s, hs, h s (List.mem_of_getElem? hs) hf⟩

lemma withinMarks_picked (d : Duration) {new old : List Snapshot} {cover : List Bool}
    (hold : Descending old) (hnewer : Newer new old)
    (hcover : Covered (withinMarks d old) cover) :
    withinMarks d (new ++ picked old cover) =
        picked (withinMarks d (new ++ old)) (behind new cover) ∧
      Covered (withinMarks d (new ++ old)) (behind new cover) := by
  rcases old with _ | ⟨o, old⟩
  · have hnil : cover = [] := by
      cases cover with
      | nil => rfl
      | cons c cover => exact absurd hcover.length_eq (by simp [withinMarks])
    subst hnil
    rcases new with _ | ⟨n, new⟩
    · exact ⟨rfl, .nil⟩
    · exact map_picked_behind (isWithin d n) (n :: new) (.nil : Covered (List.map _ []) _)
  rcases new with _ | ⟨n, new⟩
  · refine ⟨?_, hcover⟩
    rcases cover with _ | ⟨c, cover⟩
    · exact absurd hcover.length_eq (by simp [withinMarks])
    cases c with
    | true => exact (picked_map (isWithin d o) (o :: old) (true :: cover)).symm
    | false =>
      -- the newest snapshot is left out only by a duration that nothing is within
      have hd : d.micros < 0 := by
        rw [withinMarks_cons, List.map_cons, covered_cons] at hcover
        simpa [isWithin] using hcover.1
      have hleft : Descending (picked (o :: old) (false :: cover)) :=
        hold.sublist (picked_sublist ..)
      rw [List.nil_append, List.nil_append, withinMarks_of_neg hd hleft,
        withinMarks_of_neg hd hold]
      exact (picked_map _ _ _).symm
  · -- what is within the duration of the newest of all is within that of the newest of the old
    rw [withinMarks_cons] at hcover
    refine map_picked_behind (isWithin d n) (n :: new) (covered_map_of_imp (fun s _ => ?_) hcover)
    have := hnewer n (by simp) o (by simp)
    simp only [isWithin, decide_eq_true_eq]
    omega

/-- **A rule marks the same of what is left** when nothing is left out that it marks itself. -/
theorem ruleMarks_picked (p : Policy) (ρ : Reason) {new old : List Snapshot} {cover : List Bool}
    (hold : Descending old) (hnewer : Newer new old)
    (hcover : Covered (ruleMarks p old ρ) cover) :
    ruleMarks p (new ++ picked old cover) ρ =
        picked (ruleMarks p (new ++ old) ρ) (behind new cover) ∧
      Covered (ruleMarks p (new ++ old) ρ) (behind new cover) := by
  cases ρ with
  | noPolicy => exact map_picked_behind _ new hcover
  | rule r => exact marks_picked r _ new hcover
  | within => exact withinMarks_picked _ hold hnewer hcover
  | tag => exact map_picked_behind _ new hcover

/-! ### The reasons of the snapshots that are left -/

lemma zipWith_picked {α β γ : Type} (f : α → β → γ) {xs : List α} {ys : List β}
    (h : xs.length = ys.length) (cover : List Bool) :
    List.zipWith f (picked xs cover) (picked ys cover) = picked (List.zipWith f xs ys) cover := by
  induction xs generalizing ys cover with
  | nil => simp
  | cons x xs ih =>
    rcases ys with _ | ⟨y, ys⟩
    · simp at h
    have hlength : xs.length = ys.length := by simpa using h
    rcases cover with _ | ⟨_ | _, cover⟩
    · rfl
    · simpa using ih hlength cover
    · simpa using ih hlength cover

/-- What is filtered out need not be picked. -/
lemma filter_picked {α : Type} (q : α → Bool) {xs : List α} {cover : List Bool}
    (h : Covered (xs.map q) cover) : (picked xs cover).filter q = xs.filter q := by
  induction xs generalizing cover with
  | nil => simp
  | cons x xs ih =>
    rcases cover with _ | ⟨c, cover⟩
    · exact absurd h.length_eq (by simp)
    obtain ⟨hx, hxs⟩ := covered_cons.1 h
    cases c with
    | true => simp [List.filter_cons, ih hxs]
    | false =>
      have hq : q x = false := by simpa using hx
      simp [hq, ih hxs]

lemma reasonsFor_eq_foldl {p : Policy} (hp : p.isEmpty = false) (ordered : List Snapshot) :
    reasonsFor p ordered = (Reason.rules.filter p.uses).foldl
      (fun why ρ => addReason why ρ (ruleMarks p ordered ρ)) (ordered.map fun _ => []) := by
  rw [reasonsFor, if_neg (by simp [hp]), columns_eq, List.foldl_map]

lemma foldl_addReason_picked (p : Policy) {left whole : List Snapshot} {cover : List Bool}
    {rules : List Reason}
    (h : ∀ ρ ∈ rules, ruleMarks p left ρ = picked (ruleMarks p whole ρ) cover)
    {why : List (List Reason)} (hwhy : why.length = whole.length) :
    rules.foldl (fun why ρ => addReason why ρ (ruleMarks p left ρ)) (picked why cover) =
      picked (rules.foldl (fun why ρ => addReason why ρ (ruleMarks p whole ρ)) why) cover := by
  induction rules generalizing why with
  | nil => rfl
  | cons ρ rules ih =>
    have hlength : (ruleMarks p whole ρ).length = why.length := by simp [hwhy]
    have hstep : addReason (picked why cover) ρ (ruleMarks p left ρ) =
        picked (addReason why ρ (ruleMarks p whole ρ)) cover := by
      rw [h ρ (by simp), addReason, zipWith_picked _ hlength.symm]
      rfl
    rw [List.foldl_cons, List.foldl_cons, hstep]
    exact ih (fun σ hσ => h σ (by simp [hσ])) (by rw [length_addReason _ _ hlength, hwhy])

/-- A rule that is switched on marks only what the policy keeps. -/
lemma ruleMarks_covered {p : Policy} {ρ : Reason} (hρ : ρ ∈ Reason.rules)
    (huses : p.uses ρ = true) (ordered : List Snapshot) :
    Covered (ruleMarks p ordered ρ) (verdicts p ordered) :=
  covered_iff.2 ⟨by simp, fun i hi =>
    (verdict_iff (isEmpty_eq_false_iff.2 ⟨ρ, hρ, huses⟩) ordered i).2 ⟨ρ, hρ, huses, hi⟩⟩

/-- **Leaving out what is not kept anyway** changes nothing about what is kept behind newer
snapshots, nor about the reasons. -/
theorem kept_picked (p : Policy) {new old : List Snapshot} (hold : Descending old)
    (hnewer : Newer new old) :
    kept p (new ++ picked old (verdicts p old)) = kept p (new ++ old) := by
  rcases hp : p.isEmpty with _ | _
  · have hmarks (ρ : Reason) (hρ : ρ ∈ Reason.rules) (huses : p.uses ρ = true) :=
      ruleMarks_picked p ρ hold hnewer (ruleMarks_covered hρ huses old)
    have hreasons : reasonsFor p (new ++ picked old (verdicts p old)) =
        picked (reasonsFor p (new ++ old)) (behind new (verdicts p old)) := by
      have hnone : ((new ++ old).map fun _ => ([] : List Reason)).length = (new ++ old).length :=
        List.length_map _
      have := foldl_addReason_picked p (fun ρ hρ =>
        (hmarks ρ (List.mem_filter.1 hρ).1 (List.mem_filter.1 hρ).2).1) hnone
      rw [reasonsFor_eq_foldl hp, reasonsFor_eq_foldl hp, ← this, picked_map, picked_behind]
    -- nothing is kept in the end that was not kept before or is new
    have hcover : Covered (verdicts p (new ++ old)) (behind new (verdicts p old)) := by
      refine covered_iff.2 ⟨by simp [behind], fun i hi => ?_⟩
      obtain ⟨ρ, hρ, huses, hmark⟩ := (verdict_iff hp _ i).1 hi
      exact (covered_iff.1 (hmarks ρ hρ huses).2).2 i hmark
    have hzip : (new ++ picked old (verdicts p old)).zip
        (picked (reasonsFor p (new ++ old)) (behind new (verdicts p old))) =
          picked ((new ++ old).zip (reasonsFor p (new ++ old))) (behind new (verdicts p old)) := by
      rw [← picked_behind]
      exact zipWith_picked Prod.mk (length_reasonsFor p _).symm _
    rw [kept, hreasons, hzip, kept]
    exact filter_picked _ ((map_zip_reasonsFor p _).symm ▸ hcover)
  · rw [verdicts_of_isEmpty hp, picked_replicate_true]

/-- What is kept of newer snapshots and of what was kept of the older ones. -/
lemma kept_later (p : Policy) {old new both later : List Snapshot} (hnewer : Newer new old)
    (hboth : Interleaving old new both)
    (hlater : Interleaving (outcome p (newestFirst old)).keep new later) :
    kept p (newestFirst later) = kept p (newestFirst both) := by
  have hold := isNewestFirst_newestFirst old
  have hnew := isNewestFirst_newestFirst new
  rw [outcome_keep] at hlater
  have hsub := picked_sublist (newestFirst old) (verdicts p (newestFirst old))
  have hordered : Newer (newestFirst new) (newestFirst old) := fun n hn o ho =>
    hnewer n (hnew.perm.mem_iff.1 hn) o (hold.perm.mem_iff.1 ho)
  have hleft : Newer new (picked (newestFirst old) (verdicts p (newestFirst old))) :=
    fun n hn o ho => hnewer n hn o (hold.perm.mem_iff.1 (hsub.subset ho))
  rw [newestFirst_interleaving hnewer hboth, newestFirst_interleaving hleft hlater,
    newestFirst_of_descending (hold.descending.sublist hsub)]
  exact kept_picked p hold.descending hordered

/-- **Retention is path independent.**  A policy is applied to some snapshots; newer ones are
made, in any number; and it is applied again to what it kept and the newer ones, listed together
in any way.  It keeps what it would have kept if it had not been applied before, for the same
reasons.  Without newer snapshots it removes nothing more. -/
theorem select_path_independent {p : Policy} (hp : p.HasTextTags) {old new : List Snapshot}
    (hnewer : Newer new old) :
    ∃ first, select p old = .ok first ∧
      (∀ both later, Interleaving old new both → Interleaving first.keep new later →
        ∃ lazy eager, select p both = .ok lazy ∧ select p later = .ok eager ∧
          eager.keep = lazy.keep ∧ eager.reasons = lazy.reasons) ∧
      ∃ again, select p first.keep = .ok again ∧ again.keep = first.keep ∧ again.remove = [] := by
  refine ⟨_, select_eq hp old, fun both later hboth hlater => ?_, ?_⟩
  · exact ⟨_, _, select_eq hp both, select_eq hp later,
      outcome_congr (kept_later p hnewer hboth hlater)⟩
  · have alone (xs : List Snapshot) : Interleaving xs [] xs := by
      simpa using Interleaving.append xs []
    have hagain := outcome_congr (kept_later p (by simp [Newer]) (alone old) (alone _))
    refine ⟨_, select_eq hp _, hagain.1, ?_⟩
    -- all is kept again, so by their number nothing is left to remove
    have hlength := (partitions_outcome p (outcome p (newestFirst old)).keep).perm.length_eq
    rw [hagain.1, List.length_append] at hlength
    exact List.eq_nil_of_length_eq_zero (by omega)

/-- Of the two older snapshots the policy keeps one for its day and one for its tag; when two more
have been made the first is no longer among the last days. -/
theorem select_path_independent_days :
    let p : Policy := { Policy.empty with daily := .number 2, tags := [.str "keep"] }
    let old := [sample "b" 2 23 0 [], sample "a" 2 9 0 ["keep"]]
    let new := [sample "d" 4 0 0 [], sample "c" 3 3 2 []]
    p.HasTextTags ∧ Newer new old ∧
      ∃ first lazy eager, select p old = .ok first ∧ select p (old ++ new) = .ok lazy ∧
        select p (first.keep ++ new) = .ok eager ∧ first.keep.map (·.id) = ["b", "a"] ∧
        eager.keep = lazy.keep ∧ eager.reasons = lazy.reasons ∧
        eager.keep.map (·.id) = ["d", "c", "a"] := by
  intro p old new
  have htags : p.HasTextTags := by simp [p, Policy.HasTextTags]
  have hnewer : Newer new old := by unfold Newer; decide
  obtain ⟨first, hfirst, hlater, -⟩ := select_path_independent htags hnewer
  obtain ⟨lazy, eager, hlazy, heager, hkeep, hreasons⟩ :=
    hlater _ _ (.append old new) (.append first.keep new)
  refine ⟨htags, hnewer, first, lazy, eager, hfirst, hlazy, heager, ?_, hkeep, hreasons, ?_⟩
  · rw [select_eq htags, newestFirst_of_descending (by unfold Descending; decide)] at hfirst
    rw [← Except.ok.inj hfirst]
    decide
  · have hnew : newestFirst new = new :=
      newestFirst_of_descending (by unfold Descending; decide)
    have hold : newestFirst old = old :=
      newestFirst_of_descending (by unfold Descending; decide)
    rw [select_eq htags, newestFirst_interleaving hnewer (.append old new), hnew, hold] at hlazy
    rw [hkeep, ← Except.ok.inj hlazy]
    decide

end BackupSteward.Retention
