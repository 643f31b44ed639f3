import BackupSteward.Proofs.Retention.Partition
import Mathlib.Data.ENat.Basic

/-!
# Retention is monotone in the policy

A policy that widens another, rule by rule, keeps all that the other keeps, and for all of its
reasons.  Main step: of two scans of one list, the one with the larger count marks what the other
marks, because they stand at the same period until the smaller count is used up.  A policy without
rules is left out, since it keeps everything.
-/

namespace BackupSteward

namespace Retention

/-- How many periods a count reaches; a negative count is no limit. -/
def reach (count : Int) : ℕ∞ := if count < 0 then ⊤ else count.toNat

lemma reach_le_iff {a b : Int} : reach a ≤ reach b ↔ b < 0 ∨ 0 ≤ a ∧ a ≤ b := by
  unfold reach
  by_cases hb : b < 0
  · simp [hb]
  · by_cases ha : a < 0
    · have : ¬0 ≤ a := by omega
      simp [ha, hb, this]
    · simp only [ha, hb, if_false, Nat.cast_le, false_or]
      omega

lemma reach_lessOne {a b : Int} (h : reach a ≤ reach b) :
    reach (lessOne a) ≤ reach (lessOne b) := by
  rw [reach_le_iff] at h ⊢
  unfold lessOne
  split <;> split <;> omega

/-- Nothing is marked once the count is used up. -/
lemma covered_scan_zero (last : Option (List Nat)) {ps : List (List Nat)} {marks : List Bool}
    (h : marks.length = ps.length) : Covered (scan 0 last ps) marks := by
  induction ps generalizing marks with
  | nil =>
    rw [List.eq_nil_of_length_eq_zero h]
    exact .nil
  | cons p ps ih =>
    obtain ⟨m, marks, rfl⟩ := List.exists_cons_of_length_eq_add_one h
    rw [scan_skip (.inl rfl), covered_cons]
    exact ⟨by simp, ih (by simpa using h)⟩

/-- **A larger count marks more.**  The invariant is that both scans have marked the same period
last. -/
theorem covered_scan {a b : Int} (h : reach a ≤ reach b) (last : Option (List Nat))
    (ps : List (List Nat)) : Covered (scan a last ps) (scan b last ps) := by
  induction ps generalizing a b last with
  | nil => exact .nil
  | cons p ps ih =>
    by_cases ha : a = 0
    · subst ha
      exact covered_scan_zero last (by simp)
    have hb : b ≠ 0 := by
      rw [reach_le_iff] at h
      omega
    by_cases hlast : last = some p
    · rw [scan_skip (.inr hlast), scan_skip (.inr hlast), covered_cons]
      exact ⟨id, ih h last⟩
    · rw [scan_mark (by simp [ha, hlast]), scan_mark (by simp [hb, hlast]), covered_cons]
      exact ⟨fun _ => rfl, ih (reach_lessOne h) (some p)⟩

end Retention

open Retention

/-- `q` widens `p`: each of its rules reaches at least as far. -/
structure Policy.Widens (q p : Policy) : Prop where
  count : ∀ r, reach (p.count r).amount ≤ reach (q.count r).amount
  within : (p.within.getD ⟨0⟩).micros ≤ (q.within.getD ⟨0⟩).micros
  tags : ∀ t, Value.str t ∈ p.tags → Value.str t ∈ q.tags

namespace Retention

variable {p q : Policy} {ordered : List Snapshot}

/-- What a rule marks that is switched on, it marks in a wider policy, where it is switched on
too. -/
theorem marked_of_widens (h : q.Widens p) (hordered : Descending ordered) {ρ : Reason}
    (hρ : ρ ∈ Reason.rules) {i : Nat} (huses : p.uses ρ = true)
    (hmark : (ruleMarks p ordered ρ)[i]? = some true) :
    q.uses ρ = true ∧ (ruleMarks q ordered ρ)[i]? = some true := by
  cases ρ with
  | noPolicy => exact absurd rfl (ne_noPolicy_of_mem_rules hρ)
  | rule r =>
    have hcount := reach_le_iff.1 (h.count r)
    have hp : (p.count r).amount ≠ 0 := of_decide_eq_true huses
    refine ⟨decide_eq_true (by omega), ?_⟩
    have hcovered := covered_scan (h.count r) none (periods r 0 ordered)
    rw [← marks_eq_scan, ← marks_eq_scan] at hcovered
    exact (covered_iff.1 hcovered).2 i hmark
  | within =>
    obtain ⟨newest, s, hnewest, hs, hle⟩ := getElem?_withinMarks.1 hmark
    -- a duration within which something lies is not negative
    have hinstant := hordered.instant_le hnewest (List.mem_of_getElem? hs)
    have hwithin := h.within
    have hp := Policy.hasWithin_iff.1 huses
    exact ⟨Policy.hasWithin_iff.2 (by omega),
      getElem?_withinMarks.2 ⟨newest, s, hnewest, hs, by omega⟩⟩
  | tag =>
    obtain ⟨s, hs, t, ht, htag⟩ := getElem?_tagMarks.1 hmark
    refine ⟨?_, getElem?_tagMarks.2 ⟨s, hs, t, ht, h.tags t htag⟩⟩
    simpa [Policy.uses] using List.ne_nil_of_mem (h.tags t htag)

/-- A wider policy keeps a place for all reasons for which the other keeps it. -/
lemma reasonsAt_subset (hp : p.isEmpty = false) (h : q.Widens p) (hordered : Descending ordered)
    (i : Nat) : reasonsAt p ordered i ⊆ reasonsAt q ordered i := by
  intro ρ hmem
  obtain ⟨hρ, huses, hmark⟩ := (mem_reasonsAt hp).1 hmem
  obtain ⟨huses, hmark⟩ := marked_of_widens h hordered hρ huses hmark
  have hq : q.isEmpty = false := isEmpty_eq_false_iff.2 ⟨ρ, hρ, huses⟩
  exact (mem_reasonsAt hq).2 ⟨hρ, huses, hmark⟩

/-- A wider policy keeps the snapshots that the other keeps. -/
lemma covered_verdicts (hp : p.isEmpty = false) (h : q.Widens p) (hordered : Descending ordered) :
    Covered (verdicts p ordered) (verdicts q ordered) := by
  refine covered_iff.2 ⟨by simp, fun i hi => ?_⟩
  obtain ⟨ρ, hρ, huses, hmark⟩ := (verdict_iff hp ordered i).1 hi
  obtain ⟨huses, hmark⟩ := marked_of_widens h hordered hρ huses hmark
  exact (verdict_iff (isEmpty_eq_false_iff.2 ⟨ρ, hρ, huses⟩) ordered i).2 ⟨ρ, hρ, huses, hmark⟩

/-- One policy keeps all that another keeps of a listing. -/
structure KeepsMore (p q : Policy) (listing : List Snapshot) (less more : Retention) : Prop where
  /-- What is kept at a place of the order is kept there. -/
  places : ∀ place, Keeps p listing place → Keeps q listing place
  /-- All rules that keep it keep it. -/
  keepers : ∀ place, keepersOf p listing place ⊆ keepersOf q listing place
  keep : less.keep.Sublist more.keep
  remove : more.remove.Sublist less.remove

/-- **Retention is monotone in the policy.**  Every count of the wider policy is at least that of
the other, no limit being the largest; its duration is at least as long; and it has all the tags.
Then it keeps every snapshot that the other keeps. -/
theorem select_monotone (hp : p.isEmpty = false) (hwidens : q.Widens p)
    (hptags : p.tags.all Value.comparable = true) (hqtags : q.tags.all Value.comparable = true)
    (listing : List Snapshot) :
    ∃ less more, select p listing = .ok less ∧ select q listing = .ok more ∧
      Partitions p listing less ∧ Partitions q listing more ∧ KeepsMore p q listing less more := by
  have hordered := descending_newestFirst listing
  have hcovered := covered_verdicts hp hwidens hordered
  refine ⟨_, _, select_of_comparable hptags listing, select_of_comparable hqtags listing,
    partitions_outcome p listing, partitions_outcome q listing, ?_⟩
  constructor
  case places => exact (covered_iff.1 hcovered).2
  case keepers =>
    intro place
    rw [← reasonsAt_eq_keepersOf, ← reasonsAt_eq_keepersOf]
    exact reasonsAt_subset hp hwidens hordered place
  case keep =>
    rw [outcome_keep, outcome_keep]
    exact hcovered.picked_sublist _
  case remove =>
    rw [outcome_remove, outcome_remove]
    exact hcovered.passedOver_sublist _

/-- One day is widened to all days, no time to ten hours, and one tag to two.  The third of January
is counted twice because it comes back on another clock. -/
theorem select_monotone_all_days :
    let p : Policy := { Policy.empty with daily := .number 1, tags := [.str "keep"] }
    let q : Policy := { Policy.empty with
      daily := .number (-1), within := some ⟨36000000000⟩, tags := [.str "also", .str "keep"] }
    let listing := [sample "a" 3 1 2 [], sample "b" 2 22 0 [], sample "c" 3 0 3 [],
      sample "d" 2 12 0 ["also"], sample "e" 1 12 0 ["keep"], sample "f" 1 11 0 []]
    p.isEmpty = false ∧ q.Widens p ∧ p.tags.all Value.comparable = true ∧
      q.tags.all Value.comparable = true ∧
      ∃ less more, select p listing = .ok less ∧ select q listing = .ok more ∧
        KeepsMore p q listing less more ∧ less.keep.map (·.id) = ["a", "e"] ∧
        more.keep.map (·.id) = ["a", "b", "c", "d", "e"] ∧ more.remove.map (·.id) = ["f"] := by
  intro p q listing
  have hp : p.isEmpty = false := rfl
  have hwidens : q.Widens p :=
    ⟨fun r => reach_le_iff.2 (by cases r <;> decide), by decide, by simp [p, q]⟩
  have hptags : p.tags.all Value.comparable = true := rfl
  have hqtags : q.tags.all Value.comparable = true := rfl
  obtain ⟨less, more, hless, hmore, hpparts, hqparts, hkeeps⟩ :=
    select_monotone hp hwidens hptags hqtags listing
  have hordered : newestFirst listing = listing := newestFirst_of_descending (by decide)
  have hlesskeep := hpparts.keep_eq
  have hmorekeep := hqparts.keep_eq
  have hmoreremove := hqparts.remove_eq
  rw [hordered] at hlesskeep hmorekeep hmoreremove
  refine ⟨hp, hwidens, hptags, hqtags, less, more, hless, hmore, hkeeps, ?_, ?_, ?_⟩
  · rw [hlesskeep]
    decide
  · rw [hmorekeep]
    decide
  · rw [hmoreremove]
    decide

end Retention

end BackupSteward
