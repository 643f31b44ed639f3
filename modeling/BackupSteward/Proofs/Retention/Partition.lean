import BackupSteward.Proofs.Retention.Order
import BackupSteward.Proofs.Retention.Verdict

/-!
# Retention as a partition

Applying a policy splits a listing: each snapshot is kept or removed, once, and both lists run
from the newest to the oldest.  What is kept is what the rules of the policy keep one by one.
-/

namespace BackupSteward.Retention

/-- A policy keeps the snapshot at a place of a listing that is ordered from the newest to the
oldest. -/
def Keeps (p : Policy) (listing : List Snapshot) (place : Nat) : Prop :=
  (verdicts p (newestFirst listing))[place]? = some true

instance (p : Policy) (listing : List Snapshot) (place : Nat) :
    Decidable (Keeps p listing place) :=
  inferInstanceAs (Decidable ((verdicts p (newestFirst listing))[place]? = some true))

/-- The rules of a policy that keep the snapshot at a place when each is applied alone. -/
def keepersOf (p : Policy) (listing : List Snapshot) (place : Nat) : List Reason :=
  if p.isEmpty then [.noPolicy]
  else Reason.rules.filter fun ρ => p.uses ρ && decide (Keeps (p.only ρ) listing place)

/-- What becomes of a listing under a policy. -/
structure Partitions (p : Policy) (listing : List Snapshot) (result : Retention) : Prop where
  /-- Nothing is lost, doubled, or in both lists. -/
  perm : (result.keep ++ result.remove).Perm listing
  keep_sublist : result.keep.Sublist (newestFirst listing)
  remove_sublist : result.remove.Sublist (newestFirst listing)
  /-- Kept are the snapshots at the places that the policy keeps. -/
  keep_eq : result.keep = picked (newestFirst listing) (verdicts p (newestFirst listing))
  remove_eq : result.remove = passedOver (newestFirst listing) (verdicts p (newestFirst listing))
  keep_all : p.isEmpty = true → result.keep = newestFirst listing
  /-- A place is kept if one of the rules keeps it alone. -/
  union : p.isEmpty = false → ∀ place, Keeps p listing place ↔
    ∃ ρ ∈ Reason.rules, p.uses ρ = true ∧ Keeps (p.only ρ) listing place
  /-- Reasons are given for the kept snapshots and for no other. -/
  keys : (listing.map (·.id)).Nodup → result.reasons.map (·.1) = result.keep.map (·.id)
  /-- The reasons for a snapshot are the rules that keep it, in their order. -/
  reasons : (listing.map (·.id)).Nodup → ∀ place s, (newestFirst listing)[place]? = some s →
    Keeps p listing place → (s.id, keepersOf p listing place) ∈ result.reasons

/-! ### The fields of a partition -/

lemma reasonsAt_eq_keepersOf (p : Policy) (listing : List Snapshot) (place : Nat) :
    reasonsAt p (newestFirst listing) place = keepersOf p listing place := by
  unfold reasonsAt keepersOf
  by_cases hp : p.isEmpty = true
  · rw [if_pos hp, if_pos hp]
  · rw [if_neg hp, if_neg hp]
    refine List.filter_congr fun ρ hρ => ?_
    by_cases huses : p.uses ρ = true
    · simp only [huses, Bool.true_and, Keeps, verdicts_only hρ huses]
    · simp [huses]

/-- With distinct identifiers each kept snapshot has its own entry. -/
lemma outcome_reasons {p : Policy} {ordered : List Snapshot} (h : (ordered.map (·.id)).Nodup) :
    (outcome p ordered).reasons = (kept p ordered).map fun j => (j.1.id, j.2) := by
  refine (foldl_note ?_).trans (List.nil_append _)
  have hsub : ((kept p ordered).map (·.1)).Sublist ordered := by
    rw [show (kept p ordered).map (·.1) = (outcome p ordered).keep from rfl, outcome_keep]
    exact picked_sublist ..
  have := (hsub.map (·.id)).nodup h
  simpa [Function.comp_def] using this

lemma mem_kept {p : Policy} {ordered : List Snapshot} {place : Nat} {s : Snapshot}
    (hs : ordered[place]? = some s) (hkept : (verdicts p ordered)[place]? = some true) :
    (s, reasonsAt p ordered place) ∈ kept p ordered := by
  rw [getElem?_verdicts, hs, Option.map_some, Option.some.injEq] at hkept
  refine List.mem_filter.2 ⟨List.mem_iff_getElem?.2 ⟨place, ?_⟩, hkept⟩
  rw [List.getElem?_zip_eq_some]
  exact ⟨hs, by rw [reasonsFor_eq, List.getElem?_mapIdx, hs]; rfl⟩

theorem partitions_outcome (p : Policy) (listing : List Snapshot) :
    Partitions p listing (outcome p (newestFirst listing)) where
  perm := by
    rw [outcome_keep, outcome_remove]
    exact (picked_append_passedOver_perm (by simp)).trans (isNewestFirst_newestFirst listing).perm
  keep_sublist := outcome_keep p _ ▸ picked_sublist ..
  remove_sublist := outcome_remove p _ ▸ picked_sublist ..
  keep_eq := outcome_keep ..
  remove_eq := outcome_remove ..
  keep_all hp := by rw [outcome_keep, verdicts_of_isEmpty hp, picked_replicate_true]
  union hp place := by
    rw [Keeps, verdict_iff hp]
    constructor
    · rintro ⟨ρ, hρ, huses, hmark⟩
      exact ⟨ρ, hρ, huses, by rwa [Keeps, verdicts_only hρ huses]⟩
    · rintro ⟨ρ, hρ, huses, hkeeps⟩
      exact ⟨ρ, hρ, huses, by rwa [Keeps, verdicts_only hρ huses] at hkeeps⟩
  keys h := by
    have hnodup := ((isNewestFirst_newestFirst listing).perm.map (·.id)).nodup_iff.2 h
    rw [outcome_reasons hnodup]
    simp [outcome, Function.comp_def]
  reasons h place s hs hkeeps := by
    have hnodup := ((isNewestFirst_newestFirst listing).perm.map (·.id)).nodup_iff.2 h
    rw [outcome_reasons hnodup, ← reasonsAt_eq_keepersOf]
    exact List.mem_map.2 ⟨_, mem_kept hs hkeeps, rfl⟩

/-! ### Keeping the last ones -/

/-- The policy that keeps a number of the most recent snapshots. -/
def keepingLast (count : Count) : Policy := { Policy.empty with last := count }

lemma picked_countdown {α : Type} {count : Int} (h : 0 ≤ count) (xs : List α) :
    picked xs (countdown count xs.length) = xs.take count.toNat := by
  induction xs generalizing count with
  | nil => simp
  | cons x xs ih =>
    rw [List.length_cons, countdown]
    by_cases hzero : count = 0
    · subst hzero
      have : picked xs (countdown 0 xs.length) = xs.take 0 := ih le_rfl
      simpa [lessOne] using this
    · have hless : lessOne count = count - 1 := if_pos (by omega)
      have hnat : count.toNat = (count - 1).toNat + 1 := by omega
      have : picked xs (countdown (count - 1) xs.length) = xs.take (count - 1).toNat :=
        ih (by omega)
      rw [hless, hnat]
      simp [hzero, this]

lemma countdown_of_neg {count : Int} (h : count < 0) (n : Nat) :
    countdown count n = List.replicate n true := by
  induction n with
  | zero => rfl
  | succ n ih =>
    have hless : lessOne count = count := if_neg (by omega)
    rw [countdown, hless, ih, List.replicate_succ]
    simp
    omega

lemma verdicts_keepingLast {count : Count} (h : count.amount ≠ 0) (ordered : List Snapshot) :
    verdicts (keepingLast count) ordered = countdown count.amount ordered.length := by
  have huses : (keepingLast count).uses (.rule .last) = true := by
    exact decide_eq_true h
  have := verdicts_only (rule_mem_rules .last) huses ordered
  rw [show (keepingLast count).only (.rule .last) = keepingLast count from rfl] at this
  rw [this, ruleMarks, marks_eq_scan, scan_of_fresh (nodup_periods_last _ _) (by simp),
    length_periods]
  rfl

/-- **Applying a policy splits a listing.**  The two lists are the newest-first order, stable on
ties, cut in two; kept is the union of what the rules keep; and keeping a number of recent
snapshots keeps the first of the order. -/
theorem select_partitions {p : Policy} (hp : p.HasTextTags) (listing : List Snapshot) :
    ∃ result, select p listing = .ok result ∧
      IsNewestFirst listing (newestFirst listing) ∧ Partitions p listing result ∧
      ∀ count : Count, ∃ recent, select (keepingLast count) listing = .ok recent ∧
        (0 < count.amount → recent.keep = (newestFirst listing).take count.amount.toNat ∧
          recent.keep.length = min count.amount.toNat listing.length) ∧
        (count.amount = -1 → recent.keep = newestFirst listing) := by
  refine ⟨_, select_eq hp listing, isNewestFirst_newestFirst listing, partitions_outcome p listing,
    fun count => ⟨_, select_eq (p := keepingLast count) (by simp [keepingLast, Policy.HasTextTags,
      Policy.empty]) listing, fun hpos => ?_, fun hall => ?_⟩⟩
  · have hkeep : (outcome (keepingLast count) (newestFirst listing)).keep =
        (newestFirst listing).take count.amount.toNat := by
      rw [outcome_keep, verdicts_keepingLast (by omega), picked_countdown hpos.le]
    refine ⟨hkeep, ?_⟩
    rw [hkeep, List.length_take, (isNewestFirst_newestFirst listing).perm.length_eq]
  · rw [outcome_keep, verdicts_keepingLast (by omega), countdown_of_neg (by omega),
      picked_replicate_true]

/-- A snapshot at an hour of a day of January 2024, by a clock some hours ahead of universal
time. -/
def sample (id : String) (day hour : Nat) (ahead : Int) (tags : List String) : Snapshot :=
  { id, time := ⟨2024, 1, day, hour, 0, 0, 0, ahead * 3600000000⟩, shortId := id, tree := "",
    parent := "", hostname := "", username := "", paths := [], tags }

/-- The first two of these were made at the same instant on clocks of different offset, so that
the one listed first counts as the newest of the day. -/
theorem select_partitions_tie :
    let p : Policy := { Policy.empty with daily := .number 1, tags := [.str "keep"] }
    let listing := [sample "d" 3 10 0 [], sample "c" 3 12 2 [], sample "b" 2 23 0 ["keep"],
      sample "a" 2 9 0 []]
    p.HasTextTags ∧ (listing.map (·.id)).Nodup ∧
      ∃ result, select p listing = .ok result ∧ Partitions p listing result ∧
        result.keep.map (·.id) = ["d", "b"] ∧ result.remove.map (·.id) = ["c", "a"] ∧
        ("d", [.rule .daily]) ∈ result.reasons ∧ ("b", [.tag]) ∈ result.reasons := by
  intro p listing
  have htags : p.HasTextTags := by simp [p, Policy.HasTextTags]
  have hnodup : (listing.map (·.id)).Nodup := by decide
  have hordered : newestFirst listing = listing :=
    newestFirst_of_descending (by unfold Descending; decide)
  obtain ⟨result, hselect, -, hparts, -⟩ := select_partitions htags listing
  -- sorting cannot be evaluated here; the listing is in order already, and the rest can
  have hkeep := hparts.keep_eq
  have hremove := hparts.remove_eq
  have hreasons := hparts.reasons hnodup
  simp only [Keeps, keepersOf, hordered] at hkeep hremove hreasons
  refine ⟨htags, hnodup, result, hselect, hparts, ?_, ?_, ?_, ?_⟩
  · rw [hkeep]
    decide
  · rw [hremove]
    decide
  · exact hreasons 0 (sample "d" 3 10 0 []) rfl (by decide)
  · exact hreasons 2 (sample "b" 2 23 0 ["keep"]) rfl (by decide)

end BackupSteward.Retention
