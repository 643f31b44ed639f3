import BackupSteward.Proofs.Retention.Runs
import BackupSteward.Proofs.Snapshot.Decoding
import Mathlib.Data.Finset.Sort

/-!
# The newest snapshot of each period

Where all snapshots were made under one clock, a calendar rule that is alone in its policy keeps the
newest snapshot of each of the most recent periods.  The rule remembers only one period, so this
rests on the order of the periods: what is marked comes first among the snapshots of its period
because no period lies in two places.
-/

namespace BackupSteward

namespace Retention

variable {r : Rule} {listing : List Snapshot}

/-- Decoded snapshots are of one clock if their clocks have one offset. -/
lemma oneClock_of_decode (hdecoded : ∀ s ∈ listing, ∃ fields, Snapshot.decode fields = .ok s)
    (hoffset : ∀ s ∈ listing, ∀ t ∈ listing, s.time.offset = t.time.offset) : OneClock listing where
  valid s hs := by
    obtain ⟨fields, hfields⟩ := hdecoded s hs
    exact (Snapshot.decodedFrom_of_decode hfields).isProper_time.valid
  offset := hoffset

/-- The periods in which the snapshots of a listing were made, from the latest to the earliest. -/
def periodsOf (r : Rule) (listing : List Snapshot) : List (List Nat) :=
  (listing.map (periodOf r)).toFinset.sort (· ≥ ·)

/-- The newest snapshot of a period. -/
def newestOf (r : Rule) (listing : List Snapshot) (q : List Nat) : Option Snapshot :=
  (newestFirst listing).find? fun s => periodOf r s = q

/-- Where the periods descend each runs once. -/
lemma runs_eq_periodsOf (h : ((newestFirst listing).map (periodOf r)).Pairwise (· ≥ ·)) :
    runs ((newestFirst listing).map (periodOf r)) = periodsOf r listing := by
  have hperm := (isNewestFirst_newestFirst listing).perm.map (periodOf r)
  have hruns : runs ((newestFirst listing).map (periodOf r)) =
      ((newestFirst listing).map (periodOf r)).dedup := h.destutter_eq_dedup
  have hset : ((newestFirst listing).map (periodOf r)).dedup.toFinset =
      (listing.map (periodOf r)).toFinset := by
    ext q
    rw [List.mem_toFinset, List.mem_dedup, hperm.mem_iff, List.mem_toFinset]
  rw [hruns, periodsOf, ← hset]
  exact ((List.toFinset_sort _ (List.nodup_dedup _)).2 (h.sublist (List.dedup_sublist _))).symm

/-- Where the periods descend, a snapshot is marked only if no other of its period is in front. -/
lemma find?_of_mem_picked {count : Int} {last : Option (List Nat)} {ordered : List Snapshot}
    (h : (ordered.map (periodOf r)).Pairwise (· ≥ ·))
    (hlast : ∀ q, last = some q → ∀ t ∈ ordered, q ≥ periodOf r t) {s : Snapshot}
    (hs : s ∈ picked ordered (scan count last (ordered.map (periodOf r)))) :
    last ≠ some (periodOf r s) ∧
      ordered.find? (fun t => periodOf r t = periodOf r s) = some s := by
  induction ordered generalizing count last with
  | nil => simp at hs
  | cons t ordered ih =>
    obtain ⟨hhead, htail⟩ := List.pairwise_cons.1 h
    replace hhead : ∀ u ∈ ordered, periodOf r t ≥ periodOf r u := by simpa using hhead
    rw [List.map_cons] at hs
    by_cases hskip : count = 0 ∨ last = some (periodOf r t)
    · rw [scan_skip hskip, picked_cons_false] at hs
      obtain ⟨hne, hfind⟩ := ih htail (fun q hq u hu => hlast q hq u (by simp [hu])) hs
      have hcount : count ≠ 0 := by
        rintro rfl
        simp [picked_scan_zero] at hs
      have hts : periodOf r t ≠ periodOf r s := fun heq =>
        hne (hskip.resolve_left hcount ▸ congrArg some heq)
      exact ⟨hne, by rw [List.find?_cons_of_neg (by simpa using hts), hfind]⟩
    · rw [scan_mark hskip, picked_cons_true] at hs
      rcases List.mem_cons.1 hs with rfl | hs
      · exact ⟨fun hq => hskip (.inr hq), List.find?_cons_of_pos (by simp)⟩
      · obtain ⟨hne, hfind⟩ := ih htail (fun q hq u hu => Option.some.inj hq ▸ hhead u hu) hs
        have hts : periodOf r t ≠ periodOf r s := fun heq => hne (congrArg some heq)
        refine ⟨fun hq => ?_, by rw [List.find?_cons_of_neg (by simpa using hts), hfind]⟩
        -- the head would lie between two snapshots of one period
        have hge : periodOf r s ≥ periodOf r t := hlast _ hq t (by simp)
        have hmem : s ∈ ordered := (picked_sublist _ _).subset hs
        exact hts (le_antisymm hge (hhead s hmem))

/-- A rule is the only one of a policy that is switched on. -/
def IsOnlyRule (p : Policy) (r : Rule) : Prop :=
  ∀ ρ ∈ Reason.rules, p.uses ρ = true ↔ ρ = .rule r

/-- A policy with a counted rule alone has no tags. -/
lemma IsOnlyRule.hasTextTags {p : Policy} (h : IsOnlyRule p r) : p.HasTextTags := by
  intro v hv
  have htag : p.uses .tag = true := by simpa [Policy.uses] using List.ne_nil_of_mem hv
  cases (h .tag (by decide)).1 htag

lemma IsOnlyRule.verdicts_eq {p : Policy} (h : IsOnlyRule p r) (ordered : List Snapshot) :
    verdicts p ordered = marks r (p.count r).amount ordered :=
  verdicts_of_hasOnly (rule_mem_rules r) h ordered

/-- The newest snapshots of the most recent periods of a listing, as many as a count allows. -/
structure KeepsNewest (r : Rule) (count : Int) (listing keep : List Snapshot) : Prop where
  newest : 0 < count → keep.map some =
    ((periodsOf r listing).take count.toNat).map (newestOf r listing)
  newest_of_all : count = -1 → keep.map some = (periodsOf r listing).map (newestOf r listing)
  length_eq : 0 < count → keep.length = min count.toNat (periodsOf r listing).length

/-- **A calendar rule keeps the newest snapshot of each of the most recent periods.** -/
theorem calendar_rule_keeps_newest {p : Policy} (hr : r ≠ .last) (honly : IsOnlyRule p r)
    (hclock : OneClock listing) : ∃ result, select p listing = .ok result ∧
      KeepsNewest r (p.count r).amount listing result.keep := by
  have hdescending := periods_descending hr hclock
  obtain ⟨keep, hkeep⟩ : ∃ keep, keep = (outcome p (newestFirst listing)).keep := ⟨_, rfl⟩
  have hmarked : keep = picked (newestFirst listing)
      (marks r (p.count r).amount (newestFirst listing)) := by
    rw [hkeep, outcome_keep, honly.verdicts_eq]
  have hperiods : keep.map (periodOf r) = limited (p.count r).amount (periodsOf r listing) := by
    rw [hmarked, map_periodOf_picked hr, runs_eq_periodsOf hdescending]
  have hnewest : keep.map some =
      (limited (p.count r).amount (periodsOf r listing)).map (newestOf r listing) := by
    rw [← hperiods, List.map_map]
    refine List.map_congr_left fun s hs => ?_
    rw [hmarked, marks_eq_scan, periods_eq_map hr] at hs
    exact (find?_of_mem_picked hdescending (by rintro _ ⟨⟩) hs).2.symm
  refine ⟨_, select_eq honly.hasTextTags listing, ?_⟩
  rw [← hkeep]
  refine ⟨fun hpos => ?_, fun hall => ?_, fun hpos => ?_⟩
  · rw [hnewest, limited, if_neg (by omega)]
  · rw [hnewest, limited_of_neg (by omega)]
  · rw [← length_limited hpos.le, ← hperiods, List.length_map]

/-- A snapshot at noon of a day, by a clock an hour ahead of universal time. -/
def atNoon (id : String) (year month day : Nat) : Snapshot :=
  { sample id 1 0 0 [] with time := ⟨year, month, day, 12, 0, 0, 0, 3600000000⟩ }

/-- The first week of 2025 begins in 2024, and its newest snapshot is one of January. -/
theorem weekly_rule_keeps_newest_at_turn_of_year :
    let p : Policy := { Policy.empty with weekly := .number 3 }
    let listing := [atNoon "e" 2025 1 6, atNoon "d" 2025 1 2, atNoon "c" 2024 12 30,
      atNoon "b" 2024 12 29, atNoon "a" 2024 12 20]
    Rule.weekly ≠ .last ∧ IsOnlyRule p .weekly ∧ OneClock listing ∧
      ∃ result, select p listing = .ok result ∧ KeepsNewest .weekly 3 listing result.keep ∧
        result.keep.map (·.id) = ["e", "d", "b"] ∧
        periodsOf .weekly listing = [[2025, 2], [2025, 1], [2024, 52], [2024, 51]] := by
  intro p listing
  have hweekly : Rule.weekly ≠ .last := by decide
  have honly : IsOnlyRule p .weekly := by unfold IsOnlyRule; decide
  have hclock : OneClock listing := ⟨by decide, by decide⟩
  obtain ⟨result, hselect, hkeeps⟩ := calendar_rule_keeps_newest hweekly honly hclock
  have hordered : newestFirst listing = listing :=
    newestFirst_of_descending (by unfold Descending; decide)
  have hperiods : periodsOf .weekly listing = [[2025, 2], [2025, 1], [2024, 52], [2024, 51]] := by
    rw [← runs_eq_periodsOf (periods_descending hweekly hclock), hordered]
    decide
  have hkeep : result.keep.map some =
      [atNoon "e" 2025 1 6, atNoon "d" 2025 1 2, atNoon "b" 2024 12 29].map some := by
    rw [hkeeps.newest (by decide), hperiods]
    unfold newestOf
    rw [hordered]
    decide
  refine ⟨hweekly, honly, hclock, result, hselect, hkeeps, ?_, hperiods⟩
  rw [List.map_injective_iff.2 (Option.some_injective _) hkeep]
  rfl

end Retention

end BackupSteward
