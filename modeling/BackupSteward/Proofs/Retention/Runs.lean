import BackupSteward.Proofs.Retention.Partition
import BackupSteward.Proofs.Time.Calendar
import Mathlib.Data.Finset.Card
import Mathlib.Data.List.Destutter
import Mathlib.Data.List.Lex

/-!
# The periods a calendar rule counts

A calendar rule compares a period only with the one it marked last, so it counts the runs of equal
periods in the order from the newest to the oldest.  A period that comes back behind others is a run
of its own, and is counted again.  Under one clock the periods descend, and none comes back.
-/

namespace BackupSteward.Retention

variable {α : Type}

/-- The first items of a list, as many as a count allows; a negative count is no limit. -/
def limited {α : Type} (count : Int) (xs : List α) : List α :=
  if count < 0 then xs else xs.take count.toNat

@[simp] lemma limited_zero (xs : List α) : limited 0 xs = [] := by simp [limited]

@[simp] lemma limited_nil (count : Int) : limited count ([] : List α) = [] := by simp [limited]

lemma limited_of_neg {count : Int} (h : count < 0) (xs : List α) : limited count xs = xs := if_pos h

lemma limited_of_le {count : Int} {xs : List α} (h : ¬(0 ≤ count ∧ count < xs.length)) :
    limited count xs = xs := by
  unfold limited
  split
  · rfl
  · exact List.take_of_length_le (by omega)

lemma length_limited {count : Int} (h : 0 ≤ count) (xs : List α) :
    (limited count xs).length = min count.toNat xs.length := by
  rw [limited, if_neg (by omega), List.length_take]

lemma limited_cons {count : Int} (h : count ≠ 0) (x : α) (xs : List α) :
    limited count (x :: xs) = x :: limited (lessOne count) xs := by
  rcases lt_or_gt_of_ne h with hneg | hpos
  · have hless : lessOne count = count := if_neg (by omega)
    rw [hless, limited_of_neg hneg, limited_of_neg hneg]
  · have hless : lessOne count = count - 1 := if_pos hpos
    have hnat : count.toNat = (count - 1).toNat + 1 := by omega
    rw [hless, limited, limited, if_neg (by omega), if_neg (by omega), hnat, List.take_succ_cons]

/-- Behind the items that a count allows no further one is taken. -/
lemma limited_concat (count : Int) (xs : List α) (x : α) :
    limited count (xs ++ [x]) =
      if 0 ≤ count ∧ count ≤ xs.length then limited count xs else xs ++ [x] := by
  split
  case isTrue h =>
    rw [limited, limited, if_neg (by omega), if_neg (by omega),
      List.take_append_of_le_length (by omega)]
  case isFalse h => exact limited_of_le (by simp; omega)

/-! ### Runs of periods -/

/-- Some periods, each as often as it begins anew. -/
def runs (ps : List (List Nat)) : List (List Nat) := ps.destutter (· ≠ ·)

/-- The runs behind a period that is running. -/
def runsBehind (q : List Nat) (ps : List (List Nat)) : List (List Nat) :=
  (ps.destutter' (· ≠ ·) q).tail

lemma destutter'_eq (q : List Nat) (ps : List (List Nat)) :
    ps.destutter' (· ≠ ·) q = q :: runsBehind q ps := by
  induction ps generalizing q with
  | nil => rfl
  | cons p ps ih =>
    by_cases hq : q = p
    · subst hq
      rw [runsBehind, List.destutter'_cons_neg _ (by simp)]
      exact ih q
    · rw [runsBehind, List.destutter'_cons_pos _ hq]
      rfl

lemma runs_cons (q : List Nat) (ps : List (List Nat)) : runs (q :: ps) = q :: runsBehind q ps :=
  destutter'_eq q ps

lemma runsBehind_cons (q p : List Nat) (ps : List (List Nat)) :
    runsBehind q (p :: ps) = if q = p then runsBehind q ps else p :: runsBehind p ps := by
  split
  case isTrue hq =>
    rw [runsBehind, List.destutter'_cons_neg _ (by simp [hq])]
    rfl
  case isFalse hq =>
    rw [runsBehind, List.destutter'_cons_pos _ hq, List.tail_cons, destutter'_eq]

lemma runsBehind_concat (q p : List Nat) (ps : List (List Nat)) :
    runsBehind q (ps ++ [p]) =
      if (q :: ps).getLast? = some p then runsBehind q ps else runsBehind q ps ++ [p] := by
  induction ps generalizing q with
  | nil =>
    rw [List.nil_append, runsBehind_cons]
    simp [runsBehind]
  | cons p' ps ih =>
    rw [List.cons_append, runsBehind_cons, runsBehind_cons, List.getLast?_cons_cons]
    by_cases hq : q = p'
    · subst hq
      rw [if_pos rfl, if_pos rfl, ih]
    · rw [if_neg hq, if_neg hq, ih]
      split <;> rfl

/-- A period begins a new run unless it is the one that ends the list. -/
lemma runs_concat (ps : List (List Nat)) (p : List Nat) :
    runs (ps ++ [p]) = if ps.getLast? = some p then runs ps else runs ps ++ [p] := by
  rcases ps with _ | ⟨q, ps⟩
  · rfl
  · rw [List.cons_append, runs_cons, runs_cons, runsBehind_concat]
    split <;> rfl

lemma runs_sublist (ps : List (List Nat)) : (runs ps).Sublist ps := List.destutter_sublist _ ps

/-- Every period runs at some time. -/
lemma mem_runs {ps : List (List Nat)} {p : List Nat} : p ∈ runs ps ↔ p ∈ ps := by
  refine ⟨fun h => (runs_sublist ps).subset h, fun h => ?_⟩
  induction ps using List.reverseRecOn with
  | nil => simp at h
  | append_singleton ps q ih =>
    rw [runs_concat]
    rcases List.mem_append.1 h with h | h
    · split
      · exact ih h
      · exact List.mem_append_left _ (ih h)
    · obtain rfl := List.mem_singleton.1 h
      split
      case isTrue hlast => exact ih (List.mem_of_getLast? hlast)
      case isFalse => exact List.mem_append_right _ h

/-- Nothing is marked once the count is used up. -/
lemma picked_scan_zero (xs : List α) (last : Option (List Nat)) (ps : List (List Nat)) :
    picked xs (scan 0 last ps) = [] := by
  induction ps generalizing xs with
  | nil => cases xs <;> rfl
  | cons p ps ih =>
    rw [scan_skip (.inl rfl)]
    cases xs with
    | nil => rfl
    | cons x xs => rw [picked_cons_false, ih]

/-- Behind a period marked last, the first snapshot of each further run is marked. -/
lemma picked_scan_some (count : Int) (q : List Nat) (ps : List (List Nat)) :
    picked ps (scan count (some q) ps) = limited count (runsBehind q ps) := by
  induction ps generalizing count q with
  | nil => simp [runsBehind]
  | cons p ps ih =>
    by_cases hcount : count = 0
    · rw [hcount, picked_scan_zero, limited_zero]
    by_cases hq : q = p
    · subst hq
      rw [scan_skip (.inr rfl), picked_cons_false, ih, runsBehind_cons, if_pos rfl]
    · rw [scan_mark (by simp [hcount, hq]), picked_cons_true, ih, runsBehind_cons, if_neg hq,
        limited_cons hcount]

/-- **A counted rule marks the first snapshot of each run**, as long as its count lasts. -/
theorem picked_scan (count : Int) (ps : List (List Nat)) :
    picked ps (scan count none ps) = limited count (runs ps) := by
  rcases ps with _ | ⟨p, ps⟩
  · simp [runs]
  by_cases hcount : count = 0
  · rw [hcount, picked_scan_zero, limited_zero]
  · rw [scan_mark (by simp [hcount]), picked_cons_true, picked_scan_some, runs_cons,
      limited_cons hcount]

/-! ### Periods that come back -/

/-- Where a period comes back, behind others, a count has been used up by the runs in front. -/
def UsedUpAtReturns (count : Int) (ps : List (List Nat)) : Prop :=
  ∀ front p back, ps = front ++ p :: back → p ∈ front → front.getLast? ≠ some p →
    0 ≤ count ∧ count ≤ (runs front).length

lemma usedUpAtReturns_concat {count : Int} {ps : List (List Nat)} {q : List Nat} :
    UsedUpAtReturns count (ps ++ [q]) ↔ UsedUpAtReturns count ps ∧
      (q ∈ ps → ps.getLast? ≠ some q → 0 ≤ count ∧ count ≤ (runs ps).length) := by
  constructor
  · intro h
    refine ⟨fun front p back heq => h front p (back ++ [q]) (by simp [heq]), h ps q [] rfl⟩
  · rintro ⟨hfront, hlast⟩ front p back heq
    rcases List.eq_nil_or_concat back with rfl | ⟨back, z, rfl⟩
    · obtain ⟨rfl, hp⟩ := List.append_inj' heq rfl
      obtain rfl : q = p := List.head_eq_of_cons_eq hp
      exact hlast
    · have heq : ps ++ [q] = (front ++ p :: back) ++ [z] := by simpa using heq
      exact hfront front p back (List.append_inj' heq rfl).1

/-- **A rule counts no period twice exactly if none comes back** before its count is used up. -/
theorem nodup_limited_runs_iff (count : Int) (ps : List (List Nat)) :
    (limited count (runs ps)).Nodup ↔ UsedUpAtReturns count ps := by
  induction ps using List.reverseRecOn with
  | nil => simp [runs, UsedUpAtReturns]
  | append_singleton ps q ih =>
    rw [usedUpAtReturns_concat, ← ih, runs_concat]
    split
    case isTrue hlast => simp [hlast]
    case isFalse hlast =>
      rw [limited_concat]
      split
      case isTrue hused => simp [hused]
      case isFalse hused =>
        rw [limited_of_le (by omega), List.nodup_append_comm, List.singleton_append,
          List.nodup_cons, mem_runs]
        tauto

/-- Where the periods descend none comes back. -/
lemma usedUpAtReturns_of_descending {count : Int} {ps : List (List Nat)}
    (h : ps.Pairwise (· ≥ ·)) : UsedUpAtReturns count ps := by
  rintro front p back rfl hmem hlast
  obtain ⟨front, q, rfl⟩ := List.eq_nil_or_concat front |>.resolve_left (List.ne_nil_of_mem hmem)
  refine absurd ?_ hlast
  obtain ⟨hfront, -, hcross⟩ := List.pairwise_append.1 h
  -- the last period in front lies between the two
  have hqp : q ≥ p := hcross q (by simp) p (by simp)
  have hpq : p ≥ q := by
    rcases List.mem_append.1 (List.concat_eq_append ▸ hmem) with hp | hp
    · exact (List.pairwise_append.1 (List.concat_eq_append ▸ hfront)).2.2 p hp q (by simp)
    · exact (List.mem_singleton.1 hp).ge
  simp [le_antisymm hqp hpq]

/-! ### Clocks -/

/-- **Under one clock, periods are ordered as the moments are.** -/
theorem period_le {r : Rule} (hr : r ≠ .last) {a b : Moment} (ha : a.Proper) (hb : b.Proper)
    (h : a.clock ≤ b.clock) (i j : Nat) : period r i a ≤ period r j b := by
  rw [← not_lt]
  intro hlt
  suffices b.clock < a.clock by omega
  cases r with
  | last => exact absurd rfl hr
  | weekly =>
    simp only [period, List.cons_lt_cons_iff, List.not_lt_nil, and_false, or_false] at hlt
    refine Moment.clock_lt_of_dayNumber hb ?_
    exact (Calendar.inWeek_isoWeek hb.date).lt (Calendar.inWeek_isoWeek ha.date) hlt
  | yearly =>
    simp only [period, List.cons_lt_cons_iff, List.not_lt_nil, and_false, or_false] at hlt
    exact Moment.clock_lt_of_fields hb ha (.inl hlt)
  | monthly =>
    simp only [period, List.cons_lt_cons_iff, List.not_lt_nil, and_false, or_false] at hlt
    exact Moment.clock_lt_of_fields hb ha (hlt.imp_right (And.imp_right .inl))
  | daily =>
    simp only [period, List.cons_lt_cons_iff, List.not_lt_nil, and_false, or_false] at hlt
    refine Moment.clock_lt_of_fields hb ha (hlt.imp_right (And.imp_right ?_))
    exact Or.imp_right (And.imp_right .inl)
  | hourly =>
    simp only [period, List.cons_lt_cons_iff, List.not_lt_nil, and_false, or_false] at hlt
    exact Moment.clock_lt_of_fields hb ha hlt

/-! ### What is kept for a rule -/

/-- The period of a snapshot under a calendar rule. -/
def periodOf (r : Rule) (s : Snapshot) : List Nat := period r 0 s.time

/-- The snapshots that are kept for a counted rule, whether other rules keep them too or not, from
the newest to the oldest. -/
def keptFor (p : Policy) (r : Rule) (listing : List Snapshot) : List Snapshot :=
  ((kept p (newestFirst listing)).filter fun j => j.2.contains (.rule r)).map (·.1)

lemma contains_reasonsFor {p : Policy} {r : Rule} (h : p.uses (.rule r) = true)
    (ordered : List Snapshot) : (reasonsFor p ordered).map (·.contains (.rule r)) =
      marks r (p.count r).amount ordered := by
  have hempty : p.isEmpty = false := isEmpty_eq_false_iff.2 ⟨.rule r, rule_mem_rules r, h⟩
  refine marks_ext (by simp) fun i => ?_
  rw [reasonsFor_eq, List.getElem?_map, List.getElem?_mapIdx, Option.map_map,
    Option.map_eq_some_iff]
  constructor
  · rintro ⟨s, -, hs⟩
    exact ((mem_reasonsAt hempty).1 (List.contains_iff_mem.1 hs)).2.2
  · intro hmark
    obtain ⟨hi, -⟩ := List.getElem?_eq_some_iff.1 hmark
    rw [length_marks] at hi
    refine ⟨ordered[i], List.getElem?_eq_getElem hi, List.contains_iff_mem.2 ?_⟩
    exact (mem_reasonsAt hempty).2 ⟨rule_mem_rules r, h, hmark⟩

/-- For a rule that is switched on those snapshots are kept that it marks. -/
lemma keptFor_eq {p : Policy} {r : Rule} (h : p.uses (.rule r) = true) (listing : List Snapshot) :
    keptFor p r listing = picked (newestFirst listing)
      (marks r (p.count r).amount (newestFirst listing)) := by
  have hkept : (kept p (newestFirst listing)).filter (fun j => j.2.contains (.rule r)) =
      ((newestFirst listing).zip (reasonsFor p (newestFirst listing))).filter
        fun j => j.2.contains (.rule r) := by
    rw [kept, List.filter_filter]
    refine List.filter_congr fun j _ => ?_
    cases hj : j.2.contains (.rule r) with
    | false => rfl
    | true =>
      have := List.ne_nil_of_mem (List.contains_iff_mem.1 hj)
      simpa using this
  rw [keptFor, hkept, ← contains_reasonsFor h]
  exact map_fst_filter_zip (fun why : List Reason => why.contains (.rule r)) (by simp)

/-- Of each run of snapshots of one period the first is kept, as long as the count lasts. -/
lemma map_periodOf_picked {r : Rule} (hr : r ≠ .last) (count : Int) (ordered : List Snapshot) :
    (picked ordered (marks r count ordered)).map (periodOf r) =
      limited count (runs (ordered.map (periodOf r))) := by
  rw [← picked_map, marks_eq_scan, periods_eq_map hr]
  exact picked_scan count _

/-- With distinct identifiers, a rule stands among the reasons noted for what is kept for it. -/
lemma mem_keptFor_iff {p : Policy} {r : Rule} {listing : List Snapshot}
    (h : (listing.map (·.id)).Nodup) {s : Snapshot}
    (hs : s ∈ (outcome p (newestFirst listing)).keep) : s ∈ keptFor p r listing ↔
      ∃ why, (s.id, why) ∈ (outcome p (newestFirst listing)).reasons ∧ .rule r ∈ why := by
  have hnodup := ((isNewestFirst_newestFirst listing).perm.map (·.id)).nodup_iff.2 h
  have hkeep : ((outcome p (newestFirst listing)).keep.map (·.id)).Nodup :=
    ((partitions_outcome p listing).keep_sublist.map (·.id)).nodup hnodup
  rw [outcome_reasons hnodup, keptFor]
  constructor
  · intro hmem
    obtain ⟨⟨t, why⟩, ht, rfl⟩ := List.mem_map.1 hmem
    obtain ⟨hjudged, hrule⟩ := List.mem_filter.1 ht
    exact ⟨why, List.mem_map.2 ⟨(t, why), hjudged, rfl⟩, List.contains_iff_mem.1 hrule⟩
  · rintro ⟨why, hmem, hrule⟩
    obtain ⟨⟨t, why⟩, ht, heq⟩ := List.mem_map.1 hmem
    obtain ⟨hid, rfl⟩ := Prod.mk.inj heq
    -- no other kept snapshot has the identifier
    obtain rfl : t = s := List.inj_on_of_nodup_map hkeep (List.mem_map.2 ⟨_, ht, rfl⟩) hs hid
    exact List.mem_map.2 ⟨_, List.mem_filter.2 ⟨ht, List.contains_iff_mem.2 hrule⟩, rfl⟩

/-- The snapshots of a listing were made under one clock, at moments that exist. -/
structure OneClock (listing : List Snapshot) : Prop where
  valid : ∀ s ∈ listing, s.time.valid = true
  offset : ∀ s ∈ listing, ∀ t ∈ listing, s.time.offset = t.time.offset

/-- Under one clock the periods descend from the newest snapshot to the oldest. -/
lemma periods_descending {r : Rule} (hr : r ≠ .last) {listing : List Snapshot}
    (h : OneClock listing) : ((newestFirst listing).map (periodOf r)).Pairwise (· ≥ ·) := by
  have hperm := (isNewestFirst_newestFirst listing).perm
  rw [List.pairwise_map]
  refine (descending_newestFirst listing).imp_of_mem fun {s t} hs ht hst => ?_
  replace hs := hperm.mem_iff.1 hs
  replace ht := hperm.mem_iff.1 ht
  refine period_le hr (Moment.proper_of_valid (h.valid t ht))
    (Moment.proper_of_valid (h.valid s hs)) ?_ 0 0
  have hoffset := h.offset s hs t ht
  unfold Moment.instant at hst
  omega

/-! ### Which periods are counted -/

/-- What a calendar rule counts. -/
structure Counts (p : Policy) (r : Rule) (listing : List Snapshot) (result : Retention) : Prop where
  sublist : (keptFor p r listing).Sublist result.keep
  /-- With distinct identifiers, the rule stands among the reasons for what it keeps. -/
  reasons : (listing.map (·.id)).Nodup → ∀ s ∈ result.keep, s ∈ keptFor p r listing ↔
    ∃ why, (s.id, why) ∈ result.reasons ∧ .rule r ∈ why
  /-- No period is counted twice exactly if none comes back before the count is used up. -/
  nodup_iff : ((keptFor p r listing).map (periodOf r)).Nodup ↔
    UsedUpAtReturns (p.count r).amount ((newestFirst listing).map (periodOf r))
  /-- Then a count is used up by as many periods if another one is not counted. -/
  used_up : ((keptFor p r listing).map (periodOf r)).Nodup → 0 < (p.count r).amount →
    (∃ s ∈ listing, periodOf r s ∉ (keptFor p r listing).map (periodOf r)) →
    (((keptFor p r listing).map (periodOf r)).toFinset.card : Int) = (p.count r).amount
  /-- Under one clock no period is counted twice. -/
  one_clock : OneClock listing → ((keptFor p r listing).map (periodOf r)).Nodup

/-- **A calendar rule counts no period twice exactly if none comes back**, behind others in the
order from the newest to the oldest, before its count is used up. -/
theorem periods_counted_once_iff {p : Policy} (hp : p.HasTextTags) {r : Rule} (hr : r ≠ .last)
    (hcount : (p.count r).amount ≠ 0) (listing : List Snapshot) :
    ∃ result, select p listing = .ok result ∧ Counts p r listing result := by
  have huses : p.uses (.rule r) = true := decide_eq_true hcount
  have hperiods : (keptFor p r listing).map (periodOf r) = limited (p.count r).amount
      (runs ((newestFirst listing).map (periodOf r))) := by
    rw [keptFor_eq huses, map_periodOf_picked hr]
  refine ⟨_, select_eq hp listing, List.filter_sublist.map _, fun hids s hs => ?_, ?_, ?_, ?_⟩
  · exact mem_keptFor_iff hids hs
  · rw [hperiods, nodup_limited_runs_iff]
  · rw [hperiods]
    rintro hnodup hpos ⟨s, hs, hnot⟩
    rw [List.toFinset_card_of_nodup hnodup, length_limited hpos.le]
    by_contra hne
    refine hnot ?_
    rw [limited_of_le (by omega), mem_runs]
    exact List.mem_map_of_mem ((isNewestFirst_newestFirst listing).perm.mem_iff.2 hs)
  · intro hclock
    rw [hperiods, nodup_limited_runs_iff]
    exact usedUpAtReturns_of_descending (periods_descending hr hclock)

/-- Midnight has passed on the clock of one host and not on that of another, so that the third of
January comes back behind the second. -/
def acrossMidnight : List Snapshot :=
  [sample "a" 3 1 2 [], sample "b" 2 22 0 [], sample "c" 3 0 3 [], sample "d" 1 12 0 []]

lemma newestFirst_acrossMidnight : newestFirst acrossMidnight = acrossMidnight :=
  newestFirst_of_descending (by unfold Descending; decide)

/-- Two days are used up before the third of January comes back. -/
theorem periods_counted_once_two_days :
    let p : Policy := { Policy.empty with daily := .number 2 }
    p.HasTextTags ∧ Rule.daily ≠ .last ∧ (p.count .daily).amount ≠ 0 ∧
      ∃ result, select p acrossMidnight = .ok result ∧ Counts p .daily acrossMidnight result ∧
        UsedUpAtReturns 2 ((newestFirst acrossMidnight).map (periodOf .daily)) ∧
        (((keptFor p .daily acrossMidnight).map (periodOf .daily)).toFinset.card : Int) = 2 := by
  intro p
  have htags : p.HasTextTags := by simp [p, Policy.HasTextTags, Policy.empty]
  have hdaily : Rule.daily ≠ .last := by decide
  have hcount : (p.count .daily).amount ≠ 0 := by decide
  obtain ⟨result, hselect, hcounts⟩ := periods_counted_once_iff htags hdaily hcount acrossMidnight
  have hnodup : ((keptFor p .daily acrossMidnight).map (periodOf .daily)).Nodup := by
    rw [keptFor, newestFirst_acrossMidnight]
    decide
  refine ⟨htags, hdaily, hcount, result, hselect, hcounts, hcounts.nodup_iff.1 hnodup, ?_⟩
  refine hcounts.used_up hnodup (by decide) ⟨sample "d" 1 12 0 [], by simp [acrossMidnight], ?_⟩
  rw [keptFor, newestFirst_acrossMidnight]
  decide

/-- With a third day to count, the third of January is counted twice, and the first is removed. -/
theorem day_counted_twice :
    let p : Policy := { Policy.empty with daily := .number 3 }
    (p.HasTextTags ∧ ∃ result, select p acrossMidnight = .ok result ∧
        result.keep.map (·.id) = ["a", "b", "c"] ∧ result.removeIds = ["d"] ∧
        result.reasons = [("a", [.rule .daily]), ("b", [.rule .daily]), ("c", [.rule .daily])]) ∧
      (keptFor p .daily acrossMidnight).map (periodOf .daily) =
        [[2024, 1, 3], [2024, 1, 2], [2024, 1, 3]] ∧
      ¬((keptFor p .daily acrossMidnight).map (periodOf .daily)).Nodup := by
  intro p
  have htags : p.HasTextTags := by simp [p, Policy.HasTextTags, Policy.empty]
  have hkept : (keptFor p .daily acrossMidnight).map (periodOf .daily) =
      [[2024, 1, 3], [2024, 1, 2], [2024, 1, 3]] := by
    rw [keptFor, newestFirst_acrossMidnight]
    decide
  refine ⟨⟨htags, _, select_eq htags acrossMidnight, ?_, ?_, ?_⟩, hkept, ?_⟩
  · rw [newestFirst_acrossMidnight]
    decide
  · rw [newestFirst_acrossMidnight]
    decide
  · rw [newestFirst_acrossMidnight]
    decide
  · rw [hkept]
    decide

end BackupSteward.Retention
