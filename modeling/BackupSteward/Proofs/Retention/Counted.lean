import BackupSteward.Proofs.Retention.Marks
import BackupSteward.Retention.Select
import Mathlib.Data.List.Nodup
import Mathlib.Algebra.Order.Ring.Int

/-!
# Counted rules

What a counted rule marks depends only on the periods of the snapshots, and of these only on
where a period differs from the one before.  Main statement: a rule marks the same snapshots
after those have been left out that neither it nor any other rule marks, even when it starts on
them further ahead, because newer snapshots have come in front.
-/

namespace BackupSteward.Retention

/-- The periods of some snapshots under a rule; `place` counts the snapshots before them. -/
def periods (r : Rule) : (place : Nat) → List Snapshot → List (List Nat)
  | _, [] => []
  | place, s :: rest => period r place s.time :: periods r (place + 1) rest

/-- What is left of a count behind a marked snapshot. -/
def lessOne (left : Int) : Int := if 0 < left then left - 1 else left

/-- What a rule marks in a list of periods, given what is left of its count and the period it
marked last. -/
def scan : (left : Int) → (last : Option (List Nat)) → List (List Nat) → List Bool
  | _, _, [] => []
  | left, last, p :: ps =>
    if left = 0 ∨ last = some p then false :: scan left last ps
    else true :: scan (lessOne left) (some p) ps

/-- The count that is left and the period marked last behind a list of periods. -/
def scanEnd : (left : Int) → (last : Option (List Nat)) → List (List Nat) →
    Int × Option (List Nat)
  | left, last, [] => (left, last)
  | left, last, p :: ps =>
    if left = 0 ∨ last = some p then scanEnd left last ps
    else scanEnd (lessOne left) (some p) ps

lemma marksFrom_eq_scan (r : Rule) (snapshots : List Snapshot) (place : Nat) (left : Int)
    (last : Option (List Nat)) :
    marksFrom r place left last snapshots = scan left last (periods r place snapshots) := by
  induction snapshots generalizing place left last with
  | nil => rfl
  | cons s rest ih =>
    simp only [marksFrom, periods, scan, lessOne, ih]
    by_cases hleft : left = 0
    · simp [hleft]
    · by_cases hlast : last = some (period r place s.time) <;> simp [hleft, hlast]

/-- At a period marked last, and once the count is used up, nothing is marked. -/
lemma scan_skip {left : Int} {last : Option (List Nat)} {p : List Nat}
    (h : left = 0 ∨ last = some p) {ps : List (List Nat)} :
    scan left last (p :: ps) = false :: scan left last ps := if_pos h

/-- At any other period the snapshot is marked. -/
lemma scan_mark {left : Int} {last : Option (List Nat)} {p : List Nat}
    (h : ¬(left = 0 ∨ last = some p)) {ps : List (List Nat)} :
    scan left last (p :: ps) = true :: scan (lessOne left) (some p) ps := if_neg h

/-- Of two items of one period, one right behind the other, the second is not marked. -/
lemma scan_behind {left : Int} {last : Option (List Nat)} {ps : List (List Nat)} {i : Nat}
    {p : List Nat} (h : ps[i]? = some p) (h' : ps[i + 1]? = some p) :
    (scan left last ps)[i + 1]? ≠ some true := by
  induction ps generalizing left last i with
  | nil => simp at h
  | cons q ps ih =>
    rcases i with _ | i
    · obtain rfl : q = p := by simpa using h
      obtain ⟨ps, rfl⟩ : ∃ rest, ps = q :: rest := by
        rcases ps with _ | ⟨r, rest⟩
        · simp at h'
        · exact ⟨rest, by simpa using h'⟩
      by_cases hskip : left = 0 ∨ last = some q
      · simp [scan_skip hskip]
      · simp [scan_mark hskip, scan_skip (.inr rfl)]
    · by_cases hskip : left = 0 ∨ last = some q
      · rw [scan_skip hskip]
        exact ih h h'
      · rw [scan_mark hskip]
        exact ih h h'

/-! ### Periods -/

@[simp] lemma length_periods (r : Rule) (place : Nat) (snapshots : List Snapshot) :
    (periods r place snapshots).length = snapshots.length := by
  induction snapshots generalizing place with
  | nil => rfl
  | cons s rest ih => simp [periods, ih]

lemma periods_append (r : Rule) (place : Nat) (front back : List Snapshot) :
    periods r place (front ++ back) =
      periods r place front ++ periods r (place + front.length) back := by
  induction front generalizing place with
  | nil => simp [periods]
  | cons s front ih => simp [periods, ih, Nat.add_comm, Nat.add_left_comm]

/-- For all rules but `last` the period is that of the snapshot alone. -/
lemma periods_eq_map {r : Rule} (hr : r ≠ .last) (place : Nat) (snapshots : List Snapshot) :
    periods r place snapshots = snapshots.map fun s => period r 0 s.time := by
  induction snapshots generalizing place with
  | nil => rfl
  | cons s rest ih =>
    have hperiod : period r place s.time = period r 0 s.time := by
      cases r with
      | last => exact absurd rfl hr
      | hourly | daily | weekly | monthly | yearly => rfl
    simp [periods, ih, hperiod]

/-- For `last` each snapshot is a period of its own, numbered by its place. -/
lemma mem_periods_last {place : Nat} {snapshots : List Snapshot} {p : List Nat}
    (h : p ∈ periods .last place snapshots) :
    ∃ n, place ≤ n ∧ n < place + snapshots.length ∧ p = [n] := by
  induction snapshots generalizing place with
  | nil => simp [periods] at h
  | cons s rest ih =>
    rw [List.length_cons]
    rcases List.mem_cons.1 h with rfl | h
    · exact ⟨place, Nat.le_refl _, by omega, rfl⟩
    · obtain ⟨n, hle, hlt, rfl⟩ := ih h
      exact ⟨n, by omega, by omega, rfl⟩

lemma nodup_periods_last (place : Nat) (snapshots : List Snapshot) :
    (periods .last place snapshots).Nodup := by
  induction snapshots generalizing place with
  | nil => exact List.nodup_nil
  | cons s rest ih =>
    refine List.nodup_cons.2 ⟨fun h => ?_, ih (place + 1)⟩
    obtain ⟨n, hle, -, heq⟩ := mem_periods_last h
    simp only [period, List.cons.injEq, and_true] at heq
    omega

/-! ### Scans -/

@[simp] lemma length_scan (left : Int) (last : Option (List Nat)) (ps : List (List Nat)) :
    (scan left last ps).length = ps.length := by
  induction ps generalizing left last with
  | nil => rfl
  | cons p ps ih =>
    rw [scan]
    split <;> simp [ih]

lemma scan_append (left : Int) (last : Option (List Nat)) (front back : List (List Nat)) :
    scan left last (front ++ back) = scan left last front ++
      scan (scanEnd left last front).1 (scanEnd left last front).2 back := by
  induction front generalizing left last with
  | nil => rfl
  | cons p front ih =>
    simp only [List.cons_append, scan, scanEnd]
    split <;> simp [ih]

/-- The marks of a rule on snapshots that all differ in their periods. -/
def countdown : (left : Int) → (count : Nat) → List Bool
  | _, 0 => []
  | left, n + 1 => decide (left ≠ 0) :: countdown (lessOne left) n

lemma scan_of_fresh {left : Int} {last : Option (List Nat)} {ps : List (List Nat)}
    (hnodup : ps.Nodup) (hlast : ∀ p ∈ ps, last ≠ some p) :
    scan left last ps = countdown left ps.length := by
  induction ps generalizing left last with
  | nil => rfl
  | cons p ps ih =>
    obtain ⟨hp, hnodup⟩ := List.nodup_cons.1 hnodup
    have hfresh : ∀ q ∈ ps, some p ≠ some q := by
      rintro q hq heq
      exact hp (Option.some.inj heq ▸ hq)
    by_cases hleft : left = 0
    · have : scan left last ps = countdown left ps.length :=
        ih hnodup fun q hq => hlast q (by simp [hq])
      simp [scan, countdown, hleft, lessOne] at this ⊢
      exact this
    · have hne : last ≠ some p := hlast p (by simp)
      simp [scan, countdown, hleft, hne, ih hnodup hfresh]

/-! ### A rule that is ahead -/

/-- A rule in the state `(a, la)` and one in the state `(b, lb)` that has as much or less of its
count left: it has used it up, it stands at the same period, or the other has marked nothing
yet. -/
inductive Ahead : (a : Int) → (la : Option (List Nat)) → (b : Int) → (lb : Option (List Nat)) →
    Prop where
  | done {a : Int} {la lb : Option (List Nat)} : Ahead a la 0 lb
  | level {a b : Int} {l : Option (List Nat)} (h : a < 0 ∧ b < 0 ∨ 0 < b ∧ b ≤ a) :
      Ahead a l b l
  | behind {a b : Int} {lb : Option (List Nat)} (h : a < 0 ∧ b < 0 ∨ 0 < b ∧ b < a) :
      Ahead a none b lb

/-- Both rules have marked the same snapshot. -/
lemma ahead_lessOne {a b : Int} (h : a < 0 ∧ b < 0 ∨ 0 < b ∧ b ≤ a) (l : Option (List Nat)) :
    Ahead (lessOne a) l (lessOne b) l := by
  unfold lessOne
  by_cases hb : b = 1
  · subst hb
    rw [if_pos (by omega : (0 : Int) < 1)]
    exact .done
  · refine .level ?_
    split <;> split <;> omega

/-- A count that is limited never grows and never falls below zero; one without limit stays
so. -/
lemma scanEnd_bounds (left : Int) (last : Option (List Nat)) (ps : List (List Nat)) :
    (left < 0 → (scanEnd left last ps).1 < 0) ∧
      (0 ≤ left → 0 ≤ (scanEnd left last ps).1 ∧ (scanEnd left last ps).1 ≤ left) := by
  induction ps generalizing left last with
  | nil => simp [scanEnd]
  | cons p ps ih =>
    rw [scanEnd]
    split
    · exact ih left last
    · obtain ⟨hneg, hpos⟩ := ih (lessOne left) (some p)
      refine ⟨fun h => hneg ?_, fun h => ?_⟩
      · unfold lessOne
        split <;> omega
      · have hless : 0 ≤ lessOne left ∧ lessOne left ≤ left := by
          unfold lessOne
          split <;> omega
        have := hpos hless.1
        omega

/-- Where a rule starts on what is left of some snapshots: at the beginning, or behind a newer
one that it has marked. -/
lemma ahead_scanEnd (count : Int) (ps : List (List Nat)) :
    Ahead count none (scanEnd count none ps).1 (scanEnd count none ps).2 := by
  by_cases hzero : count = 0
  · have := (scanEnd_bounds count none ps).2 (by omega)
    rw [show (scanEnd count none ps).1 = 0 by omega]
    exact .done
  rcases ps with _ | ⟨p, ps⟩
  · exact .level (by simp only [scanEnd]; omega)
  · have hend : scanEnd count none (p :: ps) = scanEnd (lessOne count) (some p) ps := by
      rw [scanEnd, if_neg (by simp [hzero])]
    rw [hend]
    obtain ⟨hneg, hpos⟩ := scanEnd_bounds (lessOne count) (some p) ps
    by_cases hend : (scanEnd (lessOne count) (some p) ps).1 = 0
    · rw [hend]
      exact .done
    · refine .behind ?_
      unfold lessOne at hneg hpos hend ⊢
      split at hneg <;> rename_i hcount
      · rw [if_pos hcount] at hpos hend ⊢
        have := hpos (by omega)
        omega
      · rw [if_neg hcount] at hpos hend ⊢
        have := hneg (by omega)
        omega

/-- A step at which nothing is marked, whether its snapshot is left or not. -/
lemma scan_picked_skip {b : Int} {lb : Option (List Nat)} {p : List Nat} {ps : List (List Nat)}
    {cover : List Bool} (hb : b = 0 ∨ lb = some p) (c : Bool)
    (h : scan b lb (picked ps cover) = picked (scan b lb ps) cover) :
    scan b lb (picked (p :: ps) (c :: cover)) = picked (scan b lb (p :: ps)) (c :: cover) := by
  rw [scan_skip hb]
  cases c with
  | false => exact h
  | true => rw [picked_cons_true, picked_cons_true, scan_skip hb, h]

/-- A step at which a snapshot is marked that is left. -/
lemma scan_picked_mark {b : Int} {lb : Option (List Nat)} {p : List Nat} {ps : List (List Nat)}
    {cover : List Bool} (hb : ¬(b = 0 ∨ lb = some p))
    (h : scan (lessOne b) (some p) (picked ps cover) =
      picked (scan (lessOne b) (some p) ps) cover) :
    scan b lb (picked (p :: ps) (true :: cover)) =
      picked (scan b lb (p :: ps)) (true :: cover) := by
  rw [scan_mark hb, picked_cons_true, picked_cons_true, scan_mark hb, h]

/-- **A rule that is ahead marks the same after others were left out.**  The snapshots that are
left include all that the rule marks when it is not ahead, so those left out before it runs out
of its count all belong to the period of the snapshot in front of them. -/
theorem scan_picked {a b : Int} {la lb : Option (List Nat)} (h : Ahead a la b lb)
    {ps : List (List Nat)} {cover : List Bool} (hcover : Covered (scan a la ps) cover) :
    scan b lb (picked ps cover) = picked (scan b lb ps) cover ∧ Covered (scan b lb ps) cover := by
  induction ps generalizing a la b lb cover with
  | nil =>
    cases hcover
    exact ⟨rfl, .nil⟩
  | cons p ps ih =>
    rcases cover with _ | ⟨c, cover⟩
    · exact absurd hcover.length_eq (by simp)
    by_cases ha : a = 0 ∨ la = some p
    · -- the rule that is not ahead marks nothing here, so the other does not either
      have hb : b = 0 ∨ lb = some p := by
        cases h with
        | done => exact .inl rfl
        | level hab => exact ha.imp (fun h => by omega) id
        | behind hab => exact absurd ha (by simp; omega)
      rw [scan_skip ha] at hcover
      obtain ⟨heq, hcov⟩ := ih h (covered_cons.1 hcover).2
      exact ⟨scan_picked_skip hb c heq, by rw [scan_skip hb]; exact covered_cons.2 ⟨by simp, hcov⟩⟩
    · rw [scan_mark ha] at hcover
      obtain ⟨hc, hrest⟩ := covered_cons.1 hcover
      obtain rfl : c = true := hc rfl
      by_cases hb : b = 0 ∨ lb = some p
      · -- the period is the one that the rule ahead has marked before
        have hahead : Ahead (lessOne a) (some p) b lb := by
          rcases hb with rfl | rfl
          · exact .done
          · cases h with
            | done => exact .done
            | level hab => exact absurd (.inr rfl) ha
            | behind hab => exact .level (by unfold lessOne; split <;> omega)
        obtain ⟨heq, hcov⟩ := ih hahead hrest
        exact ⟨scan_picked_skip hb true heq,
          by rw [scan_skip hb]; exact covered_cons.2 ⟨by simp, hcov⟩⟩
      · -- both mark this one, and stand at the same period afterwards
        have hahead : Ahead (lessOne a) (some p) (lessOne b) (some p) := by
          cases h with
          | done => exact absurd (.inl rfl) hb
          | level hab => exact ahead_lessOne hab _
          | behind hab => exact ahead_lessOne (by omega) _
        obtain ⟨heq, hcov⟩ := ih hahead hrest
        exact ⟨scan_picked_mark hb heq,
          by rw [scan_mark hb]; exact covered_cons.2 ⟨fun _ => rfl, hcov⟩⟩

/-! ### The marks of a rule -/

lemma marks_eq_scan (r : Rule) (count : Int) (ordered : List Snapshot) :
    marks r count ordered = scan count none (periods r 0 ordered) :=
  marksFrom_eq_scan r ordered 0 count none

@[simp] lemma length_marks (r : Rule) (count : Int) (ordered : List Snapshot) :
    (marks r count ordered).length = ordered.length := by simp [marks_eq_scan]

/-- The period marked last is one of those scanned. -/
lemma scanEnd_last {left : Int} {last : Option (List Nat)} {ps : List (List Nat)} {q : List Nat}
    (h : (scanEnd left last ps).2 = some q) : last = some q ∨ q ∈ ps := by
  induction ps generalizing left last with
  | nil => exact .inl h
  | cons p ps ih =>
    rw [scanEnd] at h
    split at h
    · exact (ih h).imp id (List.mem_cons_of_mem p)
    · rcases ih h with heq | hmem
      · exact .inr (by simp [Option.some.inj heq])
      · exact .inr (List.mem_cons_of_mem p hmem)

/-- Behind some snapshots it does not matter that those left are numbered anew. -/
lemma scan_periods_picked (r : Rule) (count : Int) (front back : List Snapshot)
    (cover : List Bool) :
    let state := scanEnd count none (periods r 0 front)
    scan state.1 state.2 (periods r front.length (picked back cover)) =
      scan state.1 state.2 (picked (periods r front.length back) cover) := by
  intro state
  by_cases hr : r = .last
  -- the numbers change, but under either numbering all periods differ
  · subst hr
    have fresh {snapshots : List Snapshot} :
        ∀ p ∈ periods .last front.length snapshots, state.2 ≠ some p := by
      rintro p hp heq
      obtain ⟨n, hn, -, rfl⟩ := mem_periods_last hp
      rcases scanEnd_last heq with hnone | hmem
      · exact absurd hnone (by simp)
      · obtain ⟨k, -, hk, heq⟩ := mem_periods_last hmem
        simp only [List.cons.injEq, and_true] at heq
        omega
    have hsub := picked_sublist (periods .last front.length back) cover
    rw [scan_of_fresh (nodup_periods_last _ _) fresh,
      scan_of_fresh (hsub.nodup (nodup_periods_last _ _)) fun p hp => fresh p (hsub.subset hp),
      length_periods, length_picked_congr (length_periods _ _ _)]
  · rw [periods_eq_map hr, periods_eq_map hr, picked_map]

/-- What a rule marks behind the beginning does not depend on where the beginning is. -/
lemma scan_periods_place (r : Rule) (count : Int) (place : Nat) (snapshots : List Snapshot) :
    scan count none (periods r place snapshots) = marks r count snapshots := by
  rw [marks_eq_scan]
  by_cases hr : r = .last
  · subst hr
    rw [scan_of_fresh (nodup_periods_last _ _) (by simp),
      scan_of_fresh (nodup_periods_last _ _) (by simp), length_periods, length_periods]
  · rw [periods_eq_map hr, periods_eq_map hr]

/-- **A counted rule does not notice that older snapshots were left out** among which it would
mark none. -/
theorem marks_picked (r : Rule) (count : Int) (new : List Snapshot) {old : List Snapshot}
    {cover : List Bool} (hcover : Covered (marks r count old) cover) :
    marks r count (new ++ picked old cover) =
        picked (marks r count (new ++ old)) (List.replicate new.length true ++ cover) ∧
      Covered (marks r count (new ++ old)) (List.replicate new.length true ++ cover) := by
  let state := scanEnd count none (periods r 0 new)
  rw [← scan_periods_place r count new.length] at hcover
  obtain ⟨heq, hcov⟩ := scan_picked (ahead_scanEnd count (periods r 0 new)) hcover
  have hsplit (back : List Snapshot) : marks r count (new ++ back) =
      marks r count new ++ scan state.1 state.2 (periods r new.length back) := by
    rw [marks_eq_scan, periods_append, scan_append, marks_eq_scan, Nat.zero_add]
  have hlength : (marks r count new).length = new.length := length_marks ..
  have hall : picked (marks r count new) (List.replicate new.length true) = marks r count new := by
    rw [← hlength, picked_replicate_true]
  refine ⟨?_, ?_⟩
  · rw [hsplit, hsplit, scan_periods_picked, heq, picked_append (by simp), hall]
  · have := (covered_replicate_true (marks r count new)).append hcov
    rwa [hlength, ← hsplit] at this

end BackupSteward.Retention
