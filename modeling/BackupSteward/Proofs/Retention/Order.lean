import BackupSteward.Proofs.Interleaving
import BackupSteward.Retention.Select
import Mathlib.Data.List.Sort

/-!
# The order from the newest to the oldest

The order is determined by what it is for: instants descend, and snapshots of one instant stand
as they were listed.  What is newer than a whole listing therefore comes in front of it, however
the two were listed together.
-/

namespace BackupSteward.Retention

/-- The snapshots of an instant, in their order. -/
def atInstant (t : Int) (snapshots : List Snapshot) : List Snapshot :=
  snapshots.filter fun s => s.time.instant = t

/-- From the newest to the oldest. -/
def Descending (snapshots : List Snapshot) : Prop :=
  snapshots.Pairwise fun a b => b.time.instant ≤ a.time.instant

instance (snapshots : List Snapshot) : Decidable (Descending snapshots) :=
  inferInstanceAs (Decidable (snapshots.Pairwise fun a b => b.time.instant ≤ a.time.instant))

/-- The snapshots of a listing from the newest to the oldest; equal instants keep the order of
the listing. -/
structure IsNewestFirst (listing ordered : List Snapshot) : Prop where
  perm : ordered.Perm listing
  descending : Descending ordered
  ties : ∀ t, atInstant t ordered = atInstant t listing

lemma atInstant_cons (t : Int) (s : Snapshot) (rest : List Snapshot) :
    atInstant t (s :: rest) = if s.time.instant = t then s :: atInstant t rest
      else atInstant t rest := by
  by_cases h : s.time.instant = t <;> simp [atInstant, h]

lemma atInstant_append (t : Int) (front back : List Snapshot) :
    atInstant t (front ++ back) = atInstant t front ++ atInstant t back := List.filter_append ..

lemma mem_atInstant {t : Int} {s : Snapshot} {snapshots : List Snapshot} :
    s ∈ atInstant t snapshots ↔ s ∈ snapshots ∧ s.time.instant = t := by simp [atInstant]

/-- A descending list is determined by its snapshots of each instant. -/
lemma Descending.ext {xs ys : List Snapshot} (hx : Descending xs) (hy : Descending ys)
    (h : ∀ t, atInstant t xs = atInstant t ys) : xs = ys := by
  have mem_iff (s : Snapshot) : s ∈ xs ↔ s ∈ ys := by
    have := congrArg (s ∈ ·) (h s.time.instant)
    simpa [mem_atInstant] using this
  induction xs generalizing ys with
  | nil => exact (List.eq_nil_iff_forall_not_mem.2 fun s hs => by simpa using (mem_iff s).2 hs).symm
  | cons x xs ih =>
    cases ys with
    | nil => exact absurd ((mem_iff x).1 (by simp)) (by simp)
    | cons y ys =>
      obtain ⟨hx₁, hx₂⟩ := List.pairwise_cons.1 hx
      obtain ⟨hy₁, hy₂⟩ := List.pairwise_cons.1 hy
      -- both heads have the latest instant of all
      have hle : x.time.instant ≤ y.time.instant := by
        rcases List.mem_cons.1 ((mem_iff x).1 (by simp)) with rfl | hm
        · exact le_rfl
        · exact hy₁ x hm
      have hge : y.time.instant ≤ x.time.instant := by
        rcases List.mem_cons.1 ((mem_iff y).2 (by simp)) with rfl | hm
        · exact le_rfl
        · exact hx₁ y hm
      have heq : x.time.instant = y.time.instant := le_antisymm hle hge
      have hhead : x = y := by
        have := h x.time.instant
        rw [atInstant_cons, atInstant_cons, if_pos rfl, if_pos heq.symm] at this
        exact (List.cons.inj this).1
      subst hhead
      have htail : ∀ t, atInstant t xs = atInstant t ys := by
        intro t
        have := h t
        rw [atInstant_cons, atInstant_cons] at this
        by_cases ht : x.time.instant = t
        · rw [if_pos ht, if_pos ht] at this
          exact (List.cons.inj this).2
        · rwa [if_neg ht, if_neg ht] at this
      rw [ih hx₂ hy₂ htail fun s => by
        have := congrArg (s ∈ ·) (htail s.time.instant)
        simpa [mem_atInstant] using this]

theorem IsNewestFirst.unique {listing xs ys : List Snapshot} (hx : IsNewestFirst listing xs)
    (hy : IsNewestFirst listing ys) : xs = ys :=
  hx.descending.ext hy.descending fun t => (hx.ties t).trans (hy.ties t).symm

/-! ### The sorted listing -/

/-- The order in which snapshots are sorted. -/
def notOlder (a b : Snapshot) : Bool := b.time.instant ≤ a.time.instant

lemma notOlder_trans (a b c : Snapshot) (hab : notOlder a b = true) (hbc : notOlder b c = true) :
    notOlder a c = true := by
  simp only [notOlder, decide_eq_true_eq] at *
  exact hbc.trans hab

lemma notOlder_total (a b : Snapshot) : (notOlder a b || notOlder b a) = true := by
  simp only [notOlder, Bool.or_eq_true, decide_eq_true_eq]
  exact le_total _ _

lemma newestFirst_eq (listing : List Snapshot) :
    newestFirst listing = listing.mergeSort notOlder := rfl

lemma descending_newestFirst (listing : List Snapshot) : Descending (newestFirst listing) := by
  have := List.pairwise_mergeSort notOlder_trans notOlder_total listing
  exact this.imp fun h => by simpa [notOlder] using h

/-- Sorting is stable: snapshots of one instant are already sorted, so they stay a sublist, and
no other has their instant. -/
lemma atInstant_newestFirst (t : Int) (listing : List Snapshot) :
    atInstant t (newestFirst listing) = atInstant t listing := by
  have hsorted : (atInstant t listing).Pairwise fun a b => notOlder a b = true := by
    refine List.pairwise_of_forall_mem_list fun a ha b hb => ?_
    simp [notOlder, (mem_atInstant.1 ha).2, (mem_atInstant.1 hb).2]
  have hsub : (atInstant t listing).Sublist (atInstant t (newestFirst listing)) := by
    have := (List.sublist_mergeSort notOlder_trans notOlder_total hsorted
      List.filter_sublist).filter fun s => decide (s.time.instant = t)
    simpa [atInstant, List.filter_filter, newestFirst_eq] using this
  refine (hsub.eq_of_length ?_).symm
  exact ((List.mergeSort_perm listing notOlder).filter _).length_eq.symm

theorem isNewestFirst_newestFirst (listing : List Snapshot) :
    IsNewestFirst listing (newestFirst listing) where
  perm := List.mergeSort_perm _ _
  descending := descending_newestFirst listing
  ties t := atInstant_newestFirst t listing

/-- A descending list is left as it is. -/
lemma newestFirst_of_descending {xs : List Snapshot} (h : Descending xs) : newestFirst xs = xs :=
  (isNewestFirst_newestFirst xs).unique ⟨.refl _, h, fun _ => rfl⟩

/-! ### Within a duration of the newest -/

/-- Whether a snapshot is within a duration of a newer one. -/
def isWithin (d : Duration) (newest s : Snapshot) : Bool :=
  newest.time.instant - s.time.instant ≤ d.micros

lemma withinMarks_cons (d : Duration) (newest : Snapshot) (rest : List Snapshot) :
    withinMarks d (newest :: rest) = (newest :: rest).map (isWithin d newest) := rfl

lemma getElem?_withinMarks {d : Duration} {ordered : List Snapshot} {i : Nat} :
    (withinMarks d ordered)[i]? = some true ↔ ∃ newest s, ordered.head? = some newest ∧
      ordered[i]? = some s ∧ newest.time.instant - s.time.instant ≤ d.micros := by
  rcases ordered with _ | ⟨newest, rest⟩
  · simp [withinMarks]
  · rw [withinMarks_cons, List.getElem?_map, Option.map_eq_some_iff]
    simp [isWithin]

/-- Nothing is newer than the first of a descending list. -/
lemma Descending.instant_le {ordered : List Snapshot} (h : Descending ordered) {newest s : Snapshot}
    (hnewest : ordered.head? = some newest) (hs : s ∈ ordered) :
    s.time.instant ≤ newest.time.instant := by
  obtain ⟨rest, rfl⟩ := List.head?_eq_some_iff.1 hnewest
  rcases List.mem_cons.1 hs with rfl | hs
  · exact le_rfl
  · exact (List.pairwise_cons.1 h).1 s hs

/-- Nothing is within a negative duration of the newest snapshot. -/
lemma withinMarks_of_neg {d : Duration} (hd : d.micros < 0) {xs : List Snapshot}
    (h : Descending xs) : withinMarks d xs = xs.map fun _ => false := by
  rcases xs with _ | ⟨x, xs⟩
  · rfl
  · refine List.map_congr_left fun s hs => decide_eq_false ?_
    rcases List.mem_cons.1 hs with rfl | hs
    · omega
    · have := (List.pairwise_cons.1 h).1 s hs
      omega

/-! ### A listing and what is newer -/

/-- The snapshots of one list are newer than all of another. -/
def Newer (new old : List Snapshot) : Prop :=
  ∀ n ∈ new, ∀ o ∈ old, o.time.instant < n.time.instant

/-- Newer snapshots come in front, each part in its own order. -/
theorem newestFirst_interleaving {old new both : List Snapshot} (hnewer : Newer new old)
    (h : Interleaving old new both) :
    newestFirst both = newestFirst new ++ newestFirst old := by
  have hnew := isNewestFirst_newestFirst new
  have hold := isNewestFirst_newestFirst old
  refine (isNewestFirst_newestFirst both).unique ⟨?_, ?_, fun t => ?_⟩
  · exact ((hnew.perm.append hold.perm).trans List.perm_append_comm).trans h.perm.symm
  · refine List.pairwise_append.2 ⟨hnew.descending, hold.descending, fun n hn o ho => ?_⟩
    exact (hnewer n (hnew.perm.mem_iff.1 hn) o (hold.perm.mem_iff.1 ho)).le
  · rw [atInstant_append, hnew.ties, hold.ties]
    have hfilter := h.filter fun s => decide (s.time.instant = t)
    change Interleaving (atInstant t old) (atInstant t new) (atInstant t both) at hfilter
    -- an instant occurs in one of the two parts only
    rcases hemp : atInstant t new with _ | ⟨n, ns⟩
    · rw [hemp] at hfilter
      rw [hfilter.eq_of_nil_right, List.nil_append]
    · have hn : n ∈ new ∧ n.time.instant = t := mem_atInstant.1 (by simp [hemp])
      have hnil : atInstant t old = [] := by
        refine List.eq_nil_iff_forall_not_mem.2 fun o ho => ?_
        have := hnewer n hn.1 o (mem_atInstant.1 ho).1
        rw [hn.2, (mem_atInstant.1 ho).2] at this
        exact absurd this (lt_irrefl _)
      rw [hnil] at hfilter ⊢
      rw [hfilter.eq_of_nil_left, hemp, List.append_nil]

end BackupSteward.Retention
