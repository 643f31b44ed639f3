import Mathlib.Data.List.Forall2
import Mathlib.Tactic.Lemma

/-!
# Marks

Rules mark the snapshots of a list by a list of truth values.  Here is what becomes of a list,
and of the marks of a rule, when only the items with other marks are left.
-/

namespace BackupSteward

variable {α β : Type}

/-- The items of a list that are marked. -/
def picked : List α → List Bool → List α
  | x :: xs, true :: marks => x :: picked xs marks
  | _ :: xs, false :: marks => picked xs marks
  | _, _ => []

/-- The items of a list that are not marked. -/
def passedOver (xs : List α) (marks : List Bool) : List α := picked xs (marks.map not)

@[simp] lemma picked_nil (marks : List Bool) : picked ([] : List α) marks = [] := by
  simp [picked]

@[simp] lemma picked_cons_true (x : α) (xs : List α) (marks : List Bool) :
    picked (x :: xs) (true :: marks) = x :: picked xs marks := rfl

@[simp] lemma picked_cons_false (x : α) (xs : List α) (marks : List Bool) :
    picked (x :: xs) (false :: marks) = picked xs marks := rfl

lemma picked_sublist (xs : List α) (marks : List Bool) : (picked xs marks).Sublist xs := by
  fun_induction picked xs marks with
  | case1 x xs marks ih => exact ih.cons_cons x
  | case2 x xs marks ih => exact ih.cons x
  | case3 => exact List.nil_sublist _

/-- How many items are picked depends only on how many there are. -/
lemma length_picked_congr {xs : List α} {ys : List β} (h : xs.length = ys.length)
    (marks : List Bool) : (picked xs marks).length = (picked ys marks).length := by
  induction xs generalizing ys marks with
  | nil => simp [List.eq_nil_of_length_eq_zero h.symm]
  | cons x xs ih =>
    rcases ys with _ | ⟨y, ys⟩
    · simp at h
    rcases marks with _ | ⟨_ | _, marks⟩
    · rfl
    · exact ih (by simpa using h) marks
    · simpa using ih (by simpa using h) marks

lemma picked_map (f : α → β) (xs : List α) (marks : List Bool) :
    picked (xs.map f) marks = (picked xs marks).map f := by
  induction xs generalizing marks with
  | nil => simp
  | cons x xs ih =>
    rcases marks with _ | ⟨_ | _, marks⟩
    · rfl
    · simp [ih]
    · simp [ih]

lemma picked_append {xs : List α} {marks : List Bool} (h : marks.length = xs.length)
    (ys : List α) (more : List Bool) :
    picked (xs ++ ys) (marks ++ more) = picked xs marks ++ picked ys more := by
  induction xs generalizing marks with
  | nil => simp [List.eq_nil_of_length_eq_zero (by simpa using h)]
  | cons x xs ih =>
    rcases marks with _ | ⟨m, marks⟩
    · simp at h
    · have : picked (xs ++ ys) (marks ++ more) = picked xs marks ++ picked ys more :=
        ih (by simpa using h)
      cases m <;> simp [this]

/-- Where everything is marked, everything is picked. -/
@[simp] lemma picked_replicate_true (xs : List α) :
    picked xs (List.replicate xs.length true) = xs := by
  induction xs with
  | nil => rfl
  | cons x xs ih => simp [List.replicate_succ, ih]

/-- What is marked and what is not are all items. -/
lemma picked_append_passedOver_perm {xs : List α} {marks : List Bool}
    (h : marks.length = xs.length) : (picked xs marks ++ passedOver xs marks).Perm xs := by
  induction xs generalizing marks with
  | nil => simp [passedOver]
  | cons x xs ih =>
    rcases marks with _ | ⟨m, marks⟩
    · simp at h
    · have hperm : (picked xs marks ++ passedOver xs marks).Perm xs := ih (by simpa using h)
      cases m with
      | true => exact hperm.cons x
      | false => exact List.perm_middle.trans (hperm.cons x)

lemma head?_picked {xs : List α} {marks : List Bool} (h : marks[0]? = some true) :
    (picked xs marks).head? = xs.head? := by
  rcases marks with _ | ⟨m, marks⟩
  · simp at h
  · obtain rfl : m = true := by simpa using h
    cases xs <;> rfl

lemma picked_eq_nil_iff {xs : List α} {marks : List Bool} (h : marks.length = xs.length) :
    picked xs marks = [] ↔ ∀ i : Nat, marks[i]? ≠ some true := by
  induction xs generalizing marks with
  | nil => simp [List.eq_nil_of_length_eq_zero (by simpa using h)]
  | cons x xs ih =>
    obtain ⟨m, marks, rfl⟩ := List.exists_cons_of_length_eq_add_one h
    have ih : picked xs marks = [] ↔ ∀ i : Nat, marks[i]? ≠ some true := ih (by simpa using h)
    rw [← Nat.and_forall_add_one]
    cases m with
    | true => simp
    | false => simpa using ih

lemma mem_picked {xs : List α} {marks : List Bool} {x : α} :
    x ∈ picked xs marks ↔ ∃ i : Nat, xs[i]? = some x ∧ marks[i]? = some true := by
  induction xs generalizing marks with
  | nil => simp
  | cons y xs ih =>
    rcases marks with _ | ⟨m, marks⟩
    · simp [picked]
    · rw [← Nat.or_exists_add_one]
      cases m with
      | true => simp [ih, eq_comm]
      | false => simp [ih]

lemma mem_passedOver {xs : List α} {marks : List Bool} {x : α} :
    x ∈ passedOver xs marks ↔ ∃ i : Nat, xs[i]? = some x ∧ marks[i]? = some false := by
  simp [passedOver, mem_picked]

/-- In a list without repetitions, what is not picked out is passed over. -/
lemma passedOver_eq_filter [DecidableEq α] {xs : List α} (h : xs.Nodup) {marks : List Bool}
    (hlength : marks.length = xs.length) :
    passedOver xs marks = xs.filter fun x => x ∉ picked xs marks := by
  induction xs generalizing marks with
  | nil => simp [passedOver]
  | cons x xs ih =>
    obtain ⟨m, marks, rfl⟩ := List.exists_cons_of_length_eq_add_one hlength
    obtain ⟨hx, hxs⟩ := List.nodup_cons.1 h
    have hne : ∀ y ∈ xs, y ≠ x := fun y hy => by rintro rfl; exact hx hy
    have ih := ih hxs (by simpa using hlength)
    cases m with
    | true =>
      have : passedOver (x :: xs) (true :: marks) = passedOver xs marks := by simp [passedOver]
      rw [this, ih, picked_cons_true, List.filter_cons_of_neg (by simp)]
      exact List.filter_congr fun y hy => by simp [hne y hy]
    | false =>
      have hnot : x ∉ picked xs marks := fun hmem => hx ((picked_sublist xs marks).subset hmem)
      have : passedOver (x :: xs) (false :: marks) = x :: passedOver xs marks := by
        simp [passedOver]
      rw [this, ih, picked_cons_false, List.filter_cons_of_pos (by simpa using hnot)]

/-- The marks of one list are among those of another. -/
def Covered (marks cover : List Bool) : Prop :=
  List.Forall₂ (fun m c => m = true → c = true) marks cover

lemma Covered.length_eq {marks cover : List Bool} (h : Covered marks cover) :
    marks.length = cover.length := List.Forall₂.length_eq h

lemma covered_cons {m c : Bool} {marks cover : List Bool} :
    Covered (m :: marks) (c :: cover) ↔ (m = true → c = true) ∧ Covered marks cover :=
  List.forall₂_cons

lemma Covered.append {marks more cover further : List Bool} (h : Covered marks cover)
    (h' : Covered more further) : Covered (marks ++ more) (cover ++ further) :=
  List.rel_append h h'

lemma covered_replicate_true (marks : List Bool) :
    Covered marks (List.replicate marks.length true) := by
  induction marks with
  | nil => exact .nil
  | cons m marks ih => exact covered_cons.2 ⟨fun _ => rfl, ih⟩

/-- More marks pick more. -/
lemma Covered.picked_sublist {marks cover : List Bool} (h : Covered marks cover) (xs : List α) :
    (picked xs marks).Sublist (picked xs cover) := by
  induction h generalizing xs with
  | nil => cases xs <;> exact List.Sublist.refl _
  | @cons m c marks cover hmc _ ih =>
    rcases xs with _ | ⟨x, xs⟩
    · simp
    · match m, c with
      | true, true => exact (ih xs).cons_cons x
      | true, false => exact absurd (hmc rfl) (by simp)
      | false, true => exact (ih xs).cons x
      | false, false => exact ih xs

/-- More marks pass over less. -/
lemma Covered.passedOver_sublist {marks cover : List Bool} (h : Covered marks cover)
    (xs : List α) : (passedOver xs cover).Sublist (passedOver xs marks) := by
  refine Covered.picked_sublist ?_ xs
  induction h with
  | nil => exact .nil
  | cons hmc _ ih =>
    rw [List.map_cons, List.map_cons, covered_cons]
    exact ⟨by simpa using mt hmc, ih⟩

/-- Marks are covered if they are at each place. -/
lemma covered_iff {marks cover : List Bool} :
    Covered marks cover ↔ marks.length = cover.length ∧
      ∀ i : Nat, marks[i]? = some true → cover[i]? = some true := by
  induction marks generalizing cover with
  | nil => cases cover <;> simp [Covered]
  | cons m marks ih =>
    cases cover with
    | nil => simp [Covered]
    | cons c cover =>
      rw [covered_cons, ih]
      constructor
      · rintro ⟨h, hlen, hi⟩
        refine ⟨by simpa using hlen, fun i => ?_⟩
        cases i with
        | zero => simpa using h
        | succ i => simpa using hi i
      · rintro ⟨hlen, hi⟩
        exact ⟨by simpa using hi 0, by simpa using hlen, fun i => by simpa using hi (i + 1)⟩

/-- Marks are determined by the places they mark. -/
lemma marks_ext {marks more : List Bool} (hlength : marks.length = more.length)
    (h : ∀ i : Nat, marks[i]? = some true ↔ more[i]? = some true) : marks = more := by
  refine List.ext_getElem hlength fun i hi hi' => ?_
  have := h i
  rw [List.getElem?_eq_getElem hi, List.getElem?_eq_getElem hi'] at this
  simpa using Bool.eq_iff_iff.2 (by simpa using this)

end BackupSteward
