import Mathlib.Data.List.Perm.Basic
import Mathlib.Tactic.Lemma

/-!
# Interleavings

Two lists are merged into one that keeps the order of each: what a listing makes of older and
newer snapshots, and what a consumer sees of two pipes.
-/

namespace BackupSteward

variable {α : Type}

/-- `Interleaving xs ys zs`: the items of `zs` are those of `xs` and of `ys`, both in their own
order. -/
inductive Interleaving : (xs ys zs : List α) → Prop where
  | done : Interleaving [] [] []
  | first {xs ys zs : List α} (x : α) (h : Interleaving xs ys zs) :
      Interleaving (x :: xs) ys (x :: zs)
  | second {xs ys zs : List α} (y : α) (h : Interleaving xs ys zs) :
      Interleaving xs (y :: ys) (y :: zs)

namespace Interleaving

variable {xs ys zs : List α}

lemma perm (h : Interleaving xs ys zs) : zs.Perm (xs ++ ys) := by
  induction h with
  | done => exact .refl _
  | first x _ ih => exact ih.cons x
  | second y _ ih => exact (ih.cons y).trans List.perm_middle.symm

/-- Mapping some items and leaving out the others does the same to both lists. -/
lemma filterMap {β : Type} (f : α → Option β) (h : Interleaving xs ys zs) :
    Interleaving (xs.filterMap f) (ys.filterMap f) (zs.filterMap f) := by
  induction h with
  | done => exact .done
  | first x _ ih =>
    cases hx : f x with
    | none => simpa [hx] using ih
    | some b => simpa [hx] using ih.first b
  | second y _ ih =>
    cases hy : f y with
    | none => simpa [hy] using ih
    | some b => simpa [hy] using ih.second b

/-- Leaving out items of an interleaving leaves them out of both lists. -/
lemma filter (p : α → Bool) (h : Interleaving xs ys zs) :
    Interleaving (xs.filter p) (ys.filter p) (zs.filter p) := by
  simpa only [List.filterMap_eq_filter] using h.filterMap (Option.guard fun x => p x)

lemma swap (h : Interleaving xs ys zs) : Interleaving ys xs zs := by
  induction h with
  | done => exact .done
  | first x _ ih => exact ih.second x
  | second y _ ih => exact ih.first y

/-- An interleaving begins as one of its lists does, and as the other one if that is empty. -/
lemma head?_eq (h : Interleaving xs ys zs) :
    zs.head? = xs.head?.or ys.head? ∨ zs.head? = ys.head?.or xs.head? := by
  cases h with
  | done => exact .inl rfl
  | first x _ => exact .inl rfl
  | second y _ => exact .inr rfl

lemma eq_of_nil_left (h : Interleaving [] ys zs) : zs = ys := by
  generalize hx : ([] : List α) = xs at h
  induction h with
  | done => rfl
  | first x _ _ => exact absurd hx (by simp)
  | second y _ ih => rw [ih hx]

lemma eq_of_nil_right (h : Interleaving xs [] zs) : zs = xs := by
  generalize hy : ([] : List α) = ys at h
  induction h with
  | done => rfl
  | first x _ ih => rw [ih hy]
  | second y _ _ => exact absurd hy (by simp)

/-- One list behind the other is an interleaving of the two. -/
lemma append (xs ys : List α) : Interleaving xs ys (xs ++ ys) := by
  induction xs with
  | nil =>
    induction ys with
    | nil => exact .done
    | cons y ys ih => exact ih.second y
  | cons x xs ih => exact ih.first x

end Interleaving

end BackupSteward
