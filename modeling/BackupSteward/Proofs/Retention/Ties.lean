import BackupSteward.Proofs.Retention.Partition

/-!
# Retention and the order of a listing

A listing may be rearranged, as long as the snapshots of each instant stay in their order: the
snapshots are sorted into the same list, and every policy makes the same of it.  No other
rearrangement has this property, and if all instants differ then every one has it.
-/

namespace BackupSteward.Retention

/-- The same snapshots are listed, and those of one instant in the same order, on whatever clocks
they were made. -/
structure Rearranged (listing other : List Snapshot) : Prop where
  perm : listing.Perm other
  ties : ∀ t, atInstant t listing = atInstant t other

variable {listing other : List Snapshot}

/-- The sorted list tells the listing up to rearrangement. -/
lemma newestFirst_eq_iff : newestFirst listing = newestFirst other ↔ Rearranged listing other := by
  have hlisting := isNewestFirst_newestFirst listing
  have hother := isNewestFirst_newestFirst other
  constructor
  · intro h
    refine ⟨hlisting.perm.symm.trans (h ▸ hother.perm), fun t => ?_⟩
    rw [← hlisting.ties t, h, hother.ties t]
  · intro h
    refine hlisting.descending.ext hother.descending fun t => ?_
    rw [hlisting.ties t, h.ties t, hother.ties t]

/-- Where no instant is repeated, every order will do. -/
theorem rearranged_of_perm (h : listing.Perm other)
    (hdistinct : (listing.map (·.time.instant)).Nodup) : Rearranged listing other := by
  refine ⟨h, fun t => ?_⟩
  have hperm : (atInstant t listing).Perm (atInstant t other) := h.filter _
  have hlength : (atInstant t listing).length ≤ 1 := by
    have hcount := List.nodup_iff_count_le_one.1 hdistinct t
    rwa [List.count_eq_length_filter, List.filter_map, List.length_map] at hcount
  rcases hat : atInstant t listing with _ | ⟨s, rest⟩
  · exact (hat ▸ hperm).nil_eq
  · obtain rfl : rest = [] := List.eq_nil_of_length_eq_zero (by simpa [hat] using hlength)
    exact (hat ▸ hperm).singleton_eq

/-- Without rules all is kept, in the order in which it is sorted. -/
lemma select_empty (listing : List Snapshot) :
    ∃ result, select .empty listing = .ok result ∧ result.keep = newestFirst listing :=
  ⟨_, select_of_comparable rfl listing, (partitions_outcome .empty listing).keep_all rfl⟩

/-- **Retention depends on the order of a listing only through ties.**  A rearranged listing is
sorted into the same list and fares the same under every policy, and there is no other listing of
which either is true. -/
theorem rearranged_iff (listing other : List Snapshot) :
    (Rearranged listing other ↔ newestFirst listing = newestFirst other) ∧
      (Rearranged listing other ↔ ∀ p, select p listing = select p other) := by
  rw [← newestFirst_eq_iff]
  refine ⟨Iff.rfl, fun h p => by rw [select, select, h], fun h => ?_⟩
  obtain ⟨result, hselect, hkeep⟩ := select_empty listing
  obtain ⟨result', hselect', hkeep'⟩ := select_empty other
  have : result = result' := Except.ok.inj (hselect.symm.trans ((h .empty).trans hselect'))
  rw [← hkeep, this, hkeep']

end BackupSteward.Retention
