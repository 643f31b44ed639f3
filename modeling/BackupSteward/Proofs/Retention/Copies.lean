import BackupSteward.Proofs.Retention.Acceptance
import BackupSteward.Proofs.Retention.Partition

/-!
# Copies in a listing

Retention works on the places of a listing, and what is removed is named by identifiers.  If a
snapshot is listed more than once, a counted rule may keep one of its copies and not another, so
that a snapshot which is kept is also named for removal.
-/

namespace BackupSteward.Retention

variable {p : Policy} {listing : List Snapshot}

/-- No snapshot is kept whose identifier is named for removal. -/
def Apart (result : Retention) : Prop := ∀ s ∈ result.keep, s.id ∉ result.removeIds

instance (result : Retention) : Decidable (Apart result) :=
  inferInstanceAs (Decidable (∀ s ∈ result.keep, s.id ∉ result.removeIds))

/-- A policy keeps all snapshots of an identifier or none. -/
def KeepsAlike (p : Policy) (listing : List Snapshot) : Prop :=
  ∀ i j s t, (newestFirst listing)[i]? = some s → (newestFirst listing)[j]? = some t →
    s.id = t.id → Keeps p listing i → Keeps p listing j

lemma not_keeps_iff {i : Nat} {s : Snapshot} (hs : (newestFirst listing)[i]? = some s) :
    ¬Keeps p listing i ↔ (verdicts p (newestFirst listing))[i]? = some false := by
  simp [Keeps, getElem?_verdicts, hs]

/-- Both lists are told apart by identifiers exactly if copies are kept alike. -/
lemma Partitions.apart_iff {result : Retention} (h : Partitions p listing result) :
    Apart result ↔ KeepsAlike p listing := by
  constructor
  · intro hapart i j s t hs ht hid hkeeps
    by_contra hnot
    refine hapart s (h.keep_eq ▸ mem_picked.2 ⟨i, hs, hkeeps⟩) ?_
    have : t ∈ result.remove := h.remove_eq ▸ mem_passedOver.2 ⟨j, ht, (not_keeps_iff ht).1 hnot⟩
    exact hid ▸ List.mem_map_of_mem this
  · intro halike s hs hid
    obtain ⟨t, ht, hid⟩ := List.mem_map.1 hid
    obtain ⟨i, hi, hkeeps⟩ := mem_picked.1 (h.keep_eq ▸ hs)
    obtain ⟨j, hj, hnot⟩ := mem_passedOver.1 (h.remove_eq ▸ ht)
    exact (not_keeps_iff hj).2 hnot (halike i j s t hi hj hid.symm hkeeps)

/-! ### Copies that are kept alike -/

/-- An identifier that is not repeated has one place only. -/
lemma keepsAlike_of_nodup (hids : (listing.map (·.id)).Nodup) : KeepsAlike p listing := by
  intro i j s t hs ht hid hkeeps
  have hnodup : ((newestFirst listing).map (·.id)).Nodup :=
    ((isNewestFirst_newestFirst listing).perm.map _).nodup_iff.2 hids
  have hi : i < ((newestFirst listing).map (·.id)).length := by
    simpa using (List.getElem?_eq_some_iff.1 hs).1
  have hsame : ((newestFirst listing).map (·.id))[i]? =
      ((newestFirst listing).map (·.id))[j]? := by
    rw [List.getElem?_map, List.getElem?_map, hs, ht, Option.map_some, Option.map_some, hid]
  exact (List.getElem?_inj hi hnodup).1 hsame ▸ hkeeps

/-- A rule that does not count looks at the snapshot only, not at its place. -/
lemma ruleMarks_congr_place {ordered : List Snapshot} {ρ : Reason} (hρ : ∀ r, ρ ≠ .rule r)
    {i j : Nat} (h : ordered[i]? = ordered[j]?) :
    (ruleMarks p ordered ρ)[i]? = (ruleMarks p ordered ρ)[j]? := by
  cases ρ with
  | noPolicy => simp only [ruleMarks, List.getElem?_map, h]
  | rule r => exact absurd rfl (hρ r)
  | within =>
    rcases ordered with _ | ⟨newest, rest⟩
    · rfl
    · simp only [ruleMarks, withinMarks_cons, List.getElem?_map, h]
  | tag => simp only [ruleMarks, tagMarks, List.getElem?_map, h]

lemma verdicts_congr_place {ordered : List Snapshot} (hcounts : ∀ r, (p.count r).amount = 0)
    {i j : Nat} (h : ordered[i]? = ordered[j]?) (hi : (verdicts p ordered)[i]? = some true) :
    (verdicts p ordered)[j]? = some true := by
  by_cases hp : p.isEmpty = true
  · rw [getElem?_verdicts] at hi ⊢
    simpa [reasonsAt, hp, ← h] using hi
  · rw [verdict_iff (Bool.eq_false_iff.2 hp)] at hi ⊢
    obtain ⟨ρ, hρ, huses, hmark⟩ := hi
    refine ⟨ρ, hρ, huses, ?_⟩
    rwa [← ruleMarks_congr_place (fun r => ?_) h]
    rintro rfl
    exact of_decide_eq_true huses (hcounts r)

lemma keepsAlike_of_uncounted (hcounts : ∀ r, (p.count r).amount = 0)
    (hcopies : ∀ s ∈ listing, ∀ t ∈ listing, s.id = t.id → s = t) : KeepsAlike p listing := by
  intro i j s t hs ht hid hkeeps
  have hperm := (isNewestFirst_newestFirst listing).perm
  have heq : s = t := hcopies s (hperm.mem_iff.1 (List.mem_of_getElem? hs)) t
    (hperm.mem_iff.1 (List.mem_of_getElem? ht)) hid
  exact verdicts_congr_place hcounts (by rw [hs, ht, heq]) hkeeps

/-! ### Copies that are parted -/

/-- A policy has rules, and each of them counts calendar periods. -/
structure OnlyCalendar (p : Policy) : Prop where
  nonempty : p.isEmpty = false
  calendar : ∀ ρ ∈ Reason.rules, p.uses ρ = true → ∃ r, r ≠ .last ∧ ρ = .rule r

/-- Such a policy does not keep a snapshot right behind another one of the same time. -/
theorem not_keeps_behind (h : OnlyCalendar p) {place : Nat} {s t : Snapshot}
    (hs : (newestFirst listing)[place]? = some s)
    (ht : (newestFirst listing)[place + 1]? = some t) (htime : s.time = t.time) :
    ¬Keeps p listing (place + 1) := by
  rw [Keeps, verdict_iff h.nonempty]
  rintro ⟨ρ, hρ, huses, hmark⟩
  obtain ⟨r, hr, rfl⟩ := h.calendar ρ hρ huses
  rw [ruleMarks, marks_eq_scan, periods_eq_map hr] at hmark
  refine scan_behind (p := period r 0 s.time) ?_ ?_ hmark
  · rw [List.getElem?_map, hs, Option.map_some]
  · rw [List.getElem?_map, ht, Option.map_some, htime]

/-- When what is kept and what is removed are apart. -/
structure ApartWhen (p : Policy) (listing : List Snapshot) (result : Retention) : Prop where
  alike : Apart result ↔ KeepsAlike p listing
  /-- No identifier is repeated. -/
  nodup : (listing.map (·.id)).Nodup → Apart result
  /-- Nothing is counted, and what is listed under one identifier is one snapshot. -/
  uncounted : (∀ r, (p.count r).amount = 0) →
    (∀ s ∈ listing, ∀ t ∈ listing, s.id = t.id → s = t) → Apart result
  /-- But not when only calendar periods are counted and a kept snapshot comes again. -/
  calendar : OnlyCalendar p → ∀ place s t, (newestFirst listing)[place]? = some s →
    (newestFirst listing)[place + 1]? = some t → s.id = t.id → s.time = t.time →
    Keeps p listing place → ¬Apart result

/-- **What is kept and what is removed are apart exactly if copies are kept alike.** -/
theorem apart_iff_keepsAlike (htags : p.tags.all Value.comparable = true)
    (listing : List Snapshot) : ∃ result, select p listing = .ok result ∧
      Partitions p listing result ∧ ApartWhen p listing result := by
  have hparts := partitions_outcome p listing
  refine ⟨_, select_of_comparable htags listing, hparts, hparts.apart_iff,
    fun hids => hparts.apart_iff.2 (keepsAlike_of_nodup hids),
    fun hcounts hcopies => hparts.apart_iff.2 (keepsAlike_of_uncounted hcounts hcopies), ?_⟩
  intro hcalendar place s t hs ht hid htime hkeeps hapart
  have halike := hparts.apart_iff.1 hapart place (place + 1) s t hs ht hid hkeeps
  exact not_keeps_behind hcalendar hs ht htime halike

/-- Two copies without a tag are both removed and the tagged snapshot is kept. -/
theorem apart_of_tag :
    let p : Policy := { Policy.empty with tags := [.str "keep"] }
    let listing := [sample "a" 3 10 0 [], sample "a" 3 10 0 [], sample "b" 2 9 0 ["keep"]]
    p.tags.all Value.comparable = true ∧ ∃ result, select p listing = .ok result ∧
      result.removeIds = ["a", "a"] ∧ Apart result := by
  intro p listing
  have htags : p.tags.all Value.comparable = true := rfl
  obtain ⟨result, hselect, hparts, hwhen⟩ := apart_iff_keepsAlike htags listing
  have hordered : newestFirst listing = listing := newestFirst_of_descending (by decide)
  refine ⟨htags, result, hselect, ?_, hwhen.uncounted (fun r => by cases r <;> rfl) ?_⟩
  · rw [removeIds, hparts.remove_eq, hordered]
    decide
  · simp [listing, sample]

/-- Under a rule for days, a snapshot that is listed twice is kept once and removed once. -/
theorem copy_kept_and_removed :
    let p : Policy := { Policy.empty with daily := .number 7 }
    let listing := [sample "a" 3 10 0 [], sample "a" 3 10 0 [], sample "b" 2 9 0 []]
    p.Accepted ∧ p.tags.all Value.comparable = true ∧
      ∃ result, select p listing = .ok result ∧ result.keep.map (·.id) = ["a", "b"] ∧
        result.removeIds = ["a"] ∧ ¬Apart result := by
  intro p listing
  have hordered : newestFirst listing = listing := newestFirst_of_descending (by decide)
  refine ⟨⟨fun r => by cases r <;> decide, by rintro d ⟨⟩⟩, rfl, _,
    select_of_comparable rfl listing, ?_, ?_, ?_⟩
  · rw [hordered]
    decide
  · rw [hordered]
    decide
  · rw [hordered]
    decide

end BackupSteward.Retention
