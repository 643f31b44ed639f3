import BackupSteward.Proofs.Snapshot.Decoding
import BackupSteward.Proofs.Snapshot.Integrity

/-!
# Snapshot lists are complete

Retention removes what a listing does not name, so a listing must not be read in part.  The file
says which snapshots are read from some lines: those of the objects in the first array, all of them
or none, and each with an identifier and a time.  Lines without an array play no part.
-/

namespace BackupSteward.Snapshot

variable {lines : List String}

/-! ### Snapshots -/

/-- A snapshot has all that retention goes by. -/
structure IsComplete (s : Snapshot) : Prop where
  id : s.id ≠ ""
  shortId : s.shortId ≠ ""
  time : s.time.IsProper
  late : 0 < s.unixMillis

lemma isComplete_of_decode {fields : Fields} {s : Snapshot} (h : decode fields = .ok s) :
    s.IsComplete := by
  have hdecoded := decodedFrom_of_decode h
  exact ⟨hdecoded.named, hdecoded.shortId, hdecoded.isProper_time, hdecoded.late⟩

lemma exists_decode_iff {fields : Fields} :
    (∃ s, decode fields = .ok s) ↔ isIdentified fields = true ∧ isListable fields = true := by
  have hread := reading_decode fields
  generalize isIdentified fields = identified, isListable fields = listable,
    decode fields = x at hread
  cases hread with
  | read s => exact iff_of_true ⟨s, rfl⟩ ⟨rfl, rfl⟩
  | reported failure => exact iff_of_false (fun ⟨_, hs⟩ => nomatch hs) (fun ⟨h, _⟩ => nomatch h)
  | misfit fault => exact iff_of_false (fun ⟨_, hs⟩ => nomatch hs) (fun ⟨_, h⟩ => nomatch h)

/-- The snapshots that some objects are decoded as, one by one. -/
abbrev DecodedAs (found : List Fields) (snapshots : List Snapshot) : Prop :=
  List.Forall₂ (fun fields s => decode fields = .ok s) found snapshots

lemma isComplete_of_decodedAs {found : List Fields} {snapshots : List Snapshot}
    (h : DecodedAs found snapshots) : ∀ s ∈ snapshots, s.IsComplete := by
  induction h with
  | nil => simp
  | cons hs _ ih => exact List.forall_mem_cons.2 ⟨isComplete_of_decode hs, ih⟩

/-! ### Lists -/

lemma decodeList_eq (h : ∀ line ∈ lines, ¬ NestsDeeply line) :
    decodeList lines = match lines.findSome? arrayOn with
      | none => .error (.noSnapshotList lines.length)
      | some items => (objects items).mapM decode := by
  rw [decodeList, firstArray_eq h]
  cases lines.findSome? arrayOn <;> rfl

lemma decodeList_eq_ok_iff (h : ∀ line ∈ lines, ¬ NestsDeeply line) {snapshots : List Snapshot} :
    decodeList lines = .ok snapshots ↔
      ∃ items, lines.findSome? arrayOn = some items ∧ DecodedAs (objects items) snapshots := by
  rw [decodeList_eq h]
  cases lines.findSome? arrayOn with
  | none => simp
  | some items => simp [mapM_eq_ok]

/-- **A list of snapshots is read in whole or not at all.**  What is read are the objects of the
first array on the lines, each as one snapshot, in order, and each snapshot has an identifier and a
time; an object without these, or with paths or tags that one cannot go through, makes the whole
list fail.  Two outputs with the same arrays on their lines have the same answer, up to the number
of lines that is reported when there is no array. -/
theorem snapshot_lists_complete (h : ∀ line ∈ lines, ¬ NestsDeeply line) :
    (∀ snapshots, decodeList lines = .ok snapshots ↔
      ∃ items, lines.findSome? arrayOn = some items ∧ DecodedAs (objects items) snapshots) ∧
    (∀ snapshots, decodeList lines = .ok snapshots → ∀ s ∈ snapshots, s.IsComplete) ∧
    (∀ items, lines.findSome? arrayOn = some items →
      ((∃ snapshots, decodeList lines = .ok snapshots) ↔
        ∀ fields ∈ objects items, isIdentified fields = true ∧ isListable fields = true)) ∧
    ∀ others, (∀ line ∈ others, ¬ NestsDeeply line) →
      others.filterMap arrayOn = lines.filterMap arrayOn →
        decodeList others = decodeList lines ∨
          (decodeList others = .error (.noSnapshotList others.length) ∧
            decodeList lines = .error (.noSnapshotList lines.length)) := by
  refine ⟨fun snapshots => decodeList_eq_ok_iff h, fun snapshots hread => ?_,
    fun items hitems => ?_, fun others hothers hsame => ?_⟩
  · obtain ⟨items, -, hdecoded⟩ := (decodeList_eq_ok_iff h).1 hread
    exact isComplete_of_decodedAs hdecoded
  · simp only [decodeList_eq_ok_iff h, hitems, Option.some.injEq, exists_eq_left',
      exists_forall₂_iff, exists_decode_iff]
  · have hfirst : others.findSome? arrayOn = lines.findSome? arrayOn := by
      rw [← List.head?_filterMap, ← List.head?_filterMap, hsame]
    rw [decodeList_eq h, decodeList_eq hothers, hfirst]
    cases lines.findSome? arrayOn with
    | none => exact .inr ⟨rfl, rfl⟩
    | some items => exact .inl rfl

/-- A message in front of a list, and a number in the list, make no difference. -/
theorem snapshot_lists_complete_noise :
    let noise := "\x7b\"message_type\": \"status\"\x7d"
    let line := "[\x7b\"id\": \"a\", \"time\": \"2026-02-03T04:05:06Z\"\x7d, 5]"
    (∀ l ∈ [noise, line], ¬ NestsDeeply l) ∧ (∀ l ∈ [line], ¬ NestsDeeply l) ∧
      [line].filterMap arrayOn = [noise, line].filterMap arrayOn ∧
      ∃ s, decodeList [noise, line] = .ok [s] ∧ s.IsComplete ∧ decodeList [line] = .ok [s] := by
  intro noise line
  have hnoise : arrayOn noise = none := Option.isNone_iff_eq_none.1 (by decide +kernel)
  have hflat : ∀ l ∈ [line], ¬ NestsDeeply l := List.forall_mem_singleton.2
    (not_nestsDeeply_of_reads (by decide +kernel))
  have hplain : ¬ NestsDeeply noise := not_nestsDeeply_of_reads (by decide +kernel)
  have hsame : [line].filterMap arrayOn = [noise, line].filterMap arrayOn :=
    (List.filterMap_cons_none hnoise).symm
  have hread : ((decodeList [noise, line]).toOption.map List.length) = some 1 := by decide +kernel
  obtain ⟨snapshots, hsnapshots, hlength⟩ := Option.map_eq_some_iff.1 hread
  obtain ⟨s, rfl⟩ := List.length_eq_one_iff.1 hlength
  rw [toOption_eq_some] at hsnapshots
  obtain ⟨-, hcomplete, -, halike⟩ :=
    snapshot_lists_complete (List.forall_mem_cons.2 ⟨hplain, hflat⟩)
  refine ⟨List.forall_mem_cons.2 ⟨hplain, hflat⟩, hflat, hsame, s, hsnapshots,
    hcomplete [s] hsnapshots s (by simp), ?_⟩
  rcases halike [line] hflat hsame with heq | ⟨-, hnone⟩
  · exact heq.trans hsnapshots
  · rw [hsnapshots] at hnone
    cases hnone

end BackupSteward.Snapshot
