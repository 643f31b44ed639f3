import BackupSteward.Proofs.Outcome
import BackupSteward.Snapshot.Basic

/-!
# What a decoded snapshot is known to be

A snapshot is decoded only from an object with an identifier and a time, and this time is a moment
that exists on a clock less than a day away from universal time.  Retention and the listings rest on
these facts.
-/

namespace BackupSteward

/-! ### Times -/

namespace Moment

/-- A moment that exists, on a clock less than a day away from universal time. -/
structure IsProper (m : Moment) : Prop where
  valid : m.valid = true
  offset : (m.offset.natAbs : Int) < dayMicros

lemma zero_lt_dayMicros : (0 : Int) < dayMicros := by decide

lemma natAbs_of_offset? {sign : Char} {cs : List Char} {offset : Int}
    (h : offset? sign cs = some offset) : (offset.natAbs : Int) < dayMicros := by
  unfold offset? at h
  split at h
  · obtain ⟨-, h⟩ := Option.ite_none_left_eq_some.1 h
    cases h
    exact zero_lt_dayMicros
  · split at h
    · cases h
    · obtain ⟨-, h⟩ := Option.ite_none_left_eq_some.1 h
      split at h
      · cases h
        exact zero_lt_dayMicros
      · obtain ⟨hlt, h⟩ := Option.ite_none_right_eq_some.1 h
        cases h
        split <;> omega

lemma natAbs_of_time? {cs : List Char} {clock : ClockReading} {offset : Int}
    (h : time? cs = some (clock, offset)) : (offset.natAbs : Int) < dayMicros := by
  unfold time? at h
  dsimp only at h
  split at h
  · cases h
  · split at h
    · obtain ⟨-, h⟩ := Option.ite_none_left_eq_some.1 h
      cases h
      exact zero_lt_dayMicros
    · obtain ⟨read, hread, h⟩ := Option.map_eq_some_iff.1 h
      cases h
      exact natAbs_of_offset? hread

/-- Only proper moments are read. -/
theorem isProper_of_ofText? {s : String} {m : Moment} (h : ofText? s = some m) : m.IsProper := by
  unfold ofText? readChars? at h
  simp only [Option.bind_eq_bind, Option.bind_eq_some_iff] at h
  obtain ⟨length, -, ⟨year, month, day⟩, -, h⟩ := h
  -- a date alone is read as its midnight in universal time
  split at h
  all_goals
    obtain ⟨⟨clock, offset⟩, hread, hm⟩ := Option.bind_eq_some_iff.1 h
    obtain ⟨hvalid, hm⟩ := Option.ite_none_right_eq_some.1 hm
    cases hm
    refine ⟨hvalid, ?_⟩
  · cases hread
    exact zero_lt_dayMicros
  · exact natAbs_of_time? hread

end Moment

namespace Snapshot

variable {fields : Fields} {s : Snapshot}

lemma isProper_of_momentOf? {name : String} {m : Moment} (h : momentOf? fields name = some m) :
    m.IsProper := by
  unfold momentOf? at h
  split at h
  · cases h
  · exact Moment.isProper_of_ofText? (Option.ite_none_right_eq_some.1 h).2

/-! ### Snapshots -/

/-- What decoding some fields as a snapshot goes by. -/
structure DecodedFrom (fields : Fields) (s : Snapshot) : Prop where
  id : s.id = fields.textIfGiven "id"
  named : s.id ≠ ""
  time : momentOf? fields "time" = some s.time
  late : 0 < s.unixMillis
  shortId : s.shortId ≠ ""
  paths : textsOf fields "paths" = .ok s.paths
  tags : textsOf fields "tags" = .ok s.tags

/-- The first characters of an identifier are an identifier. -/
lemma shortId_ne_empty {id short : String} (h : id ≠ "") :
    (if short.isEmpty then String.ofList (id.toList.take 8) else short) ≠ "" := by
  split
  case isTrue =>
    intro hnone
    have htake : id.toList.take 8 = [] := by simpa using congrArg String.toList hnone
    exact h (by simpa using htake)
  case isFalse hgiven => simpa using hgiven

/-- A snapshot is decoded only where nothing is missing. -/
theorem decodedFrom_of_decode (h : decode fields = .ok s) : DecodedFrom fields s := by
  unfold decode at h
  cases hid : (fields.textIfGiven "id").isEmpty with
  | true =>
    simp only [hid, if_true] at h
    cases h
  | false =>
    simp only [hid, Bool.false_eq_true, if_false] at h
    cases htime : momentOf? fields "time" with
    | none =>
      rw [htime] at h
      cases h
    | some time =>
      rw [htime] at h
      by_cases hearly : time.unixMillis ≤ 0
      · simp only [hearly, if_true] at h
        cases h
      · simp only [hearly, if_false] at h
        obtain ⟨paths, hpaths, h⟩ := bind_eq_ok.1 h
        obtain ⟨tags, htags, h⟩ := bind_eq_ok.1 h
        obtain rfl := Except.ok.inj h
        have hnamed : fields.textIfGiven "id" ≠ "" := by simpa using hid
        exact ⟨rfl, hnamed, htime, Int.not_le.1 hearly, shortId_ne_empty hnamed, hpaths, htags⟩

lemma DecodedFrom.isProper_time (h : DecodedFrom fields s) : s.time.IsProper :=
  isProper_of_momentOf? h.time

end Snapshot

end BackupSteward
