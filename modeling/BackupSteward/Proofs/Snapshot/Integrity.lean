import BackupSteward.Proofs.Json.Brackets
import BackupSteward.Proofs.Outcome
import BackupSteward.Snapshot.Listing
import BackupSteward.Snapshot.Statistics

/-!
# Which failures of a listing are reported

What the engine prints as a listing is data from outside, so that whatever is wrong with it is to be
reported as output without the expected form.  Identifiers and times are checked before they are
used; lists of texts and numbers among the fields are not, and where such a field holds something
else the decoder fails with a fault of its own.  The file says for each listing when this does not
happen.
-/

namespace BackupSteward

variable {α β : Type}

/-! ### Reported failures -/

/-- A failure says that the output of the engine does not have the expected form. -/
def Failure.isIntegrity (failure : Failure) : Bool :=
  failure.report?.any fun report => report.kind.ancestry.contains .parseIntegrity

/-- Every failure of a program is one of integrity. -/
def ReportsIntegrity (x : Except Failure α) : Prop :=
  ∀ failure, x = .error failure → failure.isIntegrity = true

lemma reportsIntegrity_ok (a : α) : ReportsIntegrity (.ok a) := fun _ h => nomatch h

lemma reportsIntegrity_error_iff {failure : Failure} :
    ReportsIntegrity (.error failure : Except Failure α) ↔ failure.isIntegrity = true := by
  constructor
  · exact fun h => h failure rfl
  · rintro h _ ⟨⟩
    exact h

lemma not_reportsIntegrity_fault (fault : Fault) :
    ¬ ReportsIntegrity (.error (.fault fault) : Except Failure α) := by
  rw [reportsIntegrity_error_iff]
  exact Bool.false_ne_true

lemma reportsIntegrity_bind_iff {x : Except Failure α} {f : α → Except Failure β}
    (hf : ∀ a, ReportsIntegrity (f a)) : ReportsIntegrity (x >>= f) ↔ ReportsIntegrity x := by
  cases x with
  | error failure => exact reportsIntegrity_error_iff.trans reportsIntegrity_error_iff.symm
  | ok a => exact iff_of_true (hf a) (reportsIntegrity_ok a)

/-- What becomes of a record that is checked for some fields, and that has some others of the type
they are used as or not: it is read, or what is wrong is reported, or it is not. -/
inductive Reading : (checked typed : Bool) → Except Failure β → Prop
  | read (b : β) : Reading true true (.ok b)
  | reported (failure : Failure) (hfailure : failure.isIntegrity = true) (typed : Bool) :
    Reading false typed (.error failure)
  | misfit (fault : Fault) : Reading true false (.error (.fault fault))

lemma Reading.map {checked typed : Bool} {x : Except Failure α} (h : Reading checked typed x)
    (f : α → β) : Reading checked typed (x.map f) := by
  cases h with
  | read a => exact .read (f a)
  | reported failure hfailure => exact .reported failure hfailure typed
  | misfit fault => exact .misfit fault

section

variable {γ : Type} {checked typed : γ → Bool}

/-- A record is read, and then others: what is wrong is reported if all records in front of the
first that fails its check are of the right types. -/
lemma reportsIntegrity_cons_iff {c : γ} {rest : List γ} {x : Except Failure α}
    {f : α → Except Failure β} (hread : Reading (checked c) (typed c) x)
    (hrest : ∀ a, x = .ok a →
      (ReportsIntegrity (f a) ↔ ∀ d ∈ rest.takeWhile checked, typed d = true)) :
    ReportsIntegrity (x >>= f) ↔ ∀ d ∈ (c :: rest).takeWhile checked, typed d = true := by
  rw [List.takeWhile_cons]
  generalize checked c = isChecked, htyped : typed c = isTyped at hread
  cases hread with
  | read a => simpa [htyped] using hrest a rfl
  | reported failure hfailure => exact iff_of_true (reportsIntegrity_error_iff.2 hfailure) (by simp)
  | misfit fault => exact iff_of_false (not_reportsIntegrity_fault fault) (by simp [htyped])

lemma reportsIntegrity_mapM_iff {f : γ → Except Failure α}
    (hf : ∀ c, Reading (checked c) (typed c) (f c)) (cs : List γ) :
    ReportsIntegrity (cs.mapM f) ↔ ∀ c ∈ cs.takeWhile checked, typed c = true := by
  induction cs with
  | nil => exact iff_of_true (reportsIntegrity_ok []) (by simp)
  | cons c cs ih =>
    rw [List.mapM_cons]
    refine reportsIntegrity_cons_iff (hf c) fun a _ => ?_
    rw [← ih]
    exact reportsIntegrity_bind_iff fun _ => reportsIntegrity_ok _

end

/-! ### Fields -/

/-- A program gives a value or has a fault, as a truth value tells. -/
inductive Settles : Bool → Except Fault α → Prop
  | value (a : α) : Settles true (.ok a)
  | fault (f : Fault) : Settles false (.error f)

namespace Settles

variable {b c : Bool} {x : Except Fault α}

lemma map (h : Settles b x) (f : α → β) : Settles b (x.map f) := by
  cases h with
  | value a => exact .value (f a)
  | fault fault => exact .fault fault

lemma bind (h : Settles b x) {f : α → Except Fault β} (hf : ∀ a, Settles c (f a)) :
    Settles (b && c) (x >>= f) := by
  cases h with
  | value a => exact hf a
  | fault fault => exact .fault fault

lemma reading (h : Settles b x) : Reading true b (orFail x) := by
  cases h with
  | value a => exact .read a
  | fault fault => exact .misfit fault

end Settles

namespace Value

/-- Whether one can go through a value. -/
def isIterable : Value → Bool
  | list _ | tuple _ | str _ | record _ => true
  | _ => false

/-- Whether a value stands for a whole number. -/
def isWhole : Value → Bool
  | bool _ | int _ | double (.finite _ _ _) => true
  | str s => (Number.wholeNumber? s).isSome
  | _ => false

lemma settles_items (v : Value) : Settles v.isIterable v.items := by
  cases v <;> constructor

lemma settles_toInt (v : Value) : Settles v.isWhole v.toInt := by
  cases v with
  | double x => cases x <;> constructor
  | str s =>
    have htext : (str s).toInt = (Number.wholeNumber? s).elim (.error .badValue) .ok := rfl
    rw [isWhole, htext]
    cases Number.wholeNumber? s <;> constructor
  | _ => constructor

end Value

/-- A field is of some kind, if it is given. -/
def Fields.fits (kind : Value → Bool) (fields : Fields) (name : String) : Bool :=
  (fields.get? name).all fun v => !v.truthy || kind v

/-- What is read of a field only if it is given. -/
lemma Fields.settles_fits {kind : Value → Bool} {read : Value → Except Fault α}
    (hread : ∀ v, Settles (kind v) (read v)) (fields : Fields) (name : String) (default : α) :
    Settles (fields.fits kind name) (match fields.get? name with
      | none => .ok default
      | some v => if v.truthy then read v else .ok default) := by
  unfold fits
  cases fields.get? name with
  | none => exact .value default
  | some v =>
    rw [Option.all_some]
    dsimp only
    cases v.truthy with
    | false => exact .value default
    | true => exact hread v

namespace Snapshot

/-- A record has an identifier and a time after the beginning of 1970. -/
def isIdentified (fields : Fields) : Bool :=
  !(fields.textIfGiven "id").isEmpty &&
    (momentOf? fields "time").any fun time => 0 < time.unixMillis

/-- One can go through the paths and the tags of a record, if there are any. -/
def isListable (fields : Fields) : Bool :=
  fields.fits Value.isIterable "paths" && fields.fits Value.isIterable "tags"

lemma exists_settles_textsOf (fields : Fields) (name : String) :
    ∃ texts?, Settles (fields.fits Value.isIterable name) texts? ∧
      textsOf fields name = orFail texts? := by
  refine ⟨_, fields.settles_fits (fun v => v.settles_items.map (·.map Value.text)) name [], ?_⟩
  unfold textsOf
  cases fields.get? name with
  | none => rfl
  | some v =>
    dsimp only
    split <;> rfl

/-- A record without an identifier or a time is reported, and one with both is read if one can go
through its paths and tags. -/
lemma reading_decode (fields : Fields) :
    Reading (isIdentified fields) (isListable fields) (decode fields) := by
  unfold decode isIdentified
  cases hid : (fields.textIfGiven "id").isEmpty with
  | true =>
    simp only [hid, if_true]
    exact .reported (.snapshotWithoutId fields) rfl _
  | false =>
    simp only [hid, Bool.false_eq_true, if_false]
    cases htime : momentOf? fields "time" with
    | none => exact .reported (.snapshotWithoutTime _ _) rfl _
    | some time =>
      by_cases hearly : time.unixMillis ≤ 0
      · have hlate : decide (0 < time.unixMillis) = false := by simpa using hearly
        rw [Option.any_some, hlate]
        simp only [hearly, if_true]
        exact .reported (.snapshotWithoutTime _ _) rfl _
      · have hlate : decide (0 < time.unixMillis) = true := by simpa using hearly
        obtain ⟨paths?, hpaths, hpathsOf⟩ := exists_settles_textsOf fields "paths"
        obtain ⟨tags?, htags, htagsOf⟩ := exists_settles_textsOf fields "tags"
        rw [Option.any_some, hlate, isListable, hpathsOf, htagsOf]
        simp only [hearly, if_false]
        generalize fields.fits Value.isIterable "paths" = p, fields.fits Value.isIterable "tags" = t
          at hpaths htags
        -- the paths and the tags are all that can still go wrong
        cases hpaths with
        | fault fault => exact .misfit fault
        | value paths =>
          cases htags with
          | fault fault => exact .misfit fault
          | value tags => exact .read _

end Snapshot

namespace Entry

/-- The fields of an entry that hold whole numbers. -/
def numbers : List String := ["size", "mode", "uid", "gid"]

lemma settles_number (fields : Fields) (name : String) :
    Settles (fields.fits Value.isWhole name) (number fields name) :=
  fields.settles_fits Value.settles_toInt name 0

lemma settles_decode (fields : Fields) :
    Settles (numbers.all (fields.fits Value.isWhole)) (decode fields) := by
  refine (settles_number fields _).bind fun size => (settles_number fields _).bind fun mode => ?_
  refine (settles_number fields _).bind fun uid => (settles_number fields _).bind fun gid => ?_
  exact .value _

end Entry

namespace Directory

/-- An object of a listing that is decoded: the description of the snapshot, or an entry. -/
inductive Part where
  | header (fields : Fields)
  | entry (fields : Fields)

/-- An object describes the snapshot, when one that does so has been seen before or not. -/
def describes (seen : Bool) (fields : Fields) : Bool :=
  tag fields = "snapshot" || ((tag fields).isEmpty && !seen && (fields.get? "tree").isSome)

/-- The objects of a listing that are decoded, and as what. -/
def parts : (seen : Bool) → List Fields → List Part
  | _, [] => []
  | seen, fields :: rest =>
    if describes seen fields then .header fields :: parts true rest
    else if tag fields = "node" then .entry fields :: parts seen rest
    else parts seen rest

namespace Part

/-- Only what describes the snapshot needs an identifier and a time. -/
def isIdentified : Part → Bool
  | header fields => Snapshot.isIdentified fields
  | entry _ => true

/-- The paths and tags of a snapshot are listable, and the numbers of an entry are whole numbers. -/
def isTyped : Part → Bool
  | header fields => Snapshot.isListable fields
  | entry fields => Entry.numbers.all (fields.fits Value.isWhole)

end Part

lemma isHeader_eq (before : Option Snapshot) (fields : Fields) :
    isHeader before fields = describes before.isSome fields := by
  cases before <;> rfl

end Directory

/-! ### Lines -/

/-- The object on a line. -/
def objectOn (line : String) : Option Fields := (decodeLine line).toOption.join

/-- A line nests beyond the limit. -/
def NestsDeeply (line : String) : Prop :=
  Json.Nests (Text.trim line.toList).length Json.maxDepth (Json.skipSpace (Text.trim line.toList))

lemma nestsDeeply_iff {line : String} :
    NestsDeeply line ↔ Json.readChars (Text.trim line.toList) = .error .tooDeep :=
  (Json.readChars_tooDeep_iff _).symm

lemma decodeLine_of_not_nestsDeeply {line : String} (h : ¬ NestsDeeply line) :
    decodeLine line = .ok (objectOn line) := by
  have hokay : ∃ object, decodeLine line = .ok object := by
    unfold decodeLine
    dsimp only
    split
    case isTrue =>
      split
      case h_3 hread => exact absurd (nestsDeeply_iff.2 hread) h
      all_goals exact ⟨_, rfl⟩
    case isFalse => exact ⟨none, rfl⟩
  obtain ⟨object, hobject⟩ := hokay
  rw [objectOn, hobject]
  rfl

namespace Snapshot

/-- The items of the array that a line without the white space around it is read as. -/
def arrayOn (line : String) : Option (List Value) :=
  match Json.readChars (Text.trim line.toList) with
  | .ok (.list items) => some items
  | _ => none

/-- Looking at the bracket in front first makes no difference. -/
lemma arrayOnLine_eq {line : String} (h : ¬ NestsDeeply line) :
    arrayOnLine line = .ok (arrayOn line) := by
  unfold arrayOnLine arrayOn
  dsimp only
  split
  case isTrue =>
    split
    case h_1 hread => rw [hread]
    case h_2 hother hread =>
      rw [hread]
      split
      case h_1 hlist => exact absurd (Except.ok.inj hlist) (hother _)
      case h_2 => rfl
    case h_3 hdeep => exact absurd (nestsDeeply_iff.2 hdeep) h
    case h_4 hfault => rw [hfault]
  case isFalse hhead =>
    split
    case h_1 hread => exact absurd (Json.head?_of_readChars_trim hread rfl) hhead
    case h_2 => rfl

lemma firstArray_eq {lines : List String} (h : ∀ line ∈ lines, ¬ NestsDeeply line) :
    firstArray lines = .ok (lines.findSome? arrayOn) := by
  induction lines with
  | nil => rfl
  | cons line lines ih =>
    obtain ⟨hline, hlines⟩ := List.forall_mem_cons.1 h
    rw [firstArray, arrayOnLine_eq hline, List.findSome?_cons]
    cases arrayOn line with
    | none => exact ih hlines
    | some items => rfl

/-- A list of snapshots is read or reported if one can go through the paths and tags of all objects
of the array in front of the first without an identifier or a time. -/
lemma reportsIntegrity_decodeList_iff {lines : List String}
    (h : ∀ line ∈ lines, ¬ NestsDeeply line) :
    ReportsIntegrity (decodeList lines) ↔ ∀ items, firstArray lines = .ok (some items) →
      ∀ fields ∈ (objects items).takeWhile isIdentified, isListable fields = true := by
  rw [decodeList, firstArray_eq h]
  cases lines.findSome? arrayOn with
  | none => exact iff_of_true (reportsIntegrity_error_iff.2 rfl) (by simp)
  | some items =>
    simp only [Except.ok.injEq, Option.some.injEq, forall_eq']
    exact reportsIntegrity_mapM_iff reading_decode (objects items)

end Snapshot

namespace Directory

lemma line_of_object (p : Progress) {line : String} {fields : Fields}
    (h : decodeLine line = .ok (some fields)) : p.line line =
      if describes p.header.isSome fields then
        (Snapshot.decode fields).map fun snapshot => { p with header := some snapshot }
      else if tag fields = "node" then
        (orFail (Entry.decode fields)).map fun entry => { p with entries := entry :: p.entries }
      else .ok p := by
  rw [Progress.line, h, ← isHeader_eq]
  show (if isHeader p.header fields = true then _ else _) = _
  split
  · cases Snapshot.decode fields <;> rfl
  · split
    · cases Entry.decode fields <;> rfl
    · rfl

/-- Reading a directory line by line reports what is wrong if, of the objects that are decoded, all
in front of the first that fails its check are of the right types. -/
lemma reportsIntegrity_foldlM_iff {lines : List String} (h : ∀ line ∈ lines, ¬ NestsDeeply line)
    (p : Progress) : ReportsIntegrity (lines.foldlM Progress.line p) ↔
      ∀ part ∈ (parts p.header.isSome (lines.filterMap objectOn)).takeWhile Part.isIdentified,
        part.isTyped = true := by
  induction lines generalizing p with
  | nil => exact iff_of_true (reportsIntegrity_ok p) (by simp [parts])
  | cons line lines ih =>
    obtain ⟨hline, hlines⟩ := List.forall_mem_cons.1 h
    have hobject := decodeLine_of_not_nestsDeeply hline
    rw [List.foldlM_cons, List.filterMap_cons]
    cases hfields : objectOn line with
    | none =>
      have hskip : p.line line = .ok p := by
        rw [Progress.line, hobject, hfields]
        rfl
      rw [hskip]
      exact ih hlines p
    | some fields =>
      dsimp only
      rw [line_of_object p (hobject.trans (congrArg Except.ok hfields)), parts]
      split
      case isTrue =>
        refine reportsIntegrity_cons_iff ((Snapshot.reading_decode fields).map _) fun q hq => ?_
        have hseen : q.header.isSome = true := by
          cases hsnapshot : Snapshot.decode fields <;> rw [hsnapshot] at hq <;> cases hq
          rfl
        rw [ih hlines q, hseen]
      case isFalse =>
        split
        case isTrue =>
          refine reportsIntegrity_cons_iff ((Entry.settles_decode fields).reading.map _)
            fun q hq => ?_
          have hseen : q.header = p.header := by
            cases hentry : Entry.decode fields <;> rw [hentry] at hq <;> cases hq
            rfl
          rw [ih hlines q, hseen]
        case isFalse => exact ih hlines p

/-- A listing of a directory is read or reported if, of the objects that are decoded, all in front
of the first that fails its check are of the right types. -/
lemma reportsIntegrity_decode_iff {lines : List String} (h : ∀ line ∈ lines, ¬ NestsDeeply line) :
    ReportsIntegrity (decode lines) ↔
      ∀ part ∈ (parts false (lines.filterMap objectOn)).takeWhile Part.isIdentified,
        part.isTyped = true := by
  rw [decode, reportsIntegrity_bind_iff, reportsIntegrity_foldlM_iff h]
  · rfl
  · intro p
    cases p.header with
    | none => exact reportsIntegrity_error_iff.2 rfl
    | some snapshot => exact reportsIntegrity_ok _

end Directory

namespace Statistics

lemma firstObject_eq {lines : List String} (h : ∀ line ∈ lines, ¬ NestsDeeply line) :
    firstObject lines = .ok (lines.filterMap objectOn).head? := by
  induction lines with
  | nil => rfl
  | cons line lines ih =>
    obtain ⟨hline, hlines⟩ := List.forall_mem_cons.1 h
    rw [firstObject, decodeLine_of_not_nestsDeeply hline, List.filterMap_cons]
    cases objectOn line with
    | none => exact ih hlines
    | some fields => rfl

lemma settles_ofFields (fields : Fields) :
    Settles (known.all (fields.fits Value.isWhole)) (ofFields fields) := by
  refine (Entry.settles_number fields _).bind fun size => ?_
  refine (Entry.settles_number fields _).bind fun files => ?_
  refine (Entry.settles_number fields _).bind fun snapshots => ?_
  exact (Entry.settles_number fields _).bind fun blobs => .value _

/-- Statistics are read or reported if the counts in the first object are whole numbers. -/
lemma reportsIntegrity_decode_iff {lines : List String} (h : ∀ line ∈ lines, ¬ NestsDeeply line) :
    ReportsIntegrity (decode lines) ↔ ∀ fields, (lines.filterMap objectOn).head? = some fields →
      known.all (fields.fits Value.isWhole) = true := by
  rw [decode, firstObject_eq h]
  cases (lines.filterMap objectOn).head? with
  | none => exact iff_of_true (reportsIntegrity_error_iff.2 rfl) (by simp)
  | some fields =>
    simp only [Option.some.injEq, forall_eq']
    show ReportsIntegrity (orFail (ofFields fields)) ↔ _
    have hread := settles_ofFields fields
    generalize known.all (fields.fits Value.isWhole) = whole, ofFields fields = x at hread
    cases hread with
    | value a => exact iff_of_true (reportsIntegrity_ok a) rfl
    | fault fault => exact iff_of_false (not_reportsIntegrity_fault fault) Bool.false_ne_true

end Statistics

/-! ### All listings -/

/-- **What is wrong with a listing is reported, unless a list of texts or a whole number among the
fields is something else.**  A list of snapshots is read or reported if one can go through the paths
and tags of all its objects, a directory if the same holds of its snapshot and the numbers of its
entries are whole numbers, and statistics if their counts are whole numbers; this is asked only of
what stands in front of the first snapshot without an identifier or a time, and there it is
needed. -/
theorem listings_report_integrity_iff {lines : List String}
    (h : ∀ line ∈ lines, ¬ NestsDeeply line) :
    (ReportsIntegrity (Snapshot.decodeList lines) ↔
      ∀ items, Snapshot.firstArray lines = .ok (some items) →
        ∀ fields ∈ (Snapshot.objects items).takeWhile Snapshot.isIdentified,
          Snapshot.isListable fields = true) ∧
    (ReportsIntegrity (Directory.decode lines) ↔
      ∀ part ∈ (Directory.parts false (lines.filterMap objectOn)).takeWhile
        Directory.Part.isIdentified, part.isTyped = true) ∧
    (ReportsIntegrity (Statistics.decode lines) ↔
      ∀ fields, (lines.filterMap objectOn).head? = some fields →
        Statistics.known.all (fields.fits Value.isWhole) = true) :=
  ⟨Snapshot.reportsIntegrity_decodeList_iff h, Directory.reportsIntegrity_decode_iff h,
    Statistics.reportsIntegrity_decode_iff h⟩

/-- A line that can be read does not nest beyond the limit. -/
lemma not_nestsDeeply_of_reads {line : String}
    (h : (Json.readChars (Text.trim line.toList)).toOption.isSome = true) : ¬ NestsDeeply line := by
  intro hdeep
  rw [nestsDeeply_iff.1 hdeep] at h
  cases h

/-- A snapshot without a time is reported, whatever the paths of the next one are. -/
theorem listings_report_integrity_untimed :
    let line := "[\x7b\"id\": \"a\"\x7d, \x7b\"id\": \"b\", \"paths\": 5\x7d]"
    (∀ l ∈ [line], ¬ NestsDeeply l) ∧ ReportsIntegrity (Snapshot.decodeList [line]) := by
  intro line
  have hflat : ∀ l ∈ [line], ¬ NestsDeeply l := List.forall_mem_singleton.2
    (not_nestsDeeply_of_reads (by decide +kernel))
  have hlistable : (Snapshot.firstArray [line]).toOption.join.all (fun items =>
      ((Snapshot.objects items).takeWhile Snapshot.isIdentified).all
        Snapshot.isListable) = true := by
    decide +kernel
  refine ⟨hflat, (listings_report_integrity_iff hflat).1.2 fun items hitems => ?_⟩
  rw [hitems] at hlistable
  exact List.all_eq_true.1 hlistable

/-- A number in the place of the paths of a snapshot is not reported. -/
theorem paths_number_unreported : ¬ ∀ lines : List String,
    (∀ line ∈ lines, ¬ NestsDeeply line) → ReportsIntegrity (Snapshot.decodeList lines) := by
  intro h
  let line := "[\x7b\"id\":\"a\",\"time\":\"2024-01-02T09:00:00Z\",\"paths\":5\x7d]"
  have hflat : ∀ l ∈ [line], ¬ NestsDeeply l := List.forall_mem_singleton.2
    (not_nestsDeeply_of_reads (by decide +kernel))
  have hfails : (match Snapshot.decodeList [line] with
      | .ok _ => true
      | .error failure => failure.isIntegrity) = false := by decide +kernel
  have hreports := h [line] hflat
  cases hlist : Snapshot.decodeList [line] with
  | ok found =>
    rw [hlist] at hfails
    cases hfails
  | error failure =>
    rw [hlist] at hfails
    exact absurd (hreports failure hlist) (by simp [hfails])

end BackupSteward
