import BackupSteward.Event.Collector
import BackupSteward.Proofs.Json.Depth
import BackupSteward.Proofs.Number.Range
import BackupSteward.Proofs.Outcome

/-!
# Lines that cannot be decoded

A line of output is an event or it is none, whatever it holds, but for two faults: it nests too
deeply to be read, or a number in it is beyond the range of its field.  The file says exactly
which lines these are, for the lines of a backup and for those of a restore.
-/

namespace BackupSteward

/-! ### Programs that overflow -/

/-- A program has no fault but an overflow, and has that in one case only. -/
def OverflowsIff {α : Type} (x : Except Fault α) (case : Prop) : Prop :=
  ∀ fault, x = .error fault ↔ fault = .overflow ∧ case

namespace OverflowsIff

variable {α β : Type} {p q : Prop}

lemma pure (a : α) : OverflowsIff (Pure.pure a : Except Fault α) False := by
  intro fault
  constructor
  · intro h
    cases h
  · rintro ⟨-, ⟨⟩⟩

lemma congr {x : Except Fault α} (h : OverflowsIff x p) (hpq : p ↔ q) : OverflowsIff x q := by
  intro fault
  rw [h fault, hpq]

lemma bind {x : Except Fault α} {f : α → Except Fault β} (hx : OverflowsIff x p)
    (hf : ∀ a, OverflowsIff (f a) q) : OverflowsIff (x >>= f) (p ∨ q) := by
  intro fault
  rcases x with e | a
  -- the first fault is the fault of the whole, and it can be an overflow only
  · obtain ⟨rfl, hp⟩ := (hx e).1 rfl
    exact ⟨fun h => by cases h; exact ⟨rfl, .inl hp⟩, fun ⟨h, _⟩ => by rw [h]; rfl⟩
  · have hp : ¬ p := fun hp => nomatch (hx .overflow).2 ⟨rfl, hp⟩
    refine (hf a fault).trans (and_congr_right fun _ => ?_)
    simp [hp]

lemma map {x : Except Fault α} (hx : OverflowsIff x p) (f : α → β) :
    OverflowsIff (x.map f) p := by
  intro fault
  rw [← hx fault]
  cases x <;> simp [Except.map]

end OverflowsIff

/-! ### Numbers among the fields -/

/-- Only an infinity is too large for a whole number. -/
lemma Value.toInt_overflow_iff (v : Value) :
    v.toInt = .error .overflow ↔ ∃ negative, v = .double (.infinite negative) := by
  unfold toInt
  cases v with
  | double x => cases x <;> simp
  | str s => cases hn : Number.wholeNumber? s <;> simp [hn]
  | _ => simp

/-- Only whole numbers are too large for a double. -/
lemma Value.toDouble_overflow_iff (v : Value) :
    v.toDouble = .error .overflow ↔ ∃ i, v = .int i ∧ Double.beyond ≤ i.natAbs := by
  unfold toDouble
  cases v with
  | int i =>
    simp only [int.injEq, exists_eq_left', ← Double.ofInt?_eq_none_iff]
    cases Double.ofInt? i <;> simp
  | str s => cases hx : Number.double? s <;> simp [hx]
  | _ => simp

namespace Fields

lemma orDefault_eq_error {α : Type} {default : α} {x : Except Fault α} {fault : Fault} :
    orDefault default x = .error fault ↔ fault = .overflow ∧ x = .error .overflow := by
  rcases x with e | a
  · cases e <;> simp [orDefault, eq_comm]
  · simp [orDefault]

variable (fields : Fields)

/-- A count overflows if it is infinite. -/
lemma overflowsIff_count (name : String) : OverflowsIff (fields.count name)
    (∃ negative, fields.get? name = some (.double (.infinite negative))) := by
  intro fault
  unfold count
  split
  case h_1 habsent => simp [habsent]
  case h_2 hnull => simp [hnull]
  case h_3 v hv hgiven => simp [orDefault_eq_error, Value.toInt_overflow_iff, hgiven]

/-- A measure overflows if it is a whole number without a double next to it. -/
lemma overflowsIff_measure (name : String) : OverflowsIff (fields.measure name)
    (∃ i, fields.get? name = some (.int i) ∧ Double.beyond ≤ i.natAbs) := by
  intro fault
  unfold measure
  split
  case h_1 habsent => simp [habsent]
  case h_2 hnull => simp [hnull]
  case h_3 v hv hgiven => simp [orDefault_eq_error, Value.toDouble_overflow_iff, hgiven]

end Fields

/-! ### Messages -/

/-- The fields of a message that hold numbers. -/
structure NumericFields where
  measures : List String
  counts : List String

/-- One of the numbers in a message is beyond the range of its field. -/
def NumericFields.Overflow (numeric : NumericFields) (fields : Fields) : Prop :=
  (∃ name ∈ numeric.measures, ∃ i, fields.get? name = some (.int i) ∧ Double.beyond ≤ i.natAbs) ∨
    ∃ name ∈ numeric.counts, ∃ negative, fields.get? name = some (.double (.infinite negative))

section

variable {α : Type} {fields : Fields} {measures counts : List String}

lemma overflowsIff_noNumber (a : α) :
    OverflowsIff (pure a : Except Fault α) (NumericFields.Overflow ⟨[], []⟩ fields) :=
  (OverflowsIff.pure a).congr (by simp [NumericFields.Overflow])

lemma overflowsIff_cons_measure {f : Double → Except Fault α} (name : String)
    (hf : ∀ x, OverflowsIff (f x) (NumericFields.Overflow ⟨measures, counts⟩ fields)) :
    OverflowsIff (fields.measure name >>= f)
      (NumericFields.Overflow ⟨name :: measures, counts⟩ fields) :=
  ((fields.overflowsIff_measure name).bind hf).congr (by simp [NumericFields.Overflow, or_assoc])

lemma overflowsIff_cons_count {f : Int → Except Fault α} (name : String)
    (hf : ∀ n, OverflowsIff (f n) (NumericFields.Overflow ⟨measures, counts⟩ fields)) :
    OverflowsIff (fields.count name >>= f)
      (NumericFields.Overflow ⟨measures, name :: counts⟩ fields) :=
  ((fields.overflowsIff_count name).bind hf).congr
    (by simp [NumericFields.Overflow, or_left_comm])

end

/-- The numbers in the progress of a backup. -/
def BackupProgress.numeric : NumericFields where
  measures := ["seconds_elapsed", "percent_done"]
  counts := ["total_files", "files_done", "total_bytes", "bytes_done", "error_count"]

/-- The numbers in the summary of a backup. -/
def BackupSummary.numeric : NumericFields where
  measures := ["total_duration"]
  counts := ["files_new", "files_changed", "files_unmodified", "dirs_new", "dirs_changed",
    "dirs_unmodified", "data_blobs", "tree_blobs", "data_added", "total_files_processed",
    "total_bytes_processed"]

/-- The numbers in the progress of a restore. -/
def RestoreProgress.numeric : NumericFields where
  measures := ["seconds_elapsed", "percent_done"]
  counts := ["total_files", "files_restored", "files_skipped", "total_bytes", "bytes_restored",
    "bytes_skipped"]

/-- The numbers in the summary of a restore. -/
def RestoreSummary.numeric : NumericFields where
  measures := ["seconds_elapsed"]
  counts := ["total_files", "files_restored", "files_skipped", "total_bytes", "bytes_restored",
    "bytes_skipped"]

lemma BackupProgress.overflowsIff_decode (fields : Fields) :
    OverflowsIff (decode fields) (numeric.Overflow fields) := by
  refine overflowsIff_cons_measure _ fun _ => overflowsIff_cons_measure _ fun _ => ?_
  refine overflowsIff_cons_count _ fun _ => overflowsIff_cons_count _ fun _ => ?_
  refine overflowsIff_cons_count _ fun _ => overflowsIff_cons_count _ fun _ => ?_
  exact overflowsIff_cons_count _ fun _ => overflowsIff_noNumber _

lemma BackupSummary.overflowsIff_decode (fields : Fields) :
    OverflowsIff (decode fields) (numeric.Overflow fields) := by
  refine overflowsIff_cons_count _ fun _ => overflowsIff_cons_count _ fun _ => ?_
  refine overflowsIff_cons_count _ fun _ => overflowsIff_cons_count _ fun _ => ?_
  refine overflowsIff_cons_count _ fun _ => overflowsIff_cons_count _ fun _ => ?_
  refine overflowsIff_cons_count _ fun _ => overflowsIff_cons_count _ fun _ => ?_
  refine overflowsIff_cons_count _ fun _ => overflowsIff_cons_count _ fun _ => ?_
  refine overflowsIff_cons_count _ fun _ => overflowsIff_cons_measure _ fun _ => ?_
  exact overflowsIff_noNumber _

lemma RestoreProgress.overflowsIff_decode (fields : Fields) :
    OverflowsIff (decode fields) (numeric.Overflow fields) := by
  refine overflowsIff_cons_measure _ fun _ => overflowsIff_cons_measure _ fun _ => ?_
  refine overflowsIff_cons_count _ fun _ => overflowsIff_cons_count _ fun _ => ?_
  refine overflowsIff_cons_count _ fun _ => overflowsIff_cons_count _ fun _ => ?_
  refine overflowsIff_cons_count _ fun _ => overflowsIff_cons_count _ fun _ => ?_
  exact overflowsIff_noNumber _

lemma RestoreSummary.overflowsIff_decode (fields : Fields) :
    OverflowsIff (decode fields) (numeric.Overflow fields) := by
  refine overflowsIff_cons_measure _ fun _ => ?_
  refine overflowsIff_cons_count _ fun _ => overflowsIff_cons_count _ fun _ => ?_
  refine overflowsIff_cons_count _ fun _ => overflowsIff_cons_count _ fun _ => ?_
  refine overflowsIff_cons_count _ fun _ => overflowsIff_cons_count _ fun _ => ?_
  exact overflowsIff_noNumber _

/-! ### Lines -/

section

variable {P S : Type} {op : Operation P S}

/-- The numbers in the messages of an operation, and that they are all there are. -/
structure Operation.Numbers (op : Operation P S) where
  progress : NumericFields
  summary : NumericFields
  progress_iff (fields : Fields) : OverflowsIff (op.progress fields) (progress.Overflow fields)
  summary_iff (fields : Fields) : OverflowsIff (op.summary fields) (summary.Overflow fields)

/-- A message reports progress or a summary, with a number beyond the range of its field. -/
def Operation.Numbers.Overflow (numbers : op.Numbers) (fields : Fields) : Prop :=
  (fields.get? "message_type" = some (.str "status") ∧ numbers.progress.Overflow fields) ∨
    fields.get? "message_type" = some (.str "summary") ∧ numbers.summary.Overflow fields

lemma Operation.overflowsIff_event? (numbers : op.Numbers) (fields : Fields) :
    OverflowsIff (op.event? fields) (numbers.Overflow fields) := by
  intro fault
  unfold event?
  split
  case h_1 kind hkind =>
    unfold Numbers.Overflow
    rw [hkind]
    split
    case isTrue hstatus =>
      rw [(numbers.progress_iff fields).map _ fault]
      simp [hstatus]
    case isFalse hstatus =>
      split
      case isTrue hsummary =>
        rw [(numbers.summary_iff fields).map _ fault]
        simp [hsummary]
      case isFalse hsummary => split <;> simp [hstatus, hsummary]
  case h_2 hkind =>
    have hnone : ¬ numbers.Overflow fields := by
      rintro (⟨h, -⟩ | ⟨h, -⟩) <;> exact hkind _ h
    simp [hnone]

/-- A line begins like an object and nests beyond the limit. -/
def TooDeep (line : String) : Prop :=
  (Text.trim line.toList).head? = some '{' ∧
    Json.Nests (Text.trim line.toList).length Json.maxDepth (Text.trim line.toList)

lemma decodeLine_error_iff (line : String) (fault : Fault) :
    decodeLine line = .error fault ↔ fault = .tooDeep ∧ TooDeep line := by
  unfold decodeLine TooDeep
  generalize Text.trim line.toList = text
  dsimp only
  split
  case isTrue hbrace =>
    -- reading skips space again, of which there is none in front of a brace
    have hspace : Json.skipSpace text = text := by
      rcases text with _ | ⟨c, text⟩
      · rfl
      · cases hbrace
        rfl
    have hdeep := Json.readChars_tooDeep_iff text
    rw [hspace] at hdeep
    rw [← hdeep]
    rcases Json.readChars text with e | v
    · cases e <;> simp [hbrace, eq_comm]
    · cases v <;> simp
  case isFalse hbrace => simp [hbrace]

/-- What a collector makes of a line fails if the line cannot be decoded or its message cannot. -/
lemma Collector.feed_error_iff (numbers : op.Numbers) (c : Collector S) (line : String)
    (fault : Fault) : c.feed op line = .error fault ↔
      (fault = .tooDeep ∧ TooDeep line) ∨ (fault = .overflow ∧
        ∃ fields, decodeLine line = .ok (some fields) ∧ numbers.Overflow fields) := by
  have hline := decodeLine_error_iff line fault
  unfold feed Operation.eventOfLine?
  rcases hdecoded : decodeLine line with e | _ | fields
  · rw [hdecoded] at hline
    simpa using hline
  · rw [hdecoded] at hline
    simpa [pure, Except.pure] using hline
  · rw [hdecoded] at hline
    have hdeep : ¬ (fault = .tooDeep ∧ TooDeep line) := fun h => nomatch hline.2 h
    have hevent := op.overflowsIff_event? numbers fields fault
    simp only [ok_bind, Except.ok.injEq, Option.some.injEq, exists_eq_left', hdeep, false_or]
    rw [← hevent]
    rcases op.event? fields with e | _ | event <;> simp [pure, Except.pure]

end

/-- The numbers in the messages of a backup. -/
def Operation.backupNumbers : Operation.backup.Numbers where
  progress := BackupProgress.numeric
  summary := BackupSummary.numeric
  progress_iff := BackupProgress.overflowsIff_decode
  summary_iff := BackupSummary.overflowsIff_decode

/-- The numbers in the messages of a restore. -/
def Operation.restoreNumbers : Operation.restore.Numbers where
  progress := RestoreProgress.numeric
  summary := RestoreSummary.numeric
  progress_iff := RestoreProgress.overflowsIff_decode
  summary_iff := RestoreSummary.overflowsIff_decode

/-- **Decoding fails on two kinds of lines only:** those that nest beyond the limit, and those with
a number beyond the range of its field. -/
theorem decoding_fails_iff (line : String) (fault : Fault) :
    (decodeLine line = .error fault ↔ fault = .tooDeep ∧ TooDeep line) ∧
    (∀ c : Collector BackupSummary, c.feed .backup line = .error fault ↔
      (fault = .tooDeep ∧ TooDeep line) ∨ (fault = .overflow ∧ ∃ fields,
        decodeLine line = .ok (some fields) ∧ Operation.backupNumbers.Overflow fields)) ∧
    ∀ c : Collector RestoreSummary, c.feed .restore line = .error fault ↔
      (fault = .tooDeep ∧ TooDeep line) ∨ (fault = .overflow ∧ ∃ fields,
        decodeLine line = .ok (some fields) ∧ Operation.restoreNumbers.Overflow fields) :=
  ⟨decodeLine_error_iff line fault,
    fun c => c.feed_error_iff Operation.backupNumbers line fault,
    fun c => c.feed_error_iff Operation.restoreNumbers line fault⟩

/-- An infinite count is such a number. -/
theorem feed_infinite_count : ¬ ∀ (c : Collector BackupSummary) (line : String),
    ∃ collected, c.feed .backup line = .ok collected := by
  intro htotal
  let line := "\x7b\"message_type\": \"status\", \"total_files\": Infinity\x7d"
  obtain ⟨collected, hcollected⟩ := htotal .start line
  have hfails : (Collector.start.feed .backup line).toOption.isNone = true := by decide +kernel
  rw [hcollected] at hfails
  cases hfails

end BackupSteward
