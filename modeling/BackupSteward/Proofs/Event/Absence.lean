import BackupSteward.Event.Decode
import Mathlib.Tactic.Lemma

/-!
# Fields that are null

A message may leave a field out or set it to null.  Numbers, texts with a default and lists are
decoded alike in both cases.  The exceptions are the texts of a failed item: its message inside the
error object, the activity and the item itself are empty if they are left out, and a word if they
are null.  The file shows that there are no others, for the messages of a backup and for those of a
restore.
-/

namespace BackupSteward

namespace Fields

/-- The fields but for those of a name. -/
def without (fields : Fields) (name : String) : Fields := fields.filter fun f => f.1 ≠ name

lemma get?_without (fields : Fields) (name field : String) :
    (fields.without name).get? field = if name = field then none else fields.get? field := by
  induction fields with
  | nil => simp [without, get?]
  | cons f fields ih =>
    obtain ⟨n, v⟩ := f
    unfold without at ih ⊢
    by_cases hn : n = name
    · subst hn
      rw [List.filter_cons_of_neg (by simp), ih, get?]
      split <;> rfl
    · rw [List.filter_cons_of_pos (by simpa using hn), get?, get?, ih]
      by_cases hfield : n = field
      · subst hfield
        rw [if_pos rfl, if_neg (Ne.symm hn), if_pos rfl]
      · rw [if_neg hfield, if_neg hfield]

/-- The value of a field, if it is given: null is no value. -/
def given? (fields : Fields) (name : String) : Option Value :=
  match fields.get? name with
  | some .null => none
  | v => v

/-- The same is given in two messages, but perhaps for an error. -/
def SameGiven (p q : Fields) : Prop := ∀ name, name ≠ "error" → p.given? name = q.given? name

/-! ### What is read of the fields that are given -/

lemma count_eq (fields : Fields) (name : String) : fields.count name =
    match fields.given? name with
    | none => .ok 0
    | some v => orDefault 0 v.toInt := by
  unfold count given?
  rcases fields.get? name with _ | _ | _ <;> rfl

lemma measure_eq (fields : Fields) (name : String) : fields.measure name =
    match fields.given? name with
    | none => .ok .zero
    | some v => orDefault .zero v.toDouble := by
  unfold measure given?
  rcases fields.get? name with _ | _ | _ <;> rfl

lemma textIfGiven_eq (fields : Fields) (name : String) :
    fields.textIfGiven name = Value.textIfGiven (fields.given? name) := by
  unfold textIfGiven given?
  rcases fields.get? name with _ | _ | _ <;> rfl

lemma filesInWork_eq (fields : Fields) : filesInWork fields =
    match fields.given? "current_files" with
    | some (.list xs) => xs.map Value.text
    | _ => [] := by
  unfold filesInWork given?
  rcases fields.get? "current_files" with _ | _ | _ <;> rfl

/-- The kind of message that some fields are. -/
def kind? (fields : Fields) : Option String :=
  match fields.get? "message_type" with
  | some (.str kind) => some kind
  | _ => none

lemma kind?_eq (fields : Fields) : fields.kind? =
    match fields.given? "message_type" with
    | some (.str kind) => some kind
    | _ => none := by
  unfold kind? given?
  rcases fields.get? "message_type" with _ | _ | _ <;> rfl

namespace SameGiven

variable {p q : Fields} {name : String}

lemma count (h : p.SameGiven q) (hname : name ≠ "error") : p.count name = q.count name := by
  rw [count_eq, count_eq, h name hname]

lemma measure (h : p.SameGiven q) (hname : name ≠ "error") : p.measure name = q.measure name := by
  rw [measure_eq, measure_eq, h name hname]

lemma textIfGiven (h : p.SameGiven q) (hname : name ≠ "error") :
    p.textIfGiven name = q.textIfGiven name := by
  rw [textIfGiven_eq, textIfGiven_eq, h name hname]

lemma filesInWork (h : p.SameGiven q) : filesInWork p = BackupSteward.filesInWork q := by
  rw [filesInWork_eq, filesInWork_eq, h _ (by decide)]

lemma kind? (h : p.SameGiven q) : p.kind? = q.kind? := by
  rw [kind?_eq, kind?_eq, h _ (by decide)]

end SameGiven

end Fields

/-! ### Messages -/

namespace Operation

variable {P S : Type} {op : Operation P S} {p q : Fields}

/-- Reports of an operation are decoded from what is given in them, and their errors do not
matter. -/
structure ReadsGiven (op : Operation P S) : Prop where
  progress {p q : Fields} (h : p.SameGiven q) : op.progress p = op.progress q
  summary {p q : Fields} (h : p.SameGiven q) : op.summary p = op.summary q

lemma readsGiven_backup : backup.ReadsGiven where
  progress h := by
    simp (disch := decide) only [backup, BackupProgress.decode, h.count, h.measure, h.filesInWork]
  summary h := by
    simp (disch := decide) only [backup, BackupSummary.decode, h.count, h.measure, h.textIfGiven]

lemma readsGiven_restore : restore.ReadsGiven where
  progress h := by
    simp (disch := decide) only [restore, RestoreProgress.decode, h.count, h.measure]
  summary h := by
    simp (disch := decide) only [restore, RestoreSummary.decode, h.count, h.measure]

lemma event?_eq (op : Operation P S) (fields : Fields) : op.event? fields =
    match fields.kind? with
    | some kind =>
      if kind = "status" then (op.progress fields).map fun p => some (.progress p)
      else if kind = "summary" then (op.summary fields).map fun s => some (.summary s)
      else if kind = "error" then .ok (some (.itemError (ItemError.decode fields)))
      else .ok none
    | none => .ok none := by
  unfold event? Fields.kind?
  rcases fields.get? "message_type" with _ | _ | _ <;> rfl

/-- Messages in which the same is given differ only if they report a failed item and their errors
are decoded to different ones. -/
lemma event?_eq_iff (hop : op.ReadsGiven) (h : p.SameGiven q) : op.event? p = op.event? q ↔
    (p.kind? = some "error" → ItemError.decode p = ItemError.decode q) := by
  rw [event?_eq, event?_eq, ← h.kind?, hop.progress h, hop.summary h]
  rcases p.kind? with _ | kind
  · simp
  dsimp only
  by_cases herror : kind = "error"
  · simp [herror]
  · simp [herror]

end Operation

/-! ### Left out or null -/

namespace Fields

variable (fields error : Fields) (name : String)

/-- A message reports a failed item. -/
def ReportsItem : Prop := fields.get? "message_type" = some (.str "error")

lemma kind?_eq_error_iff {fields : Fields} : fields.kind? = some "error" ↔ fields.ReportsItem := by
  unfold kind? ReportsItem
  rcases fields.get? "message_type" with _ | _ | _ <;> simp

lemma given?_without (field : String) :
    (fields.without name).given? field = if name = field then none else fields.given? field := by
  unfold given?
  rw [get?_without]
  by_cases h : name = field <;> simp [h]

lemma given?_put_null (field : String) :
    (fields.put name .null).given? field = if name = field then none else fields.given? field := by
  unfold given?
  rw [get?_put]
  by_cases h : name = field <;> simp [h]

lemma sameGiven_without : (fields.without name).SameGiven (fields.put name .null) := by
  intro field _
  rw [given?_without, given?_put_null]

/-- Null is a word as a text. -/
lemma text_null : Value.null.text = "None" := by decide

lemma textOf_without (field : String) :
    (fields.without name).textOf field = if name = field then "" else fields.textOf field := by
  unfold textOf
  rw [get?_without]
  by_cases h : name = field <;> simp [h]

lemma textOf_put_null (field : String) :
    (fields.put name .null).textOf field =
      if name = field then "None" else fields.textOf field := by
  unfold textOf
  rw [get?_put]
  by_cases h : name = field <;> simp [h, text_null]

/-- Of a text that is read without a default it shows whether its field is null. -/
lemma textOf_without_eq_iff (field : String) :
    (fields.without name).textOf field = (fields.put name .null).textOf field ↔ name ≠ field := by
  rw [textOf_without, textOf_put_null]
  by_cases h : name = field <;> simp [h]

end Fields

namespace ItemError

variable (fields error : Fields) (name : String)

/-- The message of an error that is left out is that of one that is null. -/
lemma message_without : (decode (fields.without name)).message =
    (decode (fields.put name .null)).message := by
  unfold decode
  rw [Fields.get?_without, Fields.get?_put]
  by_cases h : name = "error"
  · simp [h, Value.textIfGiven, Value.truthy]
  · simp [h]

lemma decode_without_eq_iff : decode (fields.without name) = decode (fields.put name .null) ↔
    name ≠ "during" ∧ name ≠ "item" := by
  rw [mk.injEq, ← fields.textOf_without_eq_iff name "during",
    ← fields.textOf_without_eq_iff name "item"]
  exact and_iff_right (message_without fields name)

lemma decode_putError (fields error : Fields) :
    decode (fields.put "error" (.record error)) =
      ⟨error.textOf "message", fields.textOf "during", fields.textOf "item"⟩ := by
  simp [decode, Fields.textOf]

lemma decode_error_without_eq_iff : decode (fields.put "error" (.record (error.without name))) =
    decode (fields.put "error" (.record (error.put name .null))) ↔ name ≠ "message" := by
  rw [decode_putError, decode_putError, ← error.textOf_without_eq_iff name "message", mk.injEq]
  simp

end ItemError

namespace Operation

variable {P S : Type} {op : Operation P S}

/-- A message without a field is the same event as the message with this field null. -/
def NullIsAbsent (op : Operation P S) (fields : Fields) (name : String) : Prop :=
  op.event? (fields.without name) = op.event? (fields.put name .null)

/-- A message with an error object without a field is the same event as the message with this field
of the object null. -/
def NullIsAbsentInError (op : Operation P S) (fields error : Fields) (name : String) : Prop :=
  op.event? (fields.put "error" (.record (error.without name))) =
    op.event? (fields.put "error" (.record (error.put name .null)))

lemma nullIsAbsent_iff (hop : op.ReadsGiven) (fields : Fields) (name : String) :
    op.NullIsAbsent fields name ↔ ¬(fields.ReportsItem ∧ (name = "during" ∨ name = "item")) := by
  have hkind : (fields.without name).ReportsItem ↔ name ≠ "message_type" ∧ fields.ReportsItem := by
    unfold Fields.ReportsItem
    rw [Fields.get?_without]
    by_cases h : name = "message_type" <;> simp [h]
  rw [NullIsAbsent, event?_eq_iff hop (fields.sameGiven_without name),
    Fields.kind?_eq_error_iff, hkind, ItemError.decode_without_eq_iff]
  -- without its kind a message is none, whether it reported a failed item or not
  by_cases hname : name = "message_type"
  · simp [hname]
  · simp [hname, not_or]

lemma nullIsAbsentInError_iff (hop : op.ReadsGiven) (fields error : Fields) (name : String) :
    op.NullIsAbsentInError fields error name ↔ ¬(fields.ReportsItem ∧ name = "message") := by
  have hsame : (fields.put "error" (.record (error.without name))).SameGiven
      (fields.put "error" (.record (error.put name .null))) := by
    intro field hfield
    simp [Fields.given?, Ne.symm hfield]
  have hkind :
      (fields.put "error" (.record (error.without name))).ReportsItem ↔ fields.ReportsItem := by
    simp [Fields.ReportsItem]
  rw [NullIsAbsentInError, event?_eq_iff hop hsame, Fields.kind?_eq_error_iff, hkind,
    ItemError.decode_error_without_eq_iff, not_and]

/-- **A field that is null counts as absent, but for three texts of a failed item.**  In the
messages of a backup and of a restore these are the activity, the item, and the message inside the
error object. -/
theorem null_is_absent_iff (fields error : Fields) (name : String) :
    (backup.NullIsAbsent fields name ↔ ¬(fields.ReportsItem ∧ (name = "during" ∨ name = "item"))) ∧
    (restore.NullIsAbsent fields name ↔ ¬(fields.ReportsItem ∧ (name = "during" ∨ name = "item"))) ∧
    (backup.NullIsAbsentInError fields error name ↔ ¬(fields.ReportsItem ∧ name = "message")) ∧
    (restore.NullIsAbsentInError fields error name ↔ ¬(fields.ReportsItem ∧ name = "message")) :=
  ⟨nullIsAbsent_iff readsGiven_backup fields name, nullIsAbsent_iff readsGiven_restore fields name,
    nullIsAbsentInError_iff readsGiven_backup fields error name,
    nullIsAbsentInError_iff readsGiven_restore fields error name⟩

/-- An activity that is null becomes a word. -/
theorem null_activity_is_word : ¬ ∀ (fields : Fields) (kind name : String),
    fields.get? "message_type" = some (.str kind) → kind ∈ ["status", "summary", "error"] →
      name ≠ "message_type" → backup.NullIsAbsent fields name := by
  intro h
  have hsame := h [("message_type", .str "error")] "error" "during" rfl (by decide) (by decide)
  have hreports : Fields.ReportsItem [("message_type", .str "error")] := rfl
  exact (nullIsAbsent_iff readsGiven_backup _ _).1 hsame ⟨hreports, .inl rfl⟩

end Operation

end BackupSteward
