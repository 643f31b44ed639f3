import BackupSteward.Event.Collector
import BackupSteward.Proofs.Outcome
import Mathlib.Data.List.Induction

/-!
# The accounts of a collector

A collector is fed the lines of a run one by one.  What it remembers is told by the messages among
these lines: how many there are, how many of them report a failed item, and which summary is the
first.  The file proves this for every run, for the collector of a backup and for that of a
restore.
-/

namespace BackupSteward

variable {P S : Type}

/-- The summary that an event is, if it is one. -/
def Event.summary? : Event P S → Option S
  | .summary s => some s
  | _ => none

namespace Operation

variable (op : Operation P S)

/-- The message on a line, if there is one that can be decoded. -/
def message? (line : String) : Option (Event P S) :=
  match op.eventOfLine? line with
  | .ok event => event
  | .error _ => none

/-- The messages on some lines. -/
def messages (lines : List String) : List (Event P S) := lines.filterMap op.message?

/-- How many of the messages on some lines report a failed item. -/
def itemErrors (lines : List String) : Nat := (op.messages lines).countP Event.isError

/-- The first summary among the messages on some lines. -/
def firstSummary? (lines : List String) : Option S := (op.messages lines).findSome? Event.summary?

/-- The count of failed items is one of the fields of a summary. -/
structure CountIsField : Prop where
  errorCount_with (s : S) (n : Nat) : op.errorCount (op.withErrorCount s n) = n
  with_with (s : S) (m n : Nat) :
    op.withErrorCount (op.withErrorCount s m) n = op.withErrorCount s n

lemma countIsField_backup : backup.CountIsField := ⟨fun _ _ => rfl, fun _ _ _ => rfl⟩

lemma countIsField_restore : restore.CountIsField := ⟨fun _ _ => rfl, fun _ _ _ => rfl⟩

variable {op}

lemma message?_eq_some {line : String} {event : Event P S} :
    op.message? line = some event ↔ op.eventOfLine? line = .ok (some event) := by
  unfold message?
  cases op.eventOfLine? line <;> simp

lemma messages_concat (lines : List String) (line : String) :
    op.messages (lines ++ [line]) = op.messages lines ++ (op.message? line).toList := by
  rw [messages, messages, List.filterMap_append]
  cases h : op.message? line <;> simp [h]

end Operation

namespace Collector

/-! ### Runs -/

section

variable (op : Operation P S)

/-- A collector after a line.  A line that cannot be decoded leaves it as it was. -/
def next (c : Collector S) (line : String) : Collector S :=
  match c.feed op line with
  | .ok collected => collected.collector
  | .error _ => c

/-- A new collector after some lines. -/
def after (lines : List String) : Collector S := lines.foldl (next op) .start

/-- The event that a line makes a collector pass on. -/
def passedOn (c : Collector S) (line : String) : Option (Event P S) :=
  match c.feed op line with
  | .ok collected => collected.event
  | .error _ => none

/-- The events that some lines make a collector pass on. -/
def passedOnAll : Collector S → List String → List (Event P S)
  | _, [] => []
  | c, line :: lines => (c.passedOn op line).toList ++ passedOnAll (c.next op line) lines

end

variable {op : Operation P S} {c : Collector S}

/-- Whether a line is a fault does not depend on what the collector knows. -/
lemma feed_eq_error {line : String} {fault : Fault} :
    c.feed op line = .error fault ↔ op.eventOfLine? line = .error fault := by
  unfold feed
  rcases op.eventOfLine? line with e | _ | event <;> simp [pure, Except.pure]

lemma next_of_fault {line : String} {fault : Fault} (h : c.feed op line = .error fault) :
    c.next op line = c := by rw [next, h]

/-- A message is taken in. -/
lemma next_of_message {line : String} {event : Event P S} (h : op.message? line = some event) :
    c.next op line = (c.accept op event).collector ∧
      c.passedOn op line = (c.accept op event).event := by
  have hfeed : c.feed op line = .ok (c.accept op event) := by
    rw [feed, Operation.message?_eq_some.1 h]
    rfl
  constructor
  · rw [next, hfeed]
  · rw [passedOn, hfeed]

/-- A line without a message changes nothing, be it a fault or not. -/
lemma next_of_noMessage {line : String} (h : op.message? line = none) :
    c.next op line = c ∧ c.passedOn op line = none := by
  unfold Operation.message? at h
  unfold next passedOn feed
  cases hline : op.eventOfLine? line with
  | error fault => exact ⟨rfl, rfl⟩
  | ok event =>
    rw [hline] at h
    cases h
    exact ⟨rfl, rfl⟩

lemma after_append (lines more : List String) :
    after op (lines ++ more) = more.foldl (next op) (after op lines) := List.foldl_append

lemma passedOnAll_concat (lines : List String) (line : String) :
    c.passedOnAll op (lines ++ [line]) =
      c.passedOnAll op lines ++ ((lines.foldl (next op) c).passedOn op line).toList := by
  induction lines generalizing c with
  | nil => simp [passedOnAll]
  | cons first lines ih => simp [passedOnAll, ih]

/-! ### Messages -/

/-- What a collector knows is told by some messages. -/
structure Reflects (op : Operation P S) (c : Collector S) (messages : List (Event P S)) :
    Prop where
  errorCount : c.errorCount = messages.countP Event.isError
  eventsSeen : c.eventsSeen = messages.length
  summary : c.summary =
    (messages.findSome? Event.summary?).map (op.withErrorCount · c.errorCount)

lemma reflects_start : Reflects op .start [] := ⟨rfl, rfl, rfl⟩

/-- Each kind of message is reflected when it has been taken in. -/
lemma Reflects.accept {messages : List (Event P S)} (hop : op.CountIsField)
    (h : c.Reflects op messages) (event : Event P S) :
    (c.accept op event).collector.Reflects op (messages ++ [event]) := by
  obtain ⟨herrors, hseen, hsummary⟩ := h
  cases event with
  | progress p =>
    refine ⟨?_, ?_, ?_⟩
    · simp [Collector.accept, herrors, Event.isError]
    · simp [Collector.accept, hseen]
    · simp [Collector.accept, hsummary, Event.summary?]
  | itemError e =>
    refine ⟨?_, ?_, ?_⟩
    · simp [Collector.accept, herrors, Event.isError]
    · simp [Collector.accept, hseen]
    -- the summary that is there already gets the new count in the place of the old one
    · simp [Collector.accept, hsummary, Event.summary?, Function.comp_def, hop.with_with]
  | summary s =>
    cases hfirst : messages.findSome? Event.summary? with
    | none =>
      rw [hfirst, Option.map_none] at hsummary
      refine ⟨?_, ?_, ?_⟩
      · simp [Collector.accept, hsummary, herrors, Event.isError]
      · simp [Collector.accept, hsummary, hseen]
      · simp [Collector.accept, hsummary, hfirst, Event.summary?]
    | some first =>
      rw [hfirst, Option.map_some] at hsummary
      refine ⟨?_, ?_, ?_⟩
      · simp [Collector.accept, hsummary, herrors, Event.isError]
      · simp [Collector.accept, hsummary, hseen]
      · simp [Collector.accept, hsummary, hfirst]

/-- A collector reflects the messages of its run. -/
theorem reflects_after (hop : op.CountIsField) (lines : List String) :
    (after op lines).Reflects op (op.messages lines) := by
  induction lines using List.reverseRecOn with
  | nil => exact reflects_start
  | append_singleton lines line ih =>
    rw [after_append, Operation.messages_concat]
    cases hmessage : op.message? line with
    | none =>
      rw [List.foldl_cons, (next_of_noMessage hmessage).1, Option.toList_none, List.append_nil]
      exact ih
    | some event =>
      rw [List.foldl_cons, (next_of_message hmessage).1, Option.toList_some]
      exact ih.accept hop event

/-- A summary is passed on when a collector gets its summary, and at no other time. -/
lemma countP_passedOn (c : Collector S) (line : String) :
    (c.next op line).summary.isSome.toNat =
      c.summary.isSome.toNat + (c.passedOn op line).toList.countP Event.isSummary := by
  cases hmessage : op.message? line with
  | none => simp [next_of_noMessage hmessage]
  | some event =>
    rw [(next_of_message hmessage).1, (next_of_message hmessage).2]
    cases event with
    | progress p => simp [accept, Event.isSummary]
    | itemError e => simp [accept, Event.isSummary]
    | summary s => cases hsummary : c.summary <;> simp [accept, hsummary, Event.isSummary]

lemma countP_passedOnAll (lines : List String) :
    (passedOnAll op .start lines).countP Event.isSummary =
      (after op lines).summary.isSome.toNat := by
  induction lines using List.reverseRecOn with
  | nil => rfl
  | append_singleton lines line ih =>
    rw [passedOnAll_concat, List.countP_append, ih, after_append]
    exact (countP_passedOn (after op lines) line).symm

/-! ### The accounts -/

/-- What a new collector knows and does when it is fed some lines.  `recount` puts a count of failed
items into a summary. -/
structure Accounts (op : Operation P S) (recount : S → Nat → S) (lines : List String) : Prop where
  /-- The failed items are counted. -/
  errorCount : (after op lines).errorCount = op.itemErrors lines
  /-- The messages are counted, dropped summaries included. -/
  eventsSeen : (after op lines).eventsSeen = (op.messages lines).length
  /-- The first summary stays, with no change but that of its count. -/
  summary : (after op lines).summary =
    (op.firstSummary? lines).map (recount · (after op lines).errorCount)
  /-- The count in the summary is that of the collector. -/
  counted (s : S) : (after op lines).summary = some s →
    op.errorCount s = (after op lines).errorCount
  /-- One line at most makes the collector pass on a summary. -/
  passedOnOnce : (passedOnAll op .start lines).countP Event.isSummary ≤ 1
  /-- A line that is a fault leaves no trace. -/
  faults (line : String) (fault : Fault) : (after op lines).feed op line = .error fault →
    ∀ more, after op (lines ++ line :: more) = after op (lines ++ more)
  /-- What is returned at the end is the summary; there is a failure, with the count of all
  messages, if and only if there was none. -/
  required : (after op lines).requireSummary op =
    match op.firstSummary? lines with
    | some s => .ok (recount s (op.itemErrors lines))
    | none => .error (.missingSummary op.name (op.messages lines).length)

lemma accounts_of_countIsField (hop : op.CountIsField) (lines : List String) :
    Accounts op op.withErrorCount lines := by
  obtain ⟨herrors, hseen, hsummary⟩ := reflects_after hop lines
  refine ⟨herrors, hseen, hsummary, fun s hs => ?_, ?_, fun line fault hfault more => ?_, ?_⟩
  · rw [hsummary] at hs
    obtain ⟨first, -, rfl⟩ := Option.map_eq_some_iff.1 hs
    exact hop.errorCount_with first _
  · rw [countP_passedOnAll]
    exact Bool.toNat_le _
  · rw [after_append, List.foldl_cons, next_of_fault hfault, ← after_append]
  · rw [requireSummary, hsummary, hseen, herrors]
    unfold Operation.firstSummary? Operation.itemErrors
    cases (op.messages lines).findSome? Event.summary? <;> rfl

/-- **A collector's accounts are right after every run**, for backups and for restores. -/
theorem collector_accounts (lines : List String) :
    Accounts .backup (fun s n => { s with errorCount := n }) lines ∧
      Accounts .restore (fun s n => { s with errorCount := n }) lines :=
  ⟨accounts_of_countIsField Operation.countIsField_backup lines,
    accounts_of_countIsField Operation.countIsField_restore lines⟩

/-- An item that fails behind the summary is counted into it; of the line behind that, which is a
fault, and of the second summary nothing is kept. -/
example :
    (after .backup [
      "\x7b\"message_type\": \"summary\", \"files_new\": 3\x7d",
      "\x7b\"message_type\": \"error\", \"item\": \"/x\"\x7d",
      "\x7b\"message_type\": \"status\", \"total_files\": Infinity\x7d",
      "\x7b\"message_type\": \"summary\", \"files_new\": 4\x7d"]).summary.map
        (fun s => (s.filesNew, s.errorCount)) = some (3, 1) := by
  decide +kernel

end Collector
end BackupSteward
