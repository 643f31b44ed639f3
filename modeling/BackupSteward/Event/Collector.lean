import BackupSteward.Event.Decode
import BackupSteward.Failure.Basic
import BackupSteward.Log

/-!
# Collecting events

A collector reads the lines of one run and remembers its summary.  The first summary counts;
later ones are noted and dropped.  Failed items are counted into the summary, those that are
reported after it included, since the two pipes race.
-/

namespace BackupSteward

/-- What is known of a run from the lines read so far. -/
structure Collector (S : Type) where
  /-- The first summary, with the count of failed items so far. -/
  summary : Option S
  /-- The failed items so far. -/
  errorCount : Nat
  /-- The messages so far, dropped summaries included. -/
  eventsSeen : Nat
  deriving DecidableEq, Repr

/-- Nothing read yet. -/
def Collector.start {S : Type} : Collector S := ⟨none, 0, 0⟩

/-- What reading a line gives: the collector after it, the event to pass on, and what to
log. -/
structure Collected (P S : Type) where
  collector : Collector S
  event : Option (Event P S)
  notices : List Notice

namespace Collector

variable {P S : Type} (op : Operation P S)

/-- Takes an event in. -/
def accept (c : Collector S) : Event P S → Collected P S
  | .progress p => ⟨{ c with eventsSeen := c.eventsSeen + 1 }, some (.progress p), []⟩
  | .itemError e =>
    let errors := c.errorCount + 1
    ⟨⟨c.summary.map (op.withErrorCount · errors), errors, c.eventsSeen + 1⟩,
      some (.itemError e), [.itemError op.name e.during e.item e.message]⟩
  | .summary s =>
    match c.summary with
    | none =>
      let s := op.withErrorCount s c.errorCount
      ⟨{ c with summary := some s, eventsSeen := c.eventsSeen + 1 }, some (.summary s), []⟩
    | some _ =>
      ⟨{ c with eventsSeen := c.eventsSeen + 1 }, none, [.duplicateSummary op.name]⟩

/-- Reads a line of either pipe.  A fault leaves the collector as it was. -/
def feed (c : Collector S) (line : String) : Except Fault (Collected P S) := do
  match ← op.eventOfLine? line with
  | none => return ⟨c, none, []⟩
  | some e => return c.accept op e

/-- The summary of a run that succeeded. -/
def requireSummary (c : Collector S) : Except Failure S :=
  match c.summary with
  | some s => .ok s
  | none => .error (.missingSummary op.name c.eventsSeen)

end Collector

end BackupSteward
