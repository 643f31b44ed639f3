import BackupSteward.Event.Collector
import BackupSteward.Repository.Basic

/-!
# Backup and restore

Operations that report events while they run.  Each event goes to the caller's sink, lines that
are no JSON go to the caller's output or to the log, and the summary is returned at the end.  A
sink that fails is noted and has no other effect; one that pauses lets the pumps go on, so that
what they note may stand between its own notices.

A sink takes no time, and it leaves the events that it is given as they are.  Sinks that are so
slow that the deadline passes meanwhile, and sinks that change the summary before it is returned,
are left out.
-/

namespace BackupSteward

open BackupSteward.Engine

/-- A sink of events.  It takes no time, though it may pause, and it cannot change an event. -/
structure Sink (P S : Type) where
  /-- Whether it pauses before it answers to an event. -/
  pauses : Bool
  /-- What it answers to the latest event, given all events so far with the latest first: the
  reason for which it fails, if it does. -/
  answer : List (Event P S) → Option String

namespace Sink

variable {P S : Type}

/-- What a sink tells the log about its answer to the latest event. -/
def notices (sink : Sink P S) (op : Operation P S) (event : Event P S)
    (earlier : List (Event P S)) : List Notice :=
  match sink.answer (event :: earlier) with
  | none => []
  | some reason => [.sinkFailed (op.eventName event) reason]

end Sink

/-- What is known while an operation reports events. -/
structure Streaming (P S : Type) where
  collector : Collector S
  /-- The events given to the sink, the latest first. -/
  delivered : List (Event P S)
  /-- The text written for the caller. -/
  written : String

namespace Streaming

variable {P S : Type}

/-- Nothing has been reported. -/
def start : Streaming P S := ⟨.start, [], ""⟩

/-- Gives an event to the sink, behind some notices about it. -/
def notify (op : Operation P S) (sink : Option (Sink P S)) (st : Streaming P S)
    (event : Event P S) (notices : List Notice) : Reaction (Streaming P S) :=
  match sink with
  | none => .done st notices
  | some sink =>
    let answer := sink.notices op event st.delivered
    let st := { st with delivered := event :: st.delivered }
    if sink.pauses then ⟨st, notices, some answer, none⟩ else .done st (notices ++ answer)

/-- Whether a line begins like a JSON object. -/
def looksLikeObject (line : String) : Bool := (Text.trimLeft line.toList).head? = some '{'

/-- Handles a line of a streaming operation. -/
def handler (op : Operation P S) (sink : Option (Sink P S)) (takesOutput : Bool) :
    Handler (Streaming P S) := fun pipe line st =>
  match st.collector.feed op line with
  | .error fault => ⟨st, [], none, some (.fault fault)⟩
  | .ok collected =>
    let st := { st with collector := collected.collector }
    match collected.event with
    | some event => st.notify op sink event collected.notices
    | none =>
      if looksLikeObject line then .done st collected.notices
      else
        let (text, notices) := forward takesOutput pipe line
        .done { st with written := st.written ++ text } (collected.notices ++ notices)

end Streaming

/-- What a streaming operation did: its summary or failure, the events given to the sink in
order, and the session after it. -/
structure Streamed (P S : Type) where
  outcome : Except Failure S
  delivered : List (Event P S)
  session : Session

namespace Repository

/-- Runs a streaming operation: a notice, the engine, and a notice about the summary. -/
def stream {P S : Type} (op : Operation P S) (sink : Option (Sink P S)) (takesOutput : Bool)
    (call : Call) (started : Notice) (completed : S → Notice) (s : Session) : Streamed P S :=
  let (outcome, st, s) := call.run (Streaming.handler op sink takesOutput) .start (s.note [started])
  let s := s.write st.written
  let delivered := st.delivered.reverse
  match outcome with
  | .error failure => ⟨.error failure, delivered, s⟩
  | .ok () =>
    match st.collector.requireSummary op with
    | .error failure => ⟨.error failure, delivered, s⟩
    | .ok summary => ⟨.ok summary, delivered, s.note [completed summary]⟩

/-- Backs up the paths of some options. -/
def backup (r : Repository) (sink : Option (Sink BackupProgress BackupSummary))
    (options : List Step) (takesOutput : Bool) (deadline : Value) (s : Session) :
    Streamed BackupProgress BackupSummary :=
  match Options.backupFromSteps options with
  | .error failure => ⟨.error failure, [], s⟩
  | .ok arguments =>
    stream .backup sink takesOutput (r.call "backup" (.str "--json" :: arguments) deadline)
      (.backupStarted r.label arguments)
      (fun summary => .backupCompleted r.label summary.snapshotId summary.totalFilesProcessed
        summary.totalBytesProcessed summary.errorCount summary.totalDuration)
      s

/-- The identifier of a snapshot, which must not be blank. -/
def requireSnapshotId (id : String) : Except Failure Unit :=
  if Text.blank id then .error .missingSnapshotId else .ok ()

/-- The arguments of a restore of a snapshot. -/
def restoreArguments (snapshotId target : String) (options : List Step) :
    Except Failure (List Value) := do
  requireSnapshotId snapshotId
  Options.restoreFromSteps target options

/-- Restores a snapshot into a directory. -/
def restore (r : Repository) (snapshotId target : String)
    (sink : Option (Sink RestoreProgress RestoreSummary)) (options : List Step)
    (takesOutput : Bool) (deadline : Value) (s : Session) :
    Streamed RestoreProgress RestoreSummary :=
  match restoreArguments snapshotId target options with
  | .error failure => ⟨.error failure, [], s⟩
  | .ok arguments =>
    stream .restore sink takesOutput
      (r.call "restore" (.str "--json" :: .str snapshotId :: arguments) deadline)
      (.restoreStarted r.label snapshotId target)
      (fun summary => .restoreCompleted r.label snapshotId summary.filesRestored
        summary.bytesRestored summary.errorCount)
      s

end Repository

end BackupSteward
