import BackupSteward.Proofs.Engine.Alike
import BackupSteward.Proofs.Engine.Framing
import BackupSteward.Proofs.Repository.Streaming

/-!
# Sinks do not matter

A sink gets the events of a backup or a restore, and it may fail or pause whenever it gets one.  It
takes no time over an event and leaves it as it is.  The file shows that such a sink has no
influence on the operation: whatever the sinks, two operations that are the same otherwise come to
the same, start the same processes and write the same text.  Their logs differ in the failures of
the sinks, and in nothing else if both sinks pause or none.  Where only one of them pauses, what the
pumps tell may stand earlier in one of the logs.
-/

namespace BackupSteward

open BackupSteward.Engine
open BackupSteward.Text (Bytes)

variable {P S : Type}

/-! ### Who tells the log -/

namespace Notice

/-- The notice tells of the failure of a sink. -/
def fromSink : Notice → Bool
  | sinkFailed _ _ => true
  | _ => false

/-- The notice comes from a pump. -/
def fromPump : Notice → Bool
  | lineTooLong _ _ => true
  | pipeFailed _ _ => true
  | _ => false

/-- The notice comes neither from a sink nor from a pump. -/
def fromOperation (n : Notice) : Bool := !n.fromSink && !n.fromPump

end Notice

namespace Engine.Pipeline

variable {s t : Pipeline} {pump : Pipe}

end Engine.Pipeline

/-! ### Two sinks -/

/-- Whether a sink pauses when it gets an event.  Where there is none, nothing pauses. -/
def pausing (sink : Option (Sink P S)) : Bool := (sink.map (·.pauses)).getD false

/-- The same is known while an operation goes on with one sink or another, and two sinks have been
given the same events. -/
structure Streaming.SameFor (a b : Option (Sink P S)) (st st' : Streaming P S) : Prop where
  collector : st.collector = st'.collector
  written : st.written = st'.written
  delivered : a.isSome = true → b.isSome = true → st.delivered = st'.delivered

namespace Streaming

variable {op : Operation P S} {a b : Option (Sink P S)} {sel : Notice → Bool}
  {st st' : Streaming P S}

/-- A sink is given the event, and nothing else is known then than before. -/
lemma state_notify (sink : Option (Sink P S)) (st : Streaming P S) (event : Event P S)
    (notices : List Notice) : (st.notify op sink event notices).state =
      if sink.isSome then { st with delivered := event :: st.delivered } else st := by
  unfold notify
  cases sink with
  | none => rfl
  | some sink =>
    dsimp only
    split <;> rfl

lemma SameFor.notify (h : SameFor a b st st') (event : Event P S) (notices : List Notice) :
    SameFor a b (st.notify op a event notices).state (st'.notify op b event notices).state := by
  rw [state_notify, state_notify]
  cases a <;> cases b
  · exact h
  · exact ⟨h.collector, h.written, fun h => (nomatch h)⟩
  · exact ⟨h.collector, h.written, fun _ h => (nomatch h)⟩
  · exact ⟨h.collector, h.written, fun ha hb => congrArg (event :: ·) (h.delivered ha hb)⟩

section

variable (hsel : ∀ n : Notice, n.fromSink = true → sel n = false) (h : SameFor a b st st')

include hsel h

end

section

variable (op a b) (takesOutput : Bool)
  (hsel : ∀ n : Notice, n.fromSink = true → sel n = false)

include hsel

end

section

variable (op a b) (takesOutput : Bool)

end

end Streaming

namespace Repository

variable {op : Operation P S} {a b : Option (Sink P S)} {takesOutput : Bool} {c : Call}
  {started : Notice} {completed : S → Notice} {s : Session} {sel : Notice → Bool}

/-- Two operations have come to the same but for what their sinks failed on, and for the places of
what the pumps tell where only one of the sinks pauses. -/
structure SameButSinks (a b : Option (Sink P S)) (x y : Streamed P S) : Prop where
  outcome : x.outcome = y.outcome
  children : x.session.children = y.session.children
  written : x.session.written = y.session.written
  /-- The logs hold the same notices besides those of the sinks. -/
  log : (x.session.log.filter (!·.fromSink)).Perm (y.session.log.filter (!·.fromSink))
  /-- What the pumps tell comes in the same order. -/
  pumps : x.session.log.filter Notice.fromPump = y.session.log.filter Notice.fromPump
  /-- So does everything else. -/
  others : x.session.log.filter Notice.fromOperation = y.session.log.filter Notice.fromOperation
  /-- The whole logs are in the same order if both sinks pause, or none. -/
  inOrder : pausing a = pausing b →
    x.session.log.filter (!·.fromSink) = y.session.log.filter (!·.fromSink)
  delivered : a.isSome = true → b.isSome = true → x.delivered = y.delivered

lemma SameButSinks.refl {x : Streamed P S} : SameButSinks a b x x :=
  ⟨rfl, rfl, rfl, .refl _, rfl, rfl, fun _ => rfl, fun _ _ => rfl⟩

/-! ### A queue that is full -/

end Repository

end BackupSteward
