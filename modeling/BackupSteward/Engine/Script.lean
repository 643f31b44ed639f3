import BackupSteward.Engine.Pipe
import BackupSteward.Failure.Basic
import BackupSteward.Text.Utf8

/-!
# Engine processes

What an engine process does, seen from outside: what it writes, how time passes, when the
caller gives up meanwhile, and how it takes the signals that are to stop it.

Some things that can happen to a process are left out.  The caller does not give up before the
process has been started.  The pipes of a process end with it at the latest: nothing that it has
started itself holds them open any longer.
-/

namespace BackupSteward.Engine

open BackupSteward.Text (Bytes)

/-- Something that happens while an engine process runs. -/
inductive Action where
  /-- The process writes to a pipe. -/
  | write (pipe : Pipe) (chunk : Bytes)
  /-- Reading a pipe fails. -/
  | failPipe (pipe : Pipe) (error : SystemError)
  /-- Nothing happens for some seconds. -/
  | sleep (seconds : Rat)
  /-- Nothing happens any more. -/
  | hang
  /-- The caller gives up. -/
  | cancel
  /-- The process closes both pipes and goes on. -/
  | closeOutput

/-- What an engine process does until it ends by itself, and how it ends.  With it its pipes end,
if they have not ended before. -/
structure Script where
  actions : List Action
  /-- The exit status after the last action. -/
  exitCode : Int
  /-- Whether it goes on when it is asked to terminate. -/
  ignoresTerm : Bool
  /-- Whether it has just ended by itself when it is asked to terminate. -/
  goneAtTerm : Bool
  /-- Whether it has just ended by itself when it is killed. -/
  goneAtKill : Bool

/-- What comes of starting a process, whatever its command, its variables and its directory are.
Those that hold the character of number zero, with which nothing can be started, are left out, and
so is a caller that gives up meanwhile. -/
inductive Start where
  | refused (error : SystemError)
  | runs (script : Script)

/-- The start of a process that does nothing and succeeds. -/
def Start.idle : Start := .runs ⟨[], 0, false, false, false⟩

/-- The signals that stop a process. -/
inductive Signal where
  | term
  | kill
  deriving DecidableEq, Repr

namespace Signal

/-- The name of a signal. -/
def name : Signal → String
  | term => "TERM"
  | kill => "KILL"

/-- The exit status of a process that a signal ended. -/
def exitCode : Signal → Int
  | term => -15
  | kill => -9

end Signal

/-- A process that was to be started, as it is at the end. -/
structure Child where
  command : List String
  workdir : Option String
  environment : Fields
  /-- Whether it could be started. -/
  started : Bool
  /-- The signals sent to it. -/
  signals : List Signal
  /-- Its exit status, if it was started and has ended. -/
  exit : Option Int

/-- Whether a process is still running. -/
def Child.isRunning (c : Child) : Bool := c.started && c.exit.isNone

end BackupSteward.Engine
