import BackupSteward.Engine.Progress
import BackupSteward.Engine.Script

/-!
# Stopping a process

A process that is to be stopped is asked to terminate, and it is killed if it is still running
after a grace period.  The lines it writes meanwhile are read but not handled.
-/

namespace BackupSteward.Engine

/-- How long a process may take to terminate before it is killed, in seconds. -/
def graceSeconds : Rat := 5

/-- A process that was stopped. -/
structure Stopped (σ : Type) where
  progress : Progress σ
  signals : List Signal
  exit : Option Int
  /-- Whether the caller gave up again meanwhile. -/
  interrupted : Bool

/-- Kills a process that did not terminate in time. -/
def kill {σ : Type} (script : Script) (p : Progress σ) : Stopped σ where
  progress := { p with notices := p.notices ++ [.killed] }
  signals := [.term, .kill]
  exit := some (if script.goneAtKill then script.exitCode else Signal.kill.exitCode)
  interrupted := false

/-- Waits for a process that ignores the request to terminate; `left` is what is left of the
grace period. -/
def linger {σ : Type} (script : Script) : List Action → (left : Rat) → Progress σ → Stopped σ
  | [], _, p => ⟨p.ignoreEnd, [.term], some script.exitCode, false⟩
  | action :: rest, left, p =>
    match action with
    | .write pipe chunk =>
      linger script rest left (p.ignore pipe ((p.reader pipe).feed lineLimit chunk))
    | .failPipe pipe error => linger script rest left (p.ignore pipe ((p.reader pipe).fail error))
    | .closeOutput => linger script rest left p.ignoreEnd
    | .cancel => ⟨p, [.term], none, true⟩
    | .sleep seconds =>
      if seconds < left then linger script rest (left - seconds) p else kill script p
    | .hang => kill script p

/-- Stops a process. -/
def stop {σ : Type} (script : Script) (rest : List Action) (p : Progress σ) : Stopped σ :=
  if script.goneAtTerm then ⟨p, [.term], some script.exitCode, false⟩
  else if script.ignoresTerm then linger script rest graceSeconds p
  else ⟨p, [.term], some Signal.term.exitCode, false⟩

end BackupSteward.Engine
