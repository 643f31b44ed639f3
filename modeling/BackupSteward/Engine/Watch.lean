import BackupSteward.Engine.Progress
import BackupSteward.Engine.Script

/-!
# Watching a process

A process is watched until both its pipes have ended and it has exited, or until there is a
cause to stop it: its deadline passes, the caller gives up, or the handler fails.  Time is
counted in exact seconds from the start of the process, and it passes only where the process lets
it pass; the handler takes none.
-/

namespace BackupSteward.Engine

/-- Why a process is stopped. -/
inductive Cause where
  | handlerFailed (failure : Failure)
  | deadline
  | cancelled
  /-- Nothing stops the process, and it does not end. -/
  | unending

/-- How watching a process ends: nothing is left to happen, or there is a cause to stop it. -/
structure Watched (σ : Type) where
  progress : Progress σ
  cause : Option Cause
  /-- What the process would do next. -/
  rest : List Action

/-- The end of watching after a step of the handler, and its continuation. -/
def Watched.orStop {σ : Type} (step : Progress σ × Option Failure) (rest : List Action)
    (next : Progress σ → Watched σ) : Watched σ :=
  match step with
  | (p, none) => next p
  | (p, some failure) => ⟨p, some (.handlerFailed failure), rest⟩

/-- Watches a process from the time `now` on until its deadline.  Handling a line does not move the
time. -/
def watch {σ : Type} (handler : Handler σ) (deadline : Option Rat) :
    List Action → (now : Rat) → Progress σ → Watched σ
  | [], _, p => .orStop (p.handleEnd handler) [] fun p => ⟨p, none, []⟩
  | action :: rest, now, p =>
    match action with
    | .write pipe chunk =>
      .orStop (p.handle handler pipe ((p.reader pipe).feed lineLimit chunk)) rest
        (watch handler deadline rest now)
    | .failPipe pipe error =>
      .orStop (p.handle handler pipe ((p.reader pipe).fail error)) rest
        (watch handler deadline rest now)
    | .closeOutput =>
      .orStop (p.handleEnd handler) (.closeOutput :: rest) (watch handler deadline rest now)
    | .cancel => ⟨p, some .cancelled, rest⟩
    | .sleep seconds =>
      match deadline with
      | none => watch handler deadline rest (now + seconds) p
      | some limit =>
        if now + seconds < limit then watch handler deadline rest (now + seconds) p
        else ⟨p, some .deadline, .sleep (now + seconds - limit) :: rest⟩
    | .hang =>
      match deadline with
      | none => ⟨p, some .unending, [.hang]⟩
      | some _ => ⟨p, some .deadline, [.hang]⟩

end BackupSteward.Engine
