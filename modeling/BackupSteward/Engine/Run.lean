import BackupSteward.Engine.Stop
import BackupSteward.Engine.Watch
import BackupSteward.Number.Seconds

/-!
# Running the engine

A run starts a process, watches it, and stops it where there is a cause.  It ends with the exit
status of the process and its last diagnostic lines, or with the failure that the cause of
stopping makes.

What comes of starting the process is given, and is not found from the request: a character of
number zero in the command, the variables or the directory is not refused here.  No one gives up
while the process is being started, and its pipes do not outlive it.
-/

namespace BackupSteward.Engine

/-- How to run an engine process. -/
structure Request where
  /-- The executable and its arguments. -/
  command : List String
  /-- All variables of the process. -/
  environment : Fields
  workdir : Option String
  /-- How many seconds the process may run; null when it may run for ever. -/
  deadline : Value
  /-- The short name of what the process does; if it is not given the command gives it. -/
  operation : Value
  /-- A name for this one run. -/
  invocation : String

/-- An engine process that ended by itself. -/
structure Finished where
  exitCode : Int
  /-- Its last diagnostic lines. -/
  diagnostics : List String
  deriving DecidableEq, Repr

/-- A run with all that can be seen of it. -/
structure Run (σ : Type) where
  outcome : Except Failure Finished
  state : σ
  notices : List Notice
  child : Option Child

/-- The subcommand of a command, or its executable when there is none. -/
def subcommand? {α : Type} : List α → Option α
  | _ :: subcommand :: _ => some subcommand
  | [binary] => some binary
  | [] => none

namespace Request

/-- The short name of what the process does.  There is nothing to run in an empty command. -/
def operationName (r : Request) : Except Fault Value :=
  if !r.operation.truthy then (subcommand? r.command).elim (.error .badIndex) (.ok ∘ .str)
  else if r.command.isEmpty then .error .badType
  else .ok r.operation

/-- How long the process may run, if there is a limit.  It has to be a number that can be added
to a clock reading. -/
def limit? (r : Request) : Except Fault (Option Seconds) :=
  match r.deadline with
  | .null => .ok none
  | v => do
    let limit ← Seconds.ofValue v
    if limit.inRange then return some limit else throw .overflow

/-- The failure that a cause of stopping makes, and what it tells the log. -/
def failureOf (r : Request) (operation : Value) : Cause → Failure × List Notice
  | .handlerFailed failure => (failure, [])
  | .cancelled => (.callerCancelled operation.text r.command r.invocation, [.cancelled operation])
  | .unending => (.unending, [])
  | .deadline =>
    let given := if r.deadline.truthy then r.deadline else .int 0
    let notices := [Notice.deadlineExceeded operation r.deadline]
    match (Seconds.ofValue given).bind Seconds.prose with
    | .ok words => (.deadlineExceeded operation.text words r.command r.invocation, notices)
    | .error f => (.fault f, notices)

/-- The process of a request that was started, as it is at the end. -/
def child (r : Request) (signals : List Signal) (exit : Option Int) : Child :=
  ⟨r.command, r.workdir, r.environment, true, signals, exit⟩

/-- The process of a request that could not be started. -/
def refusedChild (r : Request) : Child :=
  ⟨r.command, r.workdir, r.environment, false, [], none⟩

/-- Stops the process of a request for a cause. -/
def halt {σ : Type} (r : Request) (script : Script) (failure : Failure) (rest : List Action)
    (p : Progress σ) : Run σ :=
  let s := stop script rest p
  { outcome := .error (if s.interrupted then .interrupted else failure)
    state := s.progress.state
    notices := s.progress.notices
    child := some (r.child s.signals s.exit) }

/-- Watches a process within a limit, if there is one; a limit that passes at once is a cause to
stop the process before it has done anything. -/
def watchWithin {σ : Type} (limit : Option Seconds) (script : Script) (handler : Handler σ)
    (p : Progress σ) : Watched σ :=
  if (limit.map Seconds.passesAtOnce).getD false then ⟨p, some .deadline, script.actions⟩
  else watch handler (limit.bind Seconds.toRat?) script.actions 0 p

/-- Runs a process that has been started. -/
def runScript {σ : Type} (r : Request) (operation : Value) (script : Script)
    (handler : Handler σ) (state : σ) : Run σ :=
  let p := { Progress.start state with notices := [.started operation r.command] }
  match r.limit? with
  | .error f => r.halt script (.fault f) script.actions p
  | .ok limit =>
    let w := watchWithin limit script handler p
    match w.cause with
    | none =>
      { outcome := .ok ⟨script.exitCode, w.progress.diagnostics⟩
        state := w.progress.state
        notices := w.progress.notices ++ [.exited operation script.exitCode]
        child := some (r.child [] (some script.exitCode)) }
    | some .unending =>
      { outcome := .error .unending
        state := w.progress.state
        notices := w.progress.notices
        child := some (r.child [] none) }
    | some cause =>
      let (failure, notices) := r.failureOf operation cause
      r.halt script failure w.rest { w.progress with notices := w.progress.notices ++ notices }

/-- Runs the engine, given what comes of starting it. -/
def run {σ : Type} (r : Request) (start : Start) (handler : Handler σ) (state : σ) : Run σ :=
  match r.operationName with
  | .error fault => ⟨.error (.fault fault), state, [], none⟩
  | .ok operation =>
    match start with
    | .refused error =>
      { outcome := .error (.notStarted r.command error)
        state
        notices := [.startFailed operation r.command error.text]
        child := some r.refusedChild }
    | .runs script => r.runScript operation script handler state

end Request

end BackupSteward.Engine
