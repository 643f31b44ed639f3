import BackupSteward.Engine.Diagnosis

/-!
# Sessions

What operations leave behind while they start one engine process after the other: the
processes, the log, and the text written for the caller.
-/

namespace BackupSteward.Engine

/-- The surroundings of some operations and what they have done so far. -/
structure Session where
  /-- The variables of the caller; every process gets them. -/
  environment : Fields
  /-- The name given to runs. -/
  invocation : String
  /-- What comes of the next starts of a process; behind these, processes do nothing. -/
  starts : List Start
  /-- The processes that were to be started, the oldest first. -/
  children : List Child
  /-- The log, the oldest notice first. -/
  log : List Notice
  /-- The text written for the caller. -/
  written : String

/-- Something done in a session: it may fail, and what it did before that remains. -/
abbrev Act (α : Type) := ExceptT Failure (StateM Session) α

namespace Session

/-- A session in which nothing has been done. -/
def begin (environment : Fields) (invocation : String) (starts : List Start) : Session :=
  ⟨environment, invocation, starts, [], [], ""⟩

/-- What comes of the next start. -/
def nextStart (s : Session) : Start := s.starts.headD .idle

/-- Adds to the log. -/
def note (s : Session) (notices : List Notice) : Session := { s with log := s.log ++ notices }

/-- Adds to the text for the caller. -/
def write (s : Session) (text : String) : Session := { s with written := s.written ++ text }

/-- Adds a run.  A run without a process leaves the starts as they are. -/
def add {σ : Type} (s : Session) (r : Run σ) : Session :=
  { s with
    starts := if r.child.isSome then s.starts.drop 1 else s.starts
    children := s.children ++ r.child.toList
    log := s.log ++ r.notices }

end Session

/-- What an operation asks of the engine. -/
structure Call where
  command : List String
  /-- The variables set for this call. -/
  environment : Fields
  workdir : Option Path
  /-- How many seconds the process may run; null when it may run for ever. -/
  deadline : Value
  operation : String

namespace Call

/-- The request for a call in a session. -/
def request (c : Call) (s : Session) : Request :=
  { command := c.command
    environment := Fields.putAll s.environment c.environment
    workdir := c.workdir.map Path.toString
    deadline := c.deadline
    operation := .str c.operation
    invocation := s.invocation }

/-- Runs a call in a session.  An engine that ends with a non-zero status has failed. -/
def run {σ : Type} (c : Call) (handler : Handler σ) (state : σ) (s : Session) :
    Except Failure Unit × σ × Session :=
  let r := (c.request s).run s.nextStart handler state
  let outcome := match r.outcome with
    | .ok finished => finished.check c.command s.invocation
    | .error failure => .error failure
  (outcome, r.state, s.add r)

end Call

namespace Act

/-- Adds a notice to the log. -/
def note (n : Notice) : Act Unit := modify (·.note [n])

/-- Writes text for the caller. -/
def write (text : String) : Act Unit := modify (·.write text)

/-- Runs a call and gives the state of its handler. -/
def call {σ : Type} (c : Call) (handler : Handler σ) (state : σ) : Act σ := do
  let (outcome, state, s) := c.run handler state (← get)
  set s
  match outcome with
  | .ok () => return state
  | .error failure => throw failure

end Act

/-- The handler that does nothing. -/
def Handler.silent : Handler Unit := fun _ _ state => .done state []

/-- What becomes of a line of plain output: it is written for the caller, if the caller takes
output, and goes to the log otherwise.  Blank lines are dropped. -/
def forward (takesOutput : Bool) (pipe : Pipe) (line : String) : String × List Notice :=
  if Text.blank line then ("", [])
  else if takesOutput then (line ++ "\n", [])
  else ("", [.output pipe line])

/-- The handler that forwards every line, with the text written so far as its state. -/
def Handler.forwarding (takesOutput : Bool) : Handler String := fun pipe line written =>
  let (text, notices) := forward takesOutput pipe line
  .done (written ++ text) notices

/-- The handler that collects the output lines, the latest first, and sends the diagnostics to
the log. -/
def Handler.collecting : Handler (List String) := fun pipe line lines =>
  match pipe with
  | .stdout => .done (line :: lines) []
  | .stderr => .done lines (forward false pipe line).2

end BackupSteward.Engine
