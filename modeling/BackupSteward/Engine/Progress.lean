import BackupSteward.Engine.Pipeline

/-!
# Handling the lines of a process

The lines of a process are given to a handler, one at a time and in the order of their arrival.
A handler may pause while it handles a line; a pump that waited for room in the queue goes on
meanwhile.  A handler may fail; then no further line is given to it.

A handler takes no time, with or without a pause: only what the process does is counted against
its deadline.  A handler that is slow, and so would bring the deadline about by itself, is left out.
-/

namespace BackupSteward.Engine

/-- How many diagnostic lines are kept for reports. -/
def diagnosticsKept : Nat := 50

/-- What a handler does with a line.  It takes no time. -/
structure Reaction (σ : Type) where
  state : σ
  /-- What it tells the log, up to its pause if it makes one. -/
  notices : List Notice
  /-- What it tells the log after its pause, if it makes one. -/
  resumed : Option (List Notice)
  /-- Why the handler failed, if it did. -/
  failure : Option Failure

/-- The line has been handled without a pause. -/
def Reaction.done {σ : Type} (state : σ) (notices : List Notice) : Reaction σ :=
  ⟨state, notices, none, none⟩

/-- A handler of lines. -/
abbrev Handler (σ : Type) := Pipe → String → σ → Reaction σ

/-- Adds a diagnostic line to those kept; an empty one is no diagnostic. -/
def remember (lines : List String) (text : String) : List String :=
  if text = "" then lines
  else
    let lines := lines ++ [text]
    lines.drop (lines.length - diagnosticsKept)

/-- A run up to some moment. -/
structure Progress (σ : Type) where
  /-- The state of the handler. -/
  state : σ
  out : LineReader
  err : LineReader
  pipeline : Pipeline
  /-- The last diagnostic lines that are not empty. -/
  diagnostics : List String
  notices : List Notice

namespace Progress

variable {σ : Type}

/-- Nothing has happened. -/
def start (state : σ) : Progress σ := ⟨state, .start, .start, .start, [], []⟩

/-- The reading end of a pipe. -/
def reader (p : Progress σ) : Pipe → LineReader
  | .stdout => p.out
  | .stderr => p.err

/-- Takes over what reading a pipe gave. -/
def arrive (p : Progress σ) (pipe : Pipe) (read : LineReader × List Frame) : Progress σ :=
  let p := { p with pipeline := p.pipeline.arrive pipe read.2 }
  match pipe with
  | .stdout => { p with out := read.1 }
  | .stderr => { p with err := read.1 }

/-- Lets the pump of a pipe go on. -/
def fill (p : Progress σ) (pipe : Pipe) : Progress σ :=
  let (pipeline, notices) := p.pipeline.fill pipe
  { p with pipeline, notices := p.notices ++ notices }

/-- Lets the pump of a pipe go on when nothing is in the queue, for then nothing else can. -/
def refill (p : Progress σ) (pipe : Pipe) : Progress σ :=
  if p.pipeline.queue.isEmpty then p.fill pipe else p

/-- Takes over what the handler did with a line.  While it pauses, the pump `pump` goes on. -/
def react (p : Progress σ) (pump : Pipe) (r : Reaction σ) : Progress σ :=
  let p := { p with state := r.state, notices := p.notices ++ r.notices }
  match r.resumed with
  | none => p
  | some notices =>
    let p := p.fill pump
    { p with notices := p.notices ++ notices }

/-- Keeps a line if it is a diagnostic one. -/
def keep (p : Progress σ) (pipe : Pipe) (text : String) : Progress σ :=
  match pipe with
  | .stdout => p
  | .stderr => { p with diagnostics := remember p.diagnostics text }

/-- Gives the entries of the queue to the handler, at most `turns` of them, while the pump of a
pipe puts more into it.  A pump that waited for room goes on once more after the handler has
failed. -/
def settle (handler : Handler σ) (pump : Pipe) : (turns : Nat) → Progress σ →
    Progress σ × Option Failure
  | 0, p => (p, none)
  | turns + 1, p =>
    let p := p.refill pump
    match p.pipeline.take? with
    | none => (p, none)
    | some (.ended _, pipeline) => settle handler pump turns { p with pipeline }
    | some (.line pipe text, pipeline) =>
      let r := handler pipe text p.state
      let p := (({ p with pipeline }).keep pipe text).react pump r
      match r.failure with
      | none => settle handler pump turns p
      | some failure => (p.fill pump, some failure)

/-- Takes over what reading a pipe gave, and handles it. -/
def handle (handler : Handler σ) (p : Progress σ) (pipe : Pipe) (read : LineReader × List Frame) :
    Progress σ × Option Failure :=
  let p := p.arrive pipe read
  p.settle handler pipe (p.pipeline.queue.length + (p.pipeline.pending pipe).length + 1)

/-- Both pipes end, first that of the output. -/
def handleEnd (handler : Handler σ) (p : Progress σ) : Progress σ × Option Failure :=
  match p.handle handler .stdout p.out.close with
  | (p, none) => p.handle handler .stderr p.err.close
  | failed => failed

/-- Takes over what reading a pipe gave while nobody handles lines any more. -/
def ignore (p : Progress σ) (pipe : Pipe) (read : LineReader × List Frame) : Progress σ :=
  (p.arrive pipe read).fill pipe

/-- Both pipes end while nobody handles lines any more. -/
def ignoreEnd (p : Progress σ) : Progress σ :=
  let p := p.ignore .stdout p.out.close
  p.ignore .stderr p.err.close

end Progress

end BackupSteward.Engine
