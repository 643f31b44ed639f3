import BackupSteward.Engine.Framing
import BackupSteward.Log

/-!
# From the pipes to the handler

Each pipe has a pump that puts its lines into a queue, and an end mark behind them; a single
consumer takes them out again.  The queue is bounded: a pump waits while it is full, so that
output is never held as a whole.
-/

namespace BackupSteward.Engine

/-- How many entries the queue holds. -/
def queueCapacity : Nat := 256

/-- An entry of the queue. -/
inductive Entry where
  | line (pipe : Pipe) (text : String)
  | ended (pipe : Pipe)
  deriving DecidableEq, Repr

/-- The pumps and the queue. -/
structure Pipeline where
  /-- What has been read from the first pipe and not been put into the queue. -/
  out : List Frame
  /-- The same for the pipe of diagnostics. -/
  err : List Frame
  /-- The entries, the oldest first. -/
  queue : List Entry

namespace Pipeline

/-- Nothing has been read. -/
def start : Pipeline := ⟨[], [], []⟩

/-- What the pump of a pipe has still to do. -/
def pending (s : Pipeline) : Pipe → List Frame
  | .stdout => s.out
  | .stderr => s.err

/-- Replaces what the pump of a pipe has still to do. -/
def setPending (s : Pipeline) (pipe : Pipe) (frames : List Frame) : Pipeline :=
  match pipe with
  | .stdout => { s with out := frames }
  | .stderr => { s with err := frames }

/-- More has been read from a pipe. -/
def arrive (s : Pipeline) (pipe : Pipe) (frames : List Frame) : Pipeline :=
  s.setPending pipe (s.pending pipe ++ frames)

/-- Puts an entry into the queue, if there is room. -/
def enqueue? (s : Pipeline) (e : Entry) : Option Pipeline :=
  if s.queue.length < queueCapacity then some { s with queue := s.queue ++ [e] } else none

/-- The next step of a pump with what it tells the log; none when it has nothing to do or has
to wait. -/
def advance? (pipe : Pipe) (s : Pipeline) : Option (Pipeline × List Notice) :=
  match s.pending pipe with
  | [] => none
  | .tooLong :: rest => some (s.setPending pipe rest, [.lineTooLong pipe lineLimit])
  | .failed error :: rest => some (s.setPending pipe rest, [.pipeFailed pipe error.text])
  | .line text :: rest =>
    ((s.setPending pipe rest).enqueue? (.line pipe text)).map fun s => (s, [])
  | .finished :: rest =>
    ((s.setPending pipe rest).enqueue? (.ended pipe)).map fun s => (s, [])

/-- The steps of a pump, at most one for each of some frames. -/
def advanceMany (pipe : Pipe) : List Frame → Pipeline → Pipeline × List Notice
  | [], s => (s, [])
  | _ :: frames, s =>
    match s.advance? pipe with
    | none => (s, [])
    | some (s, notices) =>
      let (s, more) := advanceMany pipe frames s
      (s, notices ++ more)

/-- Lets a pump go on until it has nothing to do or has to wait. -/
def fill (s : Pipeline) (pipe : Pipe) : Pipeline × List Notice :=
  s.advanceMany pipe (s.pending pipe)

/-- The next step of the consumer: the oldest entry is taken out. -/
def take? (s : Pipeline) : Option (Entry × Pipeline) :=
  match s.queue with
  | [] => none
  | e :: rest => some (e, { s with queue := rest })

theorem pending_setPending (s : Pipeline) (p q : Pipe) (frames : List Frame) :
    (s.setPending p frames).pending q = if p = q then frames else s.pending q := by
  cases p <;> cases q <;> simp [setPending, pending]

@[simp]
theorem queue_setPending (s : Pipeline) (p : Pipe) (frames : List Frame) :
    (s.setPending p frames).queue = s.queue := by cases p <;> rfl

/-- No step of a pump lets the queue grow beyond its capacity. -/
theorem length_queue_advance? {s t : Pipeline} {p : Pipe} {notices : List Notice}
    (h : s.advance? p = some (t, notices)) (hs : s.queue.length ≤ queueCapacity) :
    t.queue.length ≤ queueCapacity := by
  unfold advance? at h
  split at h
  · cases h
  · cases h; simpa using hs
  · cases h; simpa using hs
  all_goals
    simp only [enqueue?, queue_setPending] at h
    split at h
    · simp only [Option.map_some, Option.some.injEq, Prod.mk.injEq] at h
      obtain ⟨rfl, -⟩ := h
      simp only [List.length_append, List.length_singleton]
      omega
    · simp at h

end Pipeline

end BackupSteward.Engine
