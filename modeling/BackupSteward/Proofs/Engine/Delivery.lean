import BackupSteward.Proofs.Engine.Session
import BackupSteward.Proofs.Engine.Transit
import Mathlib.Logic.Function.Basic

/-!
# What a handler is given

A run hands the lines of its process on through pumps, a queue and a loop that takes turns.  The
file shows what comes of this: the handler is given, in the order of their arrival, the lines that
are read before time is up or the caller gives up, up to the first one that it fails on.  When that
happens depends on the actions of the process and the deadline, and not on the handler.
-/

namespace BackupSteward.Engine

variable {σ : Type}

/-- Gives lines to a handler, from the first to the last or to the one that it fails on. -/
def Handler.through (handler : Handler σ) : List (Pipe × String) → σ → σ × Option Failure
  | [], state => (state, none)
  | (pipe, text) :: lines, state =>
    let r := handler pipe text state
    match r.failure with
    | none => through handler lines r.state
    | some failure => (r.state, some failure)

lemma Handler.through_append (handler : Handler σ) (lines more : List (Pipe × String)) (state : σ) :
    handler.through (lines ++ more) state =
      match handler.through lines state with
      | (state, none) => handler.through more state
      | failed => failed := by
  induction lines generalizing state with
  | nil => rfl
  | cons line lines ih =>
    obtain ⟨pipe, text⟩ := line
    rw [List.cons_append, through, through]
    cases (handler pipe text state).failure with
    | none => exact ih _
    | some failure => rfl

/-- The diagnostic lines that are kept for reports behind some more lines. -/
def keptBehind (lines : List (Pipe × String)) (kept : List String) : List String :=
  lines.foldl (fun kept line => if line.1 = .stderr then remember kept line.2 else kept) kept

lemma keptBehind_append (lines more : List (Pipe × String)) (kept : List String) :
    keptBehind (lines ++ more) kept = keptBehind more (keptBehind lines kept) := List.foldl_append

/-! ### One read -/

namespace Progress

variable (handler : Handler σ)

/-- Only the pump of a pipe has gone on. -/
structure Filled (pump : Pipe) (p q : Progress σ) : Prop where
  carried : Pipeline.Carried pump p.pipeline q.pipeline
  state : q.state = p.state
  reader : q.reader = p.reader
  diagnostics : q.diagnostics = p.diagnostics

lemma filled_fill (p : Progress σ) (pump : Pipe) : Filled pump p (p.fill pump) where
  carried := Pipeline.carried_fill p.pipeline pump
  state := rfl
  reader := rfl
  diagnostics := rfl

/-- When the queue is empty then all that has been read has been handled. -/
lemma filled_refill (p : Progress σ) (pump : Pipe) : Filled pump p (p.refill pump) ∧
    ((p.refill pump).pipeline.queue = [] → (p.refill pump).pipeline.pending pump = []) := by
  unfold refill
  split
  · refine ⟨p.filled_fill pump, fun hqueue => ?_⟩
    rcases Pipeline.pending_fill p.pipeline pump with hnil | hfull
    · exact hnil
    · have hqueue : (p.pipeline.fill pump).1.queue = [] := hqueue
      rw [hqueue] at hfull
      exact absurd hfull (by decide)
  case isFalse hsome =>
    exact ⟨⟨.refl pump _, rfl, rfl, rfl⟩, fun hnil => absurd (by rw [hnil]; rfl) hsome⟩

lemma filled_react (p : Progress σ) (pump : Pipe) (r : Reaction σ) :
    Filled pump { p with state := r.state } (p.react pump r) := by
  unfold react
  cases r.resumed with
  | none => exact ⟨.refl pump _, rfl, rfl, rfl⟩
  | some notices => exact ⟨Pipeline.carried_fill p.pipeline pump, rfl, rfl, rfl⟩

/-- A handler in some state was given some lines, with the pipes read up to some point; if it took
all the lines then nothing is left to do, and the diagnostic ones among them have been kept. -/
structure Told (handler : Handler σ) (lines : List (Pipe × String)) (state : σ)
    (readers : Pipe → LineReader) (kept : List String) (out : Progress σ × Option Failure) :
    Prop where
  through : (out.1.state, out.2) = handler.through lines state
  reader : out.1.reader = readers
  settled : out.2 = none → out.1.pipeline = .start
  diagnostics : out.2 = none → out.1.diagnostics = keptBehind lines kept

section

variable {handler : Handler σ} {pipe : Pipe} {text : String} {lines : List (Pipe × String)}
  {state : σ} {readers : Pipe → LineReader} {kept : List String}

lemma Told.cons {out : Progress σ × Option Failure}
    (hhandled : (handler pipe text state).failure = none)
    (h : Told handler lines (handler pipe text state).state readers
      (keptBehind [(pipe, text)] kept) out) :
    Told handler ((pipe, text) :: lines) state readers kept out where
  through := by
    rw [Handler.through, hhandled]
    exact h.through
  reader := h.reader
  settled := h.settled
  diagnostics := h.diagnostics

/-- Behind the line that the handler fails on it is given no other. -/
lemma told_of_failure {failure : Failure} {p : Progress σ}
    (hfails : (handler pipe text state).failure = some failure)
    (hstate : p.state = (handler pipe text state).state) (hreader : p.reader = readers) :
    Told handler ((pipe, text) :: lines) state readers kept (p, some failure) where
  through := by
    rw [Handler.through, hfails, ← hstate]
  reader := hreader
  settled h := nomatch h
  diagnostics h := nomatch h

end

/-- Keeping a line does nothing else. -/
lemma keep_spec (p : Progress σ) (pipe : Pipe) (text : String) :
    (p.keep pipe text).pipeline = p.pipeline ∧ (p.keep pipe text).reader = p.reader ∧
      (p.keep pipe text).diagnostics = keptBehind [(pipe, text)] p.diagnostics := by
  cases pipe <;> exact ⟨rfl, rfl, rfl⟩

lemma eq_start {s : Pipeline} {pump : Pipe} (hqueue : s.queue = []) (hself : s.pending pump = [])
    (hother : s.pending pump.other = []) : s = .start := by
  obtain ⟨out, err, queue⟩ := s
  cases pump <;> cases hqueue <;> cases hself <;> cases hother <;> rfl

/-- The loop takes enough turns to hand on all that is in the queue or will come into it. -/
lemma told_settle (pump : Pipe) (turns : Nat) (p : Progress σ)
    (hother : p.pipeline.pending pump.other = [])
    (hturns : p.pipeline.queue.length + (p.pipeline.pending pump).length < turns) :
    Told handler ((p.pipeline.backlog pump).filterMap Entry.line?) p.state p.reader p.diagnostics
      (p.settle handler pump turns) := by
  induction turns generalizing p with
  | zero => exact absurd hturns (Nat.not_lt_zero _)
  | succ turns ih =>
    obtain ⟨⟨hcarried, hstate, hreader, hkept⟩, hempty⟩ := p.filled_refill pump
    unfold settle
    dsimp only
    generalize p.refill pump = q at hcarried hstate hreader hkept hempty
    have hload := hcarried.load
    have hother : q.pipeline.pending pump.other = [] := hcarried.other.trans hother
    rw [← hcarried.backlog, ← hstate, ← hreader, ← hkept]
    rcases htake : q.pipeline.take? with _ | ⟨e, pipeline⟩
    · have hqueue := Pipeline.queue_of_take?_eq_none htake
      have hpending := hempty hqueue
      rw [Pipeline.backlog, Pipeline.ahead, hqueue, hpending]
      exact ⟨rfl, rfl, fun _ => eq_start hqueue hpending hother, fun _ => rfl⟩
    -- an entry has been taken, and what is left is less by one
    have htaken := Pipeline.taken_of_take? htake
    rw [htaken.queue, ← htaken.pending, List.length_cons] at hload
    rw [← htaken.pending] at hother
    rw [htaken.backlog_eq]
    cases e with
    | ended pipe => exact ih { q with pipeline } hother (by dsimp only; omega)
    | line pipe text =>
      rw [List.filterMap_cons_some (Entry.line?_line pipe text)]
      obtain ⟨hpipeline, hreader', hkept'⟩ := keep_spec { q with pipeline } pipe text
      dsimp only at hpipeline hreader' hkept' ⊢
      generalize (({ q with pipeline } : Progress σ).keep pipe text) = k
        at hpipeline hreader' hkept'
      subst hpipeline
      obtain ⟨hcarried', hstate', hreader'', hkept''⟩ :=
        k.filled_react pump (handler pipe text q.state)
      generalize k.react pump (handler pipe text q.state) = u at hcarried' hstate' hreader'' hkept''
      cases hfails : (handler pipe text q.state).failure with
      | some failure => exact told_of_failure hfails hstate' (hreader''.trans hreader')
      | none =>
        have hload' := hcarried'.load
        have htold := ih u (hcarried'.other.trans hother) (by dsimp only at hload'; omega)
        rw [hcarried'.backlog, hstate', hreader'', hkept''] at htold
        exact .cons hfails (hreader' ▸ hkept' ▸ htold)

lemma reader_arrive (p : Progress σ) (pipe : Pipe) (read : LineReader × List Frame) :
    (p.arrive pipe read).reader = Function.update p.reader pipe read.1 := by
  funext other
  cases pipe <;> cases other <;> rfl

/-- Of what is read, the lines are handed on, in their order. -/
lemma told_handle {p : Progress σ} (hp : p.pipeline = .start) (pipe : Pipe)
    (read : LineReader × List Frame) :
    Told handler ((read.2.filterMap Frame.text?).map (pipe, ·)) p.state
      (Function.update p.reader pipe read.1) p.diagnostics (p.handle handler pipe read) := by
  have harrived : (p.arrive pipe read).pipeline = Pipeline.start.setPending pipe read.2 := by
    cases pipe <;> simp [arrive, Pipeline.arrive, hp, Pipeline.start, Pipeline.pending]
  have hother : (p.arrive pipe read).pipeline.pending pipe.other = [] := by
    rw [harrived, Pipeline.pending_setPending_other]
    cases pipe <;> rfl
  have hlines : ((p.arrive pipe read).pipeline.backlog pipe).filterMap Entry.line? =
      (read.2.filterMap Frame.text?).map (pipe, ·) := by
    have hqueue : Pipeline.start.queue = [] := rfl
    rw [harrived, Pipeline.backlog, Pipeline.queue_setPending, hqueue, List.nil_append,
      Pipeline.lines_ahead, Pipeline.pending_setPending_self]
  have hstate : (p.arrive pipe read).state = p.state ∧
      (p.arrive pipe read).diagnostics = p.diagnostics := by cases pipe <;> exact ⟨rfl, rfl⟩
  have htold := told_settle handler pipe _ (p.arrive pipe read) hother (Nat.lt_succ_self _)
  rwa [hlines, hstate.1, hstate.2, reader_arrive] at htold

end Progress

/-! ### Several reads -/

/-- A read from a pipe: what it does to the reading end, and what comes out. -/
abbrev Read := Pipe × (LineReader → LineReader × List Frame)

/-- The lines that some reads give, one after the other. -/
def linesOf : List Read → (readers : Pipe → LineReader) → List (Pipe × String)
  | [], _ => []
  | (pipe, read) :: reads, readers =>
    ((read (readers pipe)).2.filterMap Frame.text?).map (pipe, ·) ++
      linesOf reads (Function.update readers pipe (read (readers pipe)).1)

/-- The reading ends after some reads. -/
def readersAfter : List Read → (readers : Pipe → LineReader) → Pipe → LineReader
  | [], readers => readers
  | (pipe, read) :: reads, readers =>
    readersAfter reads (Function.update readers pipe (read (readers pipe)).1)

lemma linesOf_append (reads more : List Read) (readers : Pipe → LineReader) :
    linesOf (reads ++ more) readers =
      linesOf reads readers ++ linesOf more (readersAfter reads readers) := by
  induction reads generalizing readers with
  | nil => rfl
  | cons read reads ih =>
    obtain ⟨pipe, read⟩ := read
    rw [List.cons_append, linesOf, linesOf, readersAfter, ih, List.append_assoc]

lemma linesOf_front {reads more : List Read} (h : reads <+: more) (readers : Pipe → LineReader) :
    linesOf reads readers <+: linesOf more readers := by
  obtain ⟨later, rfl⟩ := h
  rw [linesOf_append]
  exact List.prefix_append _ _

/-- Both pipes end, first that of the output. -/
def bothEnd : List Read := [(.stdout, LineReader.close), (.stderr, LineReader.close)]

/-- The reads that an action of a process gives rise to. -/
def Action.reads : Action → List Read
  | .write pipe chunk => [(pipe, (·.feed lineLimit chunk))]
  | .failPipe pipe error => [(pipe, (·.fail error))]
  | .closeOutput => bothEnd
  | .sleep _ | .hang | .cancel => []

namespace Progress

variable (handler : Handler σ)

/-- Takes over what some reads give, and handles it. -/
def hear : List Read → Progress σ → Progress σ × Option Failure
  | [], p => (p, none)
  | (pipe, read) :: reads, p =>
    match p.handle handler pipe (read (p.reader pipe)) with
    | (p, none) => hear reads p
    | failed => failed

lemma hear_single (pipe : Pipe) (read : LineReader → LineReader × List Frame) (p : Progress σ) :
    hear handler [(pipe, read)] p = p.handle handler pipe (read (p.reader pipe)) := by
  unfold hear
  split
  case h_1 q hq => rw [hq, hear]
  case h_2 => rfl

lemma hear_bothEnd (p : Progress σ) : hear handler bothEnd p = p.handleEnd handler := by
  rw [bothEnd, hear, handleEnd]
  rcases hout : p.handle handler .stdout p.out.close with ⟨q, _ | failure⟩
  · rw [reader, hout]
    exact hear_single handler .stderr LineReader.close q
  · rw [reader, hout]

/-- The lines of all reads are handed on, and if the handler takes them then nothing is left to do,
and the diagnostic ones have been kept. -/
lemma hear_spec {p : Progress σ} (hp : p.pipeline = .start) (reads : List Read) :
    ((hear handler reads p).1.state, (hear handler reads p).2) =
      handler.through (linesOf reads p.reader) p.state ∧
    ((hear handler reads p).2 = none → (hear handler reads p).1.pipeline = .start ∧
      (hear handler reads p).1.reader = readersAfter reads p.reader ∧
      (hear handler reads p).1.diagnostics =
        keptBehind (linesOf reads p.reader) p.diagnostics) := by
  induction reads generalizing p with
  | nil => exact ⟨rfl, fun _ => ⟨hp, rfl, rfl⟩⟩
  | cons read reads ih =>
    obtain ⟨pipe, read⟩ := read
    have htold := told_handle handler hp pipe (read (p.reader pipe))
    rw [hear, linesOf, readersAfter, Handler.through_append, keptBehind_append, ← htold.through]
    rcases hhandle : p.handle handler pipe (read (p.reader pipe)) with ⟨q, _ | failure⟩ <;>
      rw [hhandle] at htold
    · have hq := ih (htold.settled rfl)
      rw [htold.reader, htold.diagnostics rfl] at hq
      exact hq
    · exact ⟨rfl, fun h => nomatch h⟩

end Progress

/-! ### Time and the caller -/

/-- What is heard of a process, whatever is done with it. -/
structure Timeline where
  /-- The reads until there is a cause to stop the process, or until it has ended. -/
  reads : List Read
  /-- The cause, unless the process has ended by itself. -/
  cause : Option Cause
  /-- What the process would do next. -/
  rest : List Action

/-- The lines that are heard of a process. -/
def Timeline.lines (t : Timeline) : List (Pipe × String) := linesOf t.reads fun _ => .start

/-- What is heard of a process from the time `now` on until its deadline. -/
def timeline (deadline : Option Rat) : List Action → (now : Rat) → Timeline
  | [], _ => ⟨bothEnd, none, []⟩
  | .cancel :: rest, _ => ⟨[], some .cancelled, rest⟩
  | .hang :: _, _ => ⟨[], some (if deadline.isSome then .deadline else .unending), [.hang]⟩
  | .sleep seconds :: rest, now =>
    match deadline with
    | none => timeline none rest (now + seconds)
    | some limit =>
      if now + seconds < limit then timeline (some limit) rest (now + seconds)
      else ⟨[], some .deadline, .sleep (now + seconds - limit) :: rest⟩
  | action :: rest, now =>
    let t := timeline deadline rest now
    { t with reads := action.reads ++ t.reads }

/-- Some reads go before what is heard then. -/
def Timeline.behind (t : Timeline) (reads : List Read) : Timeline :=
  { t with reads := reads ++ t.reads }

lemma Timeline.behind_behind (t : Timeline) (reads more : List Read) :
    (t.behind more).behind reads = t.behind (reads ++ more) := by
  simp [behind]

/-- Nothing is heard while a process sleeps and its deadline does not pass. -/
lemma timeline_sleep {deadline : Option Rat} {seconds now : Rat} (rest : List Action)
    (h : ∀ limit ∈ deadline, now + seconds < limit) :
    timeline deadline (.sleep seconds :: rest) now = timeline deadline rest (now + seconds) := by
  cases deadline with
  | none => rfl
  | some limit => rw [timeline, if_pos (h limit rfl)]

/-- What the first action does to a timeline: nothing but to give rise to some reads and to take
some time, or it ends the timeline. -/
inductive TimelineStep (deadline : Option Rat) (rest : List Action) : Action → Timeline → Prop
  | goesOn {action : Action} (later : Rat) :
    TimelineStep deadline rest action ((timeline deadline rest later).behind action.reads)
  | givesUp : TimelineStep deadline rest .cancel ⟨[], some .cancelled, rest⟩
  | hangs {cause : Cause} (hcause : cause = .deadline ∨ cause = .unending) :
    TimelineStep deadline rest .hang ⟨[], some cause, [.hang]⟩
  | late (seconds left : Rat) :
    TimelineStep deadline rest (.sleep seconds) ⟨[], some .deadline, .sleep left :: rest⟩

lemma timelineStep_cons (deadline : Option Rat) (action : Action) (rest : List Action) (now : Rat) :
    TimelineStep deadline rest action (timeline deadline (action :: rest) now) := by
  cases action with
  | write pipe chunk => exact .goesOn now
  | failPipe pipe error => exact .goesOn now
  | closeOutput => exact .goesOn now
  | cancel => exact .givesUp
  | hang =>
    cases deadline with
    | none => exact .hangs (.inr rfl)
    | some limit => exact .hangs (.inl rfl)
  | sleep seconds =>
    cases deadline with
    | none => exact .goesOn (now + seconds)
    | some limit =>
      rw [timeline]
      split
      · exact .goesOn (now + seconds)
      · exact .late seconds _

/-- The end of watching a process whose lines were told to a handler: if the handler has taken them
all then it has no influence on the end, and some diagnostic lines have been kept. -/
structure Follows (told : σ × Option Failure) (cause : Option Cause) (rest : List Action)
    (kept : List String) (w : Watched σ) : Prop where
  state : w.progress.state = told.1
  taken : told.2 = none → w.cause = cause ∧ w.rest = rest ∧ w.progress.diagnostics = kept
  failed (failure : Failure) : told.2 = some failure → w.cause = some (.handlerFailed failure)

lemma follows_at_once (p : Progress σ) (cause : Option Cause) (rest : List Action) :
    Follows (p.state, none) cause rest p.diagnostics ⟨p, cause, rest⟩ where
  state := rfl
  taken _ := ⟨rfl, rfl, rfl⟩
  failed _ h := nomatch h

/-- Some reads go before what is heard then. -/
lemma Follows.hear (handler : Handler σ) {p : Progress σ} (hp : p.pipeline = .start)
    (reads : List Read) (stopped : List Action) {later : List Read} {cause : Option Cause}
    {rest : List Action} {next : Progress σ → Watched σ}
    (hnext : ∀ q : Progress σ, q.pipeline = .start →
      Follows (handler.through (linesOf later q.reader) q.state) cause rest
        (keptBehind (linesOf later q.reader) q.diagnostics) (next q)) :
    Follows (handler.through (linesOf (reads ++ later) p.reader) p.state) cause rest
      (keptBehind (linesOf (reads ++ later) p.reader) p.diagnostics)
      (.orStop (p.hear handler reads) stopped next) := by
  obtain ⟨hthrough, hsettled⟩ := Progress.hear_spec handler hp reads
  rw [linesOf_append, Handler.through_append, keptBehind_append, ← hthrough]
  rcases hhear : p.hear handler reads with ⟨q, _ | failure⟩ <;> rw [hhear] at hsettled
  · obtain ⟨hq, hreader, hkept⟩ := hsettled rfl
    rw [← hreader, ← hkept]
    exact hnext q hq
  · refine ⟨rfl, fun h => (nomatch h), fun other h => ?_⟩
    cases h
    rfl

/-- Watching a process follows its timeline. -/
theorem follows_watch (handler : Handler σ) (deadline : Option Rat) (actions : List Action)
    (now : Rat) {p : Progress σ} (hp : p.pipeline = .start) :
    let t := timeline deadline actions now
    Follows (handler.through (linesOf t.reads p.reader) p.state) t.cause t.rest
      (keptBehind (linesOf t.reads p.reader) p.diagnostics)
      (watch handler deadline actions now p) := by
  induction actions generalizing now p with
  | nil =>
    have hsilent (q : Progress σ) : Follows (handler.through (linesOf [] q.reader) q.state) none []
        (keptBehind (linesOf [] q.reader) q.diagnostics) ⟨q, none, []⟩ := follows_at_once q none []
    have hend := Follows.hear handler hp bothEnd [] fun q _ => hsilent q
    rwa [Progress.hear_bothEnd] at hend
  | cons action rest ih =>
    have hnext (stopped : List Action) :=
      Follows.hear handler hp action.reads stopped fun q hq => ih now hq
    cases action with
    | write pipe chunk =>
      have hwrite := hnext rest
      rwa [Action.reads, Progress.hear_single] at hwrite
    | failPipe pipe error =>
      have hfail := hnext rest
      rwa [Action.reads, Progress.hear_single] at hfail
    | closeOutput =>
      have hclose := hnext (.closeOutput :: rest)
      rwa [Action.reads, Progress.hear_bothEnd] at hclose
    | cancel => exact follows_at_once p _ _
    | hang => cases deadline <;> exact follows_at_once p _ _
    | sleep seconds =>
      cases deadline with
      | none => exact ih (now + seconds) hp
      | some limit =>
        by_cases hintime : now + seconds < limit
        · simp only [timeline, watch, hintime, if_true]
          exact ih (now + seconds) hp
        · simp only [timeline, watch, hintime, if_false]
          exact follows_at_once p _ _

/-- What is heard of a process within a limit, if there is one; of a process whose limit passes at
once nothing is heard. -/
def timelineWithin (limit : Option Seconds) (actions : List Action) : Timeline :=
  if (limit.map Seconds.passesAtOnce).getD false then ⟨[], some .deadline, actions⟩
  else timeline (limit.bind Seconds.toRat?) actions 0

/-- Watching the process of a request follows its timeline. -/
theorem follows_watched (r : Request) (operation : Value) (limit : Option Seconds)
    (script : Script) (handler : Handler σ) (state : σ) :
    let t := timelineWithin limit script.actions
    Follows (handler.through t.lines state) t.cause t.rest (keptBehind t.lines [])
      (r.watched operation limit script handler state) := by
  intro t
  let p : Progress σ := { Progress.start state with notices := [.started operation r.command] }
  have hreader : p.reader = fun _ => .start := by
    funext pipe
    cases pipe <;> rfl
  have hwatched : r.watched operation limit script handler state =
      Request.watchWithin limit script handler p := rfl
  rw [hwatched, Timeline.lines, ← hreader]
  unfold Request.watchWithin
  simp only [t, timelineWithin]
  split
  · exact follows_at_once p _ _
  · exact follows_watch handler _ script.actions 0 (p := p) rfl

end BackupSteward.Engine
