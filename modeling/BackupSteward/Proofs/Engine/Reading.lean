import BackupSteward.Proofs.Engine.Framing
import BackupSteward.Proofs.Engine.Given
import Mathlib.Data.List.TakeWhile

/-!
# What is read of a pipe

A process writes to two pipes, takes its time, and may be stopped at any moment.  The file takes one
pipe out of such a run: the lines of that pipe which the handler is given are those that its chunks
make, as far as they are read before the process is stopped.  What the other pipe carries, how the
writes are cut and when they come has no influence.
-/

namespace BackupSteward.Engine

open BackupSteward.Text (Bytes)

variable {σ : Type}

/-! ### One of the pipes -/

/-- Whether the pipes end with an action. -/
def Action.closes : Action → Bool
  | .closeOutput => true
  | _ => false

/-- The chunk that an action writes to a pipe, if it does. -/
def Action.chunk? (pipe : Pipe) : Action → Option Bytes
  | .write p chunk => if p = pipe then some chunk else none
  | _ => none

lemma Action.chunk?_write_self (pipe : Pipe) (chunk : Bytes) :
    Action.chunk? pipe (.write pipe chunk) = some chunk := if_pos rfl

lemma Action.chunk?_write_other {p pipe : Pipe} (h : p ≠ pipe) (chunk : Bytes) :
    Action.chunk? pipe (.write p chunk) = none := if_neg h

/-- What a process does while its pipes are open. -/
def Script.speaking (script : Script) : List Action := script.actions.takeWhile (!·.closes)

/-- The chunks that a process writes to a pipe. -/
def Script.output (script : Script) (pipe : Pipe) : List Bytes :=
  script.speaking.filterMap (Action.chunk? pipe)

/-- The texts of those lines that come from a pipe. -/
def textsFrom (pipe : Pipe) (lines : List (Pipe × String)) : List String :=
  (lines.filter (·.1 = pipe)).map (·.2)

/-- Those reads that are from a pipe. -/
def readsFrom (pipe : Pipe) (reads : List Read) : List (LineReader → LineReader × List Frame) :=
  reads.filterMap fun read => if read.1 = pipe then some read.2 else none

/-- What comes out of a pipe with some reads. -/
def framesOf : List (LineReader → LineReader × List Frame) → LineReader → List Frame
  | [], _ => []
  | read :: reads, r => (read r).2 ++ framesOf reads (read r).1

/-- Nothing comes out of a pipe that has ended. -/
def QuietAtEnd (reads : List Read) : Prop :=
  ∀ read ∈ reads, ∀ r : LineReader, r.isOpen = false → read.2 r = (r, [])

lemma textsFrom_map_self (pipe : Pipe) (texts : List String) :
    textsFrom pipe (texts.map (pipe, ·)) = texts := by
  simp [textsFrom, List.filter_map, Function.comp_def]

lemma textsFrom_map_other {p pipe : Pipe} (h : p ≠ pipe) (texts : List String) :
    textsFrom pipe (texts.map (p, ·)) = [] := by
  simp [textsFrom, List.filter_map, Function.comp_def, h]

lemma textsFrom_append (pipe : Pipe) (lines more : List (Pipe × String)) :
    textsFrom pipe (lines ++ more) = textsFrom pipe lines ++ textsFrom pipe more := by
  simp [textsFrom]

lemma textsFrom_front (pipe : Pipe) {lines more : List (Pipe × String)} (h : lines <+: more) :
    textsFrom pipe lines <+: textsFrom pipe more := (h.filter _).map _

lemma readsFrom_cons_self (pipe : Pipe) (read : LineReader → LineReader × List Frame)
    (reads : List Read) :
    readsFrom pipe ((pipe, read) :: reads) = read :: readsFrom pipe reads := by
  simp [readsFrom]

lemma readsFrom_cons_other {p pipe : Pipe} (h : p ≠ pipe)
    (read : LineReader → LineReader × List Frame) (reads : List Read) :
    readsFrom pipe ((p, read) :: reads) = readsFrom pipe reads := by
  simp [readsFrom, h]

/-- The lines of one pipe are told by its reads alone. -/
lemma textsFrom_linesOf (pipe : Pipe) (reads : List Read) (readers : Pipe → LineReader) :
    textsFrom pipe (linesOf reads readers) =
      (framesOf (readsFrom pipe reads) (readers pipe)).filterMap Frame.text? := by
  induction reads generalizing readers with
  | nil => rfl
  | cons read reads ih =>
    obtain ⟨p, read⟩ := read
    rw [linesOf, textsFrom_append, ih]
    by_cases hp : p = pipe
    · subst hp
      rw [textsFrom_map_self, readsFrom_cons_self, framesOf, List.filterMap_append,
        Function.update_self]
    · rw [textsFrom_map_other hp, readsFrom_cons_other hp, List.nil_append,
        Function.update_of_ne (Ne.symm hp)]

/-! ### The end of a pipe -/

lemma quietAtEnd_reads (action : Action) : QuietAtEnd action.reads := by
  have hclose : QuietAtEnd bothEnd := by
    intro read hread r hr
    simp only [bothEnd, List.mem_cons, List.not_mem_nil, or_false] at hread
    rcases hread with rfl | rfl <;> simp [LineReader.close, hr]
  cases action with
  | closeOutput => exact hclose
  | write pipe chunk =>
    intro read hread r hr
    rw [List.mem_singleton.1 hread]
    simp [LineReader.feed, hr]
  | failPipe pipe error =>
    intro read hread r hr
    rw [List.mem_singleton.1 hread]
    simp [LineReader.fail, hr]
  | _ => exact List.forall_mem_nil _

lemma QuietAtEnd.append {reads more : List Read} (h : QuietAtEnd reads) (hmore : QuietAtEnd more) :
    QuietAtEnd (reads ++ more) := by
  intro read hread
  rcases List.mem_append.1 hread with hread | hread
  · exact h read hread
  · exact hmore read hread

/-- Nothing that a process does after the end of a pipe is read. -/
lemma quietAtEnd_flatMap (actions : List Action) : QuietAtEnd (actions.flatMap Action.reads) := by
  intro read hread
  obtain ⟨action, -, hread⟩ := List.mem_flatMap.1 hread
  exact quietAtEnd_reads action read hread

lemma framesOf_ended (pipe : Pipe) {reads : List Read} (h : QuietAtEnd reads) {r : LineReader}
    (hr : r.isOpen = false) : framesOf (readsFrom pipe reads) r = [] := by
  induction reads with
  | nil => rfl
  | cons read reads ih =>
    obtain ⟨p, read⟩ := read
    have hquiet : read r = (r, []) := h (p, read) List.mem_cons_self r hr
    have hrest := ih fun read hread => h read (List.mem_cons_of_mem _ hread)
    by_cases hp : p = pipe
    · subst hp
      rw [readsFrom_cons_self, framesOf, hquiet, hrest]
      rfl
    · rw [readsFrom_cons_other hp, hrest]

/-- With both pipes ending, one pipe gives what it has still to give. -/
lemma framesOf_bothEnd (pipe : Pipe) {later : List Read} (h : QuietAtEnd later) (r : LineReader) :
    framesOf (readsFrom pipe (bothEnd ++ later)) r = r.close.2 := by
  have hone : readsFrom pipe (bothEnd ++ later) = LineReader.close :: readsFrom pipe later := by
    cases pipe <;> rfl
  have hclosed : r.close.1.isOpen = false := by
    unfold LineReader.close
    split
    · rfl
    case isFalse hr => simpa using hr
  rw [hone, framesOf, framesOf_ended pipe h hclosed, List.append_nil]

lemma LineReader.fail_spec (r : LineReader) (error : SystemError) :
    (r.fail error).1.isOpen = false ∧ (r.fail error).2.filterMap Frame.text? = [] := by
  unfold LineReader.fail
  split
  · exact ⟨rfl, rfl⟩
  case isFalse hr => exact ⟨by simpa using hr, rfl⟩

/-! ### While the pipes are open -/

/-- A pipe that does not fail gives what its chunks make, and one that fails gives no more. -/
structure Drained (pipe : Pipe) (actions : List Action) (r : LineReader) (frames : List Frame) :
    Prop where
  texts : frames.filterMap Frame.text? <+:
    (r.drain lineLimit (actions.filterMap (Action.chunk? pipe))).filterMap Frame.text?
  whole : (∀ error, Action.failPipe pipe error ∉ actions) →
    frames = r.drain lineLimit (actions.filterMap (Action.chunk? pipe))

section

variable {pipe : Pipe} {action : Action} {actions : List Action} {r : LineReader}
  {frames : List Frame}

/-- The pipe has no part in an action. -/
lemma Drained.apart (h : Drained pipe actions r frames) (hnone : action.chunk? pipe = none) :
    Drained pipe (action :: actions) r frames := by
  obtain ⟨htexts, hwhole⟩ := h
  rw [← List.filterMap_cons_none hnone] at htexts hwhole
  exact ⟨htexts, fun hintact => hwhole fun error h => hintact error (List.mem_cons_of_mem _ h)⟩

lemma Drained.write {chunk : Bytes} (h : Drained pipe actions (r.feed lineLimit chunk).1 frames) :
    Drained pipe (.write pipe chunk :: actions) r ((r.feed lineLimit chunk).2 ++ frames) := by
  have hdrain : r.drain lineLimit ((Action.write pipe chunk :: actions).filterMap
      (Action.chunk? pipe)) = (r.feed lineLimit chunk).2 ++
        (r.feed lineLimit chunk).1.drain lineLimit (actions.filterMap (Action.chunk? pipe)) := by
    rw [List.filterMap_cons_some (Action.chunk?_write_self pipe chunk), LineReader.drain]
  refine ⟨?_, fun hintact => ?_⟩
  · rw [hdrain, List.filterMap_append, List.filterMap_append]
    exact (List.prefix_append_right_inj _).2 h.texts
  · rw [hdrain, ← h.whole fun error h => hintact error (List.mem_cons_of_mem _ h)]

/-- Nothing comes out of a pipe behind its failure. -/
lemma drained_fail (actions : List Action) (r : LineReader) (error : SystemError) :
    Drained pipe (.failPipe pipe error :: actions) r (r.fail error).2 where
  texts := by
    rw [(r.fail_spec error).2]
    exact List.nil_prefix
  whole hintact := absurd List.mem_cons_self (hintact error)

end

lemma drained_speaking (pipe : Pipe) {actions : List Action} {later : List Read}
    (hopen : ∀ action ∈ actions, action.closes = false) (hlater : QuietAtEnd later)
    (r : LineReader) : Drained pipe actions r
      (framesOf (readsFrom pipe (actions.flatMap Action.reads ++ (bothEnd ++ later))) r) := by
  induction actions generalizing r with
  | nil =>
    have hend : framesOf (readsFrom pipe (bothEnd ++ later)) r = r.drain lineLimit [] :=
      framesOf_bothEnd pipe hlater r
    rw [List.flatMap_nil, List.nil_append, hend]
    exact ⟨List.prefix_rfl, fun _ => rfl⟩
  | cons action actions ih =>
    have hrest (r : LineReader) := ih (fun other h => hopen other (List.mem_cons_of_mem _ h)) r
    rw [List.flatMap_cons, List.append_assoc]
    cases action with
    | write p chunk =>
      rw [Action.reads, List.singleton_append]
      by_cases hp : p = pipe
      · subst hp
        rw [readsFrom_cons_self, framesOf]
        exact (hrest _).write
      · rw [readsFrom_cons_other hp]
        exact (hrest r).apart (Action.chunk?_write_other hp chunk)
    | failPipe p error =>
      rw [Action.reads, List.singleton_append]
      by_cases hp : p = pipe
      · subst hp
        have hquiet : QuietAtEnd (actions.flatMap Action.reads ++ (bothEnd ++ later)) :=
          (quietAtEnd_flatMap actions).append ((quietAtEnd_reads .closeOutput).append hlater)
        rw [readsFrom_cons_self, framesOf, framesOf_ended p hquiet (r.fail_spec error).1,
          List.append_nil]
        exact drained_fail actions r error
      · rw [readsFrom_cons_other hp]
        exact (hrest r).apart rfl
    | closeOutput => cases hopen .closeOutput List.mem_cons_self
    | sleep seconds => exact (hrest r).apart rfl
    | hang => exact (hrest r).apart rfl
    | cancel => exact (hrest r).apart rfl

/-! ### What is read in a run -/

/-- Until there is a cause to stop a process, its actions are read in their order. -/
lemma reads_timeline_front (deadline : Option Rat) (actions : List Action) (now : Rat) :
    (timeline deadline actions now).reads <+: actions.flatMap Action.reads ++ bothEnd := by
  induction actions generalizing now with
  | nil => exact List.prefix_rfl
  | cons action rest ih =>
    have hstep := timelineStep_cons deadline action rest now
    generalize timeline deadline (action :: rest) now = t at hstep
    cases hstep with
    | goesOn later =>
      rw [List.flatMap_cons, List.append_assoc]
      exact (List.prefix_append_right_inj _).2 (ih later)
    | givesUp => exact List.nil_prefix
    | hangs => exact List.nil_prefix
    | late => exact List.nil_prefix

/-- Behind what a process does while its pipes are open it ends or closes them. -/
lemma exists_behind_speaking (script : Script) :
    ∃ behind, script.actions = script.speaking ++ behind ∧
    (behind = [] ∨ ∃ more, behind = .closeOutput :: more) := by
  refine ⟨script.actions.dropWhile (!·.closes), List.takeWhile_append_dropWhile.symm, ?_⟩
  rcases hbehind : script.actions.dropWhile (!·.closes) with _ | ⟨action, more⟩
  · exact .inl hbehind
  · have hcloses := List.head?_dropWhile_not (!·.closes) script.actions
    rw [hbehind] at hcloses
    cases action with
    | closeOutput => exact .inr ⟨more, hbehind⟩
    | _ => cases hcloses

lemma quietAtEnd_timeline (deadline : Option Rat) (actions : List Action) (now : Rat) :
    QuietAtEnd (timeline deadline actions now).reads := fun read hread =>
  (quietAtEnd_flatMap actions).append (quietAtEnd_reads .closeOutput) read
    ((reads_timeline_front deadline actions now).subset hread)

lemma closes_of_mem_speaking {script : Script} {action : Action} (h : action ∈ script.speaking) :
    action.closes = false := by
  simpa using List.mem_takeWhile_imp h

/-- What is read of a process goes no further than its pipes, and to their ends if nothing disturbs
the process before. -/
lemma reads_timelineWithin (limit : Option Seconds) (script : Script) :
    (∃ later, QuietAtEnd later ∧ (timelineWithin limit script.actions).reads <+:
      script.speaking.flatMap Action.reads ++ (bothEnd ++ later)) ∧
    (RunsOut limit script.speaking →
      ∃ later, QuietAtEnd later ∧ (timelineWithin limit script.actions).reads =
        script.speaking.flatMap Action.reads ++ (bothEnd ++ later)) := by
  obtain ⟨behind, hactions, hbehind⟩ := exists_behind_speaking script
  constructor
  · have hfront : (timelineWithin limit script.actions).reads <+:
        script.actions.flatMap Action.reads ++ bothEnd := by
      unfold timelineWithin
      split
      · exact List.nil_prefix
      · exact reads_timeline_front _ script.actions 0
    rw [hactions, List.flatMap_append, List.append_assoc] at hfront
    rw [hactions]
    rcases hbehind with rfl | ⟨more, rfl⟩
    · exact ⟨[], List.forall_mem_nil _, hfront⟩
    · exact ⟨_, (quietAtEnd_flatMap more).append (quietAtEnd_reads .closeOutput),
        by simpa [Action.reads] using hfront⟩
  · rintro ⟨hnotAtOnce, hundisturbed⟩
    have hfromStart : Undisturbed ((limit.bind Seconds.toRat?).map (· - 0)) script.speaking := by
      simpa using hundisturbed
    rw [timelineWithin_of_not_passesAtOnce (not_passesAtOnce_iff.2 hnotAtOnce), hactions,
      timeline_append behind hfromStart]
    rcases hbehind with rfl | ⟨more, rfl⟩
    · exact ⟨[], List.forall_mem_nil _, rfl⟩
    · exact ⟨_, quietAtEnd_timeline _ more _, rfl⟩

/-- The lines that are heard from a pipe are the first ones of its chunks, and all of them if the
pipe does not fail and nothing disturbs the process before its pipes end. -/
lemma texts_timelineWithin (limit : Option Seconds) (script : Script) (pipe : Pipe) :
    textsFrom pipe (timelineWithin limit script.actions).lines <+:
      Framing.received lineLimit (script.output pipe) ∧
    ((∀ error, Action.failPipe pipe error ∉ script.speaking) → RunsOut limit script.speaking →
      textsFrom pipe (timelineWithin limit script.actions).lines =
        Framing.received lineLimit (script.output pipe)) := by
  obtain ⟨hfront, hwhole⟩ := reads_timelineWithin limit script
  have hopen : ∀ action ∈ script.speaking, action.closes = false :=
    fun action h => closes_of_mem_speaking h
  have hdrained {later : List Read} (hlater : QuietAtEnd later) :=
    drained_speaking pipe hopen hlater .start
  have htexts : (LineReader.start.drain lineLimit (script.speaking.filterMap
      (Action.chunk? pipe))).filterMap Frame.text? =
        Framing.received lineLimit (script.output pipe) :=
    LineReader.texts_drain lineLimit (script.output pipe)
  constructor
  · obtain ⟨later, hlater, hreads⟩ := hfront
    have hlines := textsFrom_front pipe (linesOf_front hreads fun _ => .start)
    rw [textsFrom_linesOf pipe
      (script.speaking.flatMap Action.reads ++ (bothEnd ++ later))] at hlines
    rw [← htexts]
    exact hlines.trans (hdrained hlater).texts
  · intro hintact hout
    obtain ⟨later, hlater, hreads⟩ := hwhole hout
    rw [Timeline.lines, textsFrom_linesOf, hreads, (hdrained hlater).whole hintact, htexts]

/-! ### What a handler is given -/

namespace Request

variable (r : Request) (operation : Value) (script : Script) (handler : Handler σ) (state : σ)

/-- The texts that a handler is given from a pipe. -/
def handed (start : Start) (pipe : Pipe) : List String :=
  textsFrom pipe (r.run start handler.recorded (state, [])).state.2

/-- The process of a request is heard until its pipes end. -/
structure HearsOut : Prop where
  command : r.command ≠ []
  inTime : ∃ limit, r.limit? = .ok limit ∧ RunsOut limit script.speaking

/-- What is heard of a process from a pipe are the first lines that a reader makes of its chunks,
and all of them if the pipe does not fail and the process is heard until its pipes end. -/
lemma texts_heard (pipe : Pipe) :
    textsFrom pipe (r.heard (.runs script)) <+: Framing.received lineLimit (script.output pipe) ∧
    (r.HearsOut script → (∀ error, Action.failPipe pipe error ∉ script.speaking) →
      textsFrom pipe (r.heard (.runs script)) =
        Framing.received lineLimit (script.output pipe)) := by
  unfold heard
  rcases hname : r.operationName with fault | operation
  · refine ⟨List.nil_prefix, fun hhears => ?_⟩
    obtain ⟨operation, hok⟩ := operationName_ok hhears.command
    cases hname.symm.trans hok
  rcases hlimit : r.limit? with fault | limit
  · refine ⟨List.nil_prefix, fun hhears => ?_⟩
    obtain ⟨limit, hok, -⟩ := hhears.inTime
    cases hlimit.symm.trans hok
  obtain ⟨htexts, hwhole⟩ := texts_timelineWithin limit script pipe
  refine ⟨htexts, fun hhears hintact => ?_⟩
  obtain ⟨limit', hok, hout⟩ := hhears.inTime
  cases hlimit.symm.trans hok
  exact hwhole hintact hout

/-- A handler is given the first lines that a reader makes of the chunks of a pipe, and all of them
if it never fails, the pipe does not fail and the process is heard until its pipes end. -/
lemma handed_spec (pipe : Pipe) :
    r.handed handler state (.runs script) pipe <+:
      Framing.received lineLimit (script.output pipe) ∧
    (r.HearsOut script → (∀ pipe text state, (handler pipe text state).failure = none) →
      (∀ error, Action.failPipe pipe error ∉ script.speaking) →
      r.handed handler state (.runs script) pipe =
        Framing.received lineLimit (script.output pipe)) := by
  have hhanded : r.handed handler state (.runs script) pipe =
      textsFrom pipe (r.given handler state (.runs script)) := rfl
  obtain ⟨htexts, hwhole⟩ := r.texts_heard script pipe
  rw [hhanded]
  refine ⟨(textsFrom_front pipe given_front).trans htexts, fun hhears hhandler hintact => ?_⟩
  rw [given_of_taken (Handler.taken_of_never hhandler _ state)]
  exact hwhole hhears hintact

open Framing

/-- A backup without an environment, a deadline or a name of its own. -/
def bare : Request := ⟨["restic", "backup"], [], none, .null, .str "", "run"⟩

/-- A process that writes a line between two others, all at once. -/
def between (line : Bytes) : Script :=
  ⟨[.write .stdout ([97, 10] ++ line ++ [10, 98, 10])], 0, false, false, false⟩

/-- **Where the chunks end does not matter as long as every line is within the limit.**  Of a pipe
the handler is given the texts of the lines between the line feeds, from the first one on, and all
of them if it never fails, the pipe does not fail and the process is heard until its pipes end. -/
theorem short_lines_handed (pipe : Pipe)
    (hshort : ∀ line ∈ linesIn (script.output pipe).flatten, line.length ≤ lineLimit) :
    r.handed handler state (.runs script) pipe <+:
      (linesIn (script.output pipe).flatten).map lineText ∧
    (r.HearsOut script → (∀ pipe text state, (handler pipe text state).failure = none) →
      (∀ error, Action.failPipe pipe error ∉ script.speaking) →
      r.handed handler state (.runs script) pipe =
        (linesIn (script.output pipe).flatten).map lineText) := by
  rw [← received_of_short hshort]
  exact r.handed_spec script handler state pipe

/-- The chunks end inside a character and inside a line end. -/
theorem short_lines_handed_cut :
    let chunks : List Bytes := [[110, 195], [169, 13], [10, 120]]
    let script : Script := ⟨chunks.map (.write .stdout), 0, false, false, false⟩
    (∀ line ∈ linesIn (script.output .stdout).flatten, line.length ≤ lineLimit) ∧
      bare.HearsOut script ∧
      bare.handed Handler.silent () (.runs script) .stdout = ["né", "x"] := by
  intro chunks script
  have hshort : ∀ line ∈ linesIn (script.output .stdout).flatten, line.length ≤ lineLimit := by
    decide
  have hhears : bare.HearsOut script := ⟨by decide, none, rfl, cause_timelineWithin.1 rfl⟩
  have hintact : ∀ error, Action.failPipe .stdout error ∉ script.speaking := by
    intro error
    simp [script, chunks, Script.speaking, Action.closes]
  refine ⟨hshort, hhears, ?_⟩
  rw [(short_lines_handed bare script Handler.silent () .stdout hshort).2 hhears (fun _ _ _ => rfl)
    hintact]
  decide +kernel

/-- **A line beyond the limit is dropped, but it may leave a rest that counts as a line.**  The
lines within the limit are handed on whatever stands beside them, in their order; there are no
others exactly if none leaves a rest. -/
theorem long_lines_dropped_iff (pipe : Pipe) :
    r.handed handler state (.runs script) pipe <+:
      received lineLimit (script.output pipe) ∧
    (r.HearsOut script → (∀ pipe text state, (handler pipe text state).failure = none) →
      (∀ error, Action.failPipe pipe error ∉ script.speaking) →
      r.handed handler state (.runs script) pipe = received lineLimit (script.output pipe) ∧
      (textsWithin lineLimit (linesIn (script.output pipe).flatten)).Sublist
        (r.handed handler state (.runs script) pipe) ∧
      (r.handed handler state (.runs script) pipe =
          textsWithin lineLimit (linesIn (script.output pipe).flatten) ↔
        LeavesNoRest lineLimit (arrivals (script.output pipe)))) := by
  obtain ⟨hfront, hwhole⟩ := r.handed_spec script handler state pipe
  refine ⟨hfront, fun hhears hhandler hintact => ?_⟩
  have hhanded := hwhole hhears hhandler hintact
  refine ⟨hhanded, ?_⟩
  rw [hhanded]
  exact received_spec lineLimit (script.output pipe)

/-- A line that arrives as a whole is dropped as a whole. -/
theorem long_lines_dropped_whole : bare.HearsOut (between (longLine lineLimit)) ∧
    bare.handed Handler.silent () (.runs (between (longLine lineLimit))) .stdout = ["a", "b"] := by
  -- of the long line nothing counts but its length and its lack of a line feed
  suffices h : ∀ long : Bytes, lineLimit < long.length ∧ newline ∉ long →
      bare.HearsOut (between long) ∧
        bare.handed Handler.silent () (.runs (between long)) .stdout = ["a", "b"] from
    h _ (longLine_spec lineLimit)
  rintro long ⟨hlength, hfree⟩
  let script := between long
  have hhears : bare.HearsOut script := ⟨by decide, none, rfl, cause_timelineWithin.1 rfl⟩
  have hintact : ∀ error, Action.failPipe .stdout error ∉ script.speaking := by
    intro error
    simp [script, between, Script.speaking, Action.closes]
  have harrivals : arrivals (script.output .stdout) =
      [⟨[97], []⟩, ⟨long, []⟩, ⟨[98], []⟩, ⟨[], [[], []]⟩] := by
    have hbytes : arrivals (script.output .stdout) =
        ([97, 10] ++ long ++ [10, 98, 10]).foldr addByte [⟨[], [[], []]⟩] := rfl
    rw [hbytes, List.foldr_append, List.foldr_append, foldr_addByte_of_notMem hfree]
    simp [addByte, newline, Arrival.prepend]
  have hlines : linesIn (script.output .stdout).flatten = [[97], long, [98]] := by
    rw [linesIn, ← bytes_arrivals, harrivals]
    simp [Arrival.bytes, dropEmptyEnd]
  have hnoRest : LeavesNoRest lineLimit (arrivals (script.output .stdout)) := by
    rw [harrivals]
    refine ⟨fun a ha hlong => ?_, fun a ha hlong => ?_⟩
    · simp only [List.dropLast_cons_cons, List.dropLast_singleton, List.mem_cons,
        List.not_mem_nil, or_false] at ha
      rcases ha with rfl | rfl | rfl <;> simpa [Arrival.held, Arrival.bytes] using hlong
    · cases ha
      simp [Arrival.bytes] at hlong
  have htexts : textsWithin lineLimit [[97], long, [98]] = ["a", "b"] := by
    have hkept : [[97], long, [98]].filter (·.length ≤ lineLimit) = [[97], [98]] := by
      have hone : 1 ≤ lineLimit := by decide
      simp [hone, Nat.not_le.2 hlength]
    rw [textsWithin, hkept]
    decide
  have hiff := ((long_lines_dropped_iff bare script Handler.silent () .stdout).2 hhears
    (fun _ _ _ => rfl) hintact).2.2
  exact ⟨hhears, by rw [hiff.2 hnoRest, hlines, htexts]⟩

/-- A line that becomes too long before its end arrives is handed on as what comes then. -/
theorem long_line_leaves_rest : ¬ ∀ (r : Request) (script : Script) (handler : Handler Unit)
    (pipe : Pipe), r.HearsOut script →
    (∀ pipe text state, (handler pipe text state).failure = none) →
    (∀ error, Action.failPipe pipe error ∉ script.speaking) →
    r.handed handler () (.runs script) pipe =
      textsWithin lineLimit (linesIn (script.output pipe).flatten) := by
  intro h
  obtain ⟨long, hlength, hfree⟩ : ∃ long : Bytes, lineLimit < long.length ∧ newline ∉ long :=
    ⟨_, longLine_spec lineLimit⟩
  let script : Script :=
    ⟨[.write .stdout long, .write .stdout [116, 97, 105, 108, 10]], 0, false, false, false⟩
  have hhears : bare.HearsOut script := ⟨by decide, none, rfl, cause_timelineWithin.1 rfl⟩
  have hintact : ∀ error, Action.failPipe .stdout error ∉ script.speaking := by
    intro error
    simp [script, Script.speaking, Action.closes]
  have harrivals : arrivals (script.output .stdout) =
      [⟨long, [[116, 97, 105, 108]]⟩, ⟨[], [[], []]⟩] := by
    have hchunks : arrivals (script.output .stdout) =
        long.foldr addByte [⟨[], [[116, 97, 105, 108]]⟩, ⟨[], [[], []]⟩] := rfl
    rw [hchunks, foldr_addByte_of_notMem hfree]
    simp [Arrival.prepend]
  have hrest : ¬ LeavesNoRest lineLimit (arrivals (script.output .stdout)) := by
    rw [harrivals, leavesNoRest_cons]
    rintro ⟨hheld, -⟩
    have hlong : lineLimit < (Arrival.bytes ⟨long, [[116, 97, 105, 108]]⟩).length := by
      simp only [Arrival.bytes, List.length_append]
      omega
    have hdropped : Arrival.held lineLimit ⟨long, [[116, 97, 105, 108]]⟩ =
        [116, 97, 105, 108] := by
      simp [Arrival.held, hlength]
    rw [hdropped] at hheld
    exact absurd (hheld hlong) (by decide)
  have hhanded := (bare.handed_spec script Handler.silent () .stdout).2 hhears
    (fun _ _ _ => rfl) hintact
  have hclaimed := h bare script Handler.silent .stdout hhears (fun _ _ _ => rfl) hintact
  exact hrest ((received_spec lineLimit (script.output .stdout)).2.1 (hhanded.symm.trans hclaimed))

end Request

end BackupSteward.Engine
