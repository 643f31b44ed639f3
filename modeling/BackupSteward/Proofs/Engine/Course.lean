import BackupSteward.Proofs.Engine.Ending
import BackupSteward.Proofs.Engine.Given
import BackupSteward.Proofs.Engine.Signals
import Mathlib.Data.List.Induction

/-!
# What comes first in a run

A run can end in many ways: the process cannot be started, the handler fails, the deadline passes,
the caller gives up, or the process ends by itself.  Which of them it is depends on what comes
first.  The file says what it means that something comes first, by the actions of the process and
the time that they take, and shows that the outcome of a run tells exactly what came first, with one
exception: where the caller gives up while a process is being stopped, the outcome tells only this.
-/

namespace BackupSteward

/-- A failure cancels the task that it happens in. -/
def Failure.Cancels (failure : Failure) : Prop :=
  failure = .interrupted ∨
    ∃ report, failure.report? = some report ∧ report.kind.isCancellation = true

namespace Engine

variable {σ : Type}

/-! ### The first disturbance -/

/-- What puts an end to watching a process, and what the process has done before. -/
inductive ComesFirst (limit : Option Seconds) (actions : List Action) :
    Option Cause → List Action → Prop
  /-- The process has done all that it does, and ends. -/
  | exit (h : RunsOut limit actions) : ComesFirst limit actions none actions
  | giveUp {front rest : List Action} (hsplit : actions = front ++ .cancel :: rest)
    (h : RunsOut limit front) : ComesFirst limit actions (some .cancelled) front
  | atOnce (h : PassesAtOnce limit) : ComesFirst limit actions (some .deadline) []
  /-- What the process does next lasts until its deadline passes. -/
  | deadline {front rest : List Action} {action : Action} {length : ℚ}
    (hsplit : actions = front ++ action :: rest) (h : RunsOut limit front)
    (hlength : limit.bind Seconds.toRat? = some length)
    (hlasts : action = .hang ∨ length ≤ elapsed front + action.seconds) :
    ComesFirst limit actions (some .deadline) front
  /-- Nothing happens any more, and there is no deadline that passes. -/
  | never {front rest : List Action} (hsplit : actions = front ++ .hang :: rest)
    (h : RunsOut limit front) (hlength : limit.bind Seconds.toRat? = none) :
    ComesFirst limit actions (some .unending) front

/-- What is read before something comes: all that the process has written, and the ends of its pipes
if it has ended. -/
def readBefore (cause : Option Cause) (front : List Action) : List Read :=
  front.flatMap Action.reads ++ if cause.isNone then bothEnd else []

/-- The lines that are heard before something comes. -/
def heardBefore (cause : Option Cause) (front : List Action) : List (Pipe × String) :=
  linesOf (readBefore cause front) fun _ => .start

section

variable {limit : Option ℚ} {front : List Action} {action : Action}

lemma elapsed_concat (front : List Action) (action : Action) :
    elapsed (front ++ [action]) = elapsed front + action.seconds := by
  simp [elapsed]

lemma inTime_concat {limit : ℚ} : InTime limit (front ++ [action]) ↔
    InTime limit front ∧ elapsed front + action.seconds < limit := by
  rw [← elapsed_concat]
  constructor
  · exact fun h => ⟨fun part hpart => h part (hpart.trans (List.prefix_append _ _)),
      h _ List.prefix_rfl⟩
  · rintro ⟨hfront, hlast⟩ part hpart
    rcases List.prefix_concat_iff.1 hpart with rfl | hpart
    · exact hlast
    · exact hfront part hpart

/-- An action disturbs a process that has not been disturbed before if the caller gives up, if
nothing happens any more or if it lasts too long. -/
lemma undisturbed_concat (h : Undisturbed limit front) : Undisturbed limit (front ++ [action]) ↔
    action ≠ .cancel ∧ action ≠ .hang ∧
      ∀ length ∈ limit, elapsed front + action.seconds < length := by
  constructor
  · rintro ⟨hnotCancelled, hnotHanging, hinTime⟩
    refine ⟨?_, ?_, fun length hlength => (inTime_concat.1 (hinTime length hlength)).2⟩
    · rintro rfl
      simp at hnotCancelled
    · rintro rfl
      simp at hnotHanging
  · rintro ⟨hcancel, hhang, hlast⟩
    refine ⟨?_, ?_, fun length hlength =>
      inTime_concat.2 ⟨h.inTime length hlength, hlast _ hlength⟩⟩
    · simpa using ⟨h.notCancelled, hcancel.symm⟩
    · simpa using ⟨h.notHanging, hhang.symm⟩

/-- Nothing disturbs some actions, or there is a first one that disturbs. -/
lemma undisturbed_or_split (hnil : Undisturbed limit []) (actions : List Action) :
    Undisturbed limit actions ∨ ∃ front action rest, actions = front ++ action :: rest ∧
      Undisturbed limit front ∧ ¬ Undisturbed limit (front ++ [action]) := by
  induction actions using List.reverseRecOn with
  | nil => exact .inl hnil
  | append_singleton actions last ih =>
    rcases ih with hfront | ⟨front, action, rest, rfl, hfront, hdisturbs⟩
    · by_cases hlast : Undisturbed limit (actions ++ [last])
      · exact .inl hlast
      · exact .inr ⟨actions, last, [], rfl, hfront, hlast⟩
    · exact .inr ⟨front, action, rest ++ [last], by simp, hfront, hdisturbs⟩

end

/-- There is always something that comes first. -/
lemma exists_comesFirst (limit : Option Seconds) (actions : List Action) :
    ∃ cause front, ComesFirst limit actions cause front := by
  by_cases hatOnce : PassesAtOnce limit
  · exact ⟨_, _, .atOnce hatOnce⟩
  have hlater := not_passesAtOnce_iff.1 hatOnce
  rcases undisturbed_or_split (undisturbed_nil (pos_of_leavesTime hatOnce)) actions with
    hall | ⟨front, action, rest, hsplit, hfront, hdisturbs⟩
  · exact ⟨_, _, .exit ⟨hlater, hall⟩⟩
  rw [undisturbed_concat hfront] at hdisturbs
  by_cases hcancel : action = .cancel
  · subst hcancel
    exact ⟨_, _, .giveUp hsplit ⟨hlater, hfront⟩⟩
  by_cases hhang : action = .hang
  · subst hhang
    rcases hlength : limit.bind Seconds.toRat? with _ | length
    · exact ⟨_, _, .never hsplit ⟨hlater, hfront⟩ hlength⟩
    · exact ⟨_, _, .deadline hsplit ⟨hlater, hfront⟩ hlength (.inl rfl)⟩
  · obtain ⟨length, hlength, hlasts⟩ : ∃ length ∈ limit.bind Seconds.toRat?,
        length ≤ elapsed front + action.seconds := by
      simpa [hcancel, hhang] using hdisturbs
    exact ⟨_, _, .deadline hsplit ⟨hlater, hfront⟩ hlength (.inr hlasts)⟩

/-- What comes first ends the timeline of a process. -/
lemma ComesFirst.timelineWithin {limit : Option Seconds} {actions front : List Action}
    {cause : Option Cause} (h : ComesFirst limit actions cause front) :
    (timelineWithin limit actions).cause = cause ∧
      (timelineWithin limit actions).lines = heardBefore cause front := by
  -- the timeline up to what comes first
  have hsplit {rest : List Action} (hout : RunsOut limit front) :
      Engine.timelineWithin limit (front ++ rest) = (timeline (limit.bind Seconds.toRat?) rest
        (0 + elapsed front)).behind (front.flatMap Action.reads) := by
    rw [timelineWithin_of_not_passesAtOnce (not_passesAtOnce_iff.2 hout.notAtOnce)]
    exact timeline_append rest (by simpa using hout.undisturbed)
  cases h with
  | exit hout =>
    rw [← actions.append_nil, hsplit hout, actions.append_nil]
    exact ⟨rfl, rfl⟩
  | giveUp heq hout =>
    subst heq
    rw [hsplit hout]
    exact ⟨rfl, rfl⟩
  | atOnce hatOnce =>
    rw [timelineWithin_of_passesAtOnce hatOnce]
    exact ⟨rfl, rfl⟩
  | @deadline _ rest action length heq hout hlength hlasts =>
    subst heq
    rw [hsplit hout, hlength]
    -- what takes no time does not last until the deadline
    have hnotYet : elapsed front < length :=
      hout.undisturbed.inTime length hlength _ List.prefix_rfl
    cases action with
    | hang => exact ⟨rfl, rfl⟩
    | sleep seconds =>
      have hlate : ¬ 0 + elapsed front + seconds < length := by
        simpa [Action.seconds] using hlasts
      rw [timeline, if_neg hlate]
      exact ⟨rfl, rfl⟩
    | _ => exact absurd hlasts (by simpa [Action.seconds] using hnotYet)
  | never heq hout hlength =>
    subst heq
    rw [hsplit hout, hlength]
    exact ⟨rfl, rfl⟩

/-! ### Endings -/

/-- How a run ends. -/
inductive Ending where
  | notStarted (error : SystemError)
  /-- There is no way to keep the deadline. -/
  | badDeadline (fault : Fault)
  | stopped (cause : Cause)
  /-- The process has ended by itself. -/
  | exited (code : Int)

/-- How the run of a process ends when something comes first. -/
def Ending.of (code : Int) : Option Cause → Ending
  | none => exited code
  | some cause => stopped cause

/-- The kind of failure that tells how a run has ended. -/
def Ending.kind? : Ending → Option FailureKind
  | notStarted _ => some .processStart
  | stopped .deadline => some .operationCancelled
  | stopped .cancelled => some .callerCancelled
  | _ => none

namespace Request

/-- How a run ends, and the lines that its handler has been given then. -/
inductive Course (r : Request) (handler : Handler σ) (state : σ) :
    Start → Ending → List (Pipe × String) → Prop
  | refused (error : SystemError) : Course r handler state (.refused error) (.notStarted error) []
  | badDeadline {script : Script} {fault : Fault} (hlimit : r.limit? = .error fault) :
    Course r handler state (.runs script) (.badDeadline fault) []
  /-- The handler takes all lines until something else comes. -/
  | taken {script : Script} {limit : Option Seconds} {cause : Option Cause} {front : List Action}
    (hlimit : r.limit? = .ok limit) (hfirst : ComesFirst limit script.actions cause front)
    (htaken : (handler.through (heardBefore cause front) state).2 = none) :
    Course r handler state (.runs script) (.of script.exitCode cause) (heardBefore cause front)
  /-- The handler fails on a line before anything else comes. -/
  | failed {script : Script} {limit : Option Seconds} {cause : Option Cause} {front : List Action}
    {before after : List (Pipe × String)} {line : Pipe × String} {failure : Failure}
    (hlimit : r.limit? = .ok limit) (hfirst : ComesFirst limit script.actions cause front)
    (hheard : heardBefore cause front = before ++ line :: after)
    (hfails : handler.FailsBehind state before line failure) :
    Course r handler state (.runs script) (.stopped (.handlerFailed failure)) (before ++ [line])

/-- The outcome of a run that tells how it has ended. -/
inductive Tells (r : Request) : Ending → Except Failure Finished → Prop
  | notStarted (error : SystemError) :
    Tells r (.notStarted error) (.error (.notStarted r.command error))
  | badDeadline (fault : Fault) : Tells r (.badDeadline fault) (.error (.fault fault))
  | handlerFailed (failure : Failure) :
    Tells r (.stopped (.handlerFailed failure)) (.error failure)
  | late {operation : Value} {words : String} (hname : r.operationName = .ok operation)
    (hwords : r.allowance = .ok words) : Tells r (.stopped .deadline)
      (.error (.deadlineExceeded operation.text words r.command r.invocation))
  | givenUp {operation : Value} (hname : r.operationName = .ok operation) :
    Tells r (.stopped .cancelled)
      (.error (.callerCancelled operation.text r.command r.invocation))
  | unending : Tells r (.stopped .unending) (.error .unending)
  | exited (code : Int) (diagnostics : List String) :
    Tells r (.exited code) (.ok ⟨code, diagnostics⟩)

/-- The process of a request is stopped, and the caller gives up while it takes its time. -/
def Abandoned (r : Request) (start : Start) (handler : Handler σ) (state : σ) : Prop :=
  ∃ operation script rest, r.operationName = .ok operation ∧ start = .runs script ∧
    r.StopsBefore operation script handler state rest ∧ LeftAlone script rest

variable {r : Request} {handler : Handler σ} {state : σ} {start : Start} {ending : Ending}
  {lines : List (Pipe × String)}

/-- There is always something that a run comes to. -/
lemma exists_course (r : Request) (handler : Handler σ) (state : σ) (start : Start) :
    ∃ ending lines, r.Course handler state start ending lines := by
  cases start with
  | refused error => exact ⟨_, _, .refused error⟩
  | runs script =>
    rcases hlimit : r.limit? with fault | limit
    · exact ⟨_, _, .badDeadline hlimit⟩
    obtain ⟨cause, front, hfirst⟩ := exists_comesFirst limit script.actions
    rcases handler.taken_or_failsBehind (heardBefore cause front) state with
      htaken | ⟨before, line, after, failure, hheard, hfails⟩
    · exact ⟨_, _, .taken hlimit hfirst htaken⟩
    · exact ⟨_, _, .failed hlimit hfirst hheard hfails⟩

/-- A handler is given the lines of the course of its run. -/
lemma Course.given_eq (hcommand : r.command ≠ []) (h : r.Course handler state start ending lines) :
    r.given handler state start = lines := by
  obtain ⟨operation, hname⟩ := operationName_ok hcommand
  have hnothing (hheard : r.heard start = []) : r.given handler state start = [] := by
    rw [← hheard, given_of_taken (by rw [hheard, Handler.through])]
  cases h with
  | refused error => exact hnothing (by unfold heard; rw [hname])
  | badDeadline hlimit => exact hnothing (by unfold heard; rw [hname, hlimit])
  | taken hlimit hfirst htaken =>
    have hheard := (heard_runs hname hlimit).trans hfirst.timelineWithin.2
    rw [given_of_taken (hheard ▸ htaken), hheard]
  | failed hlimit hfirst hheard hfails =>
    exact given_of_failsBehind
      ((heard_runs hname hlimit).trans (hfirst.timelineWithin.2.trans hheard))
      hfails

/-- The watch over a process goes as the course of its run. -/
lemma Course.ending_eq {script : Script} {limit : Option Seconds} (hlimit : r.limit? = .ok limit)
    (operation : Value) (h : r.Course handler state (.runs script) ending lines) :
    ending = .of script.exitCode (r.watched operation limit script handler state).cause := by
  have hfollows := follows_watched r operation limit script handler state
  cases h with
  | badDeadline hbad => cases hbad.symm.trans hlimit
  | taken hlimit' hfirst htaken =>
    cases hlimit'.symm.trans hlimit
    rw [← hfirst.timelineWithin.2] at htaken
    rw [(hfollows.taken htaken).1, hfirst.timelineWithin.1]
  | @failed _ _ _ _ before after line failure hlimit' hfirst hheard hfails =>
    cases hlimit'.symm.trans hlimit
    have hthrough := congrArg Prod.snd (hfails.through after)
    rw [← hheard, ← hfirst.timelineWithin.2] at hthrough
    rw [hfollows.failed failure hthrough]
    rfl

lemma Course.ending_of_badDeadline {script : Script} {fault : Fault}
    (hlimit : r.limit? = .error fault)
    (h : r.Course handler state (.runs script) ending lines) : ending = .badDeadline fault := by
  cases h with
  | badDeadline hbad =>
    cases hbad.symm.trans hlimit
    rfl
  | taken hlimit' => cases hlimit'.symm.trans hlimit
  | failed hlimit' => cases hlimit'.symm.trans hlimit

/-- A run has only one course. -/
lemma Course.unique (hcommand : r.command ≠ []) (h : r.Course handler state start ending lines)
    {ending' : Ending} {lines' : List (Pipe × String)}
    (h' : r.Course handler state start ending' lines') : ending' = ending ∧ lines' = lines := by
  refine ⟨?_, (h'.given_eq hcommand).symm.trans (h.given_eq hcommand)⟩
  cases start with
  | refused error =>
    cases h
    cases h'
    rfl
  | runs script =>
    rcases hlimit : r.limit? with fault | limit
    · rw [h.ending_of_badDeadline hlimit, h'.ending_of_badDeadline hlimit]
    · rw [h.ending_eq hlimit .null, h'.ending_eq hlimit .null]

/-- A handler that puts an end to a run has failed. -/
lemma Course.exists_fails {failure : Failure}
    (h : r.Course handler state start (.stopped (.handlerFailed failure)) lines) :
    ∃ pipe text state, (handler pipe text state).failure = some failure := by
  generalize hending : Ending.stopped (.handlerFailed failure) = ending at h
  cases h with
  | refused => cases hending
  | badDeadline => cases hending
  | @taken _ _ cause _ _ hfirst =>
    cases cause with
    | none => cases hending
    | some cause =>
      cases hending
      cases hfirst
  | failed _ _ _ hfails =>
    cases hending
    exact ⟨_, _, _, hfails.fails⟩

/-! ### Outcomes -/

section

variable {operation : Value} {script : Script} {rest : List Action}

/-- What a process would do next when it is stopped is fixed. -/
lemma abandoned_iff (hname : r.operationName = .ok operation)
    (hstops : r.StopsBefore operation script handler state rest) :
    r.Abandoned (.runs script) handler state ↔ LeftAlone script rest := by
  refine ⟨?_, fun hleft => ⟨_, _, _, hname, rfl, hstops, hleft⟩⟩
  rintro ⟨operation', script', rest', hname', hstart, hstops', hleft⟩
  cases hname'.symm.trans hname
  cases hstart
  suffices hsame : rest' = rest by rwa [← hsame]
  cases hstops with
  | badDeadline hlimit =>
    cases hstops' with
    | badDeadline => rfl
    | cause hlimit' => cases hlimit.symm.trans hlimit'
  | cause hlimit => exact (hstops'.rest_eq hlimit).2

lemma not_abandoned (hname : r.operationName = .ok operation) {limit : Option Seconds}
    (hlimit : r.limit? = .ok limit)
    (h : ∀ cause, (r.watched operation limit script handler state).cause = some cause →
      cause = .unending) : ¬ r.Abandoned (.runs script) handler state := by
  rintro ⟨operation', script', rest', hname', hstart, hstops, -⟩
  cases hname'.symm.trans hname
  cases hstart
  obtain ⟨⟨cause, hcause, hends⟩, -⟩ := hstops.rest_eq hlimit
  exact hends (h cause hcause)

end

/-- The outcome of a run tells its course, unless its process is abandoned; then the outcome tells
only this. -/
lemma Course.tells_or_interrupted (hcommand : r.command ≠ [])
    (h : r.Course handler state start ending lines) :
    (r.Abandoned start handler state ∧ (r.run start handler state).outcome = .error .interrupted) ∨
    (¬ r.Abandoned start handler state ∧ r.Tells ending (r.run start handler state).outcome) := by
  obtain ⟨operation, hname⟩ := operationName_ok hcommand
  cases start with
  | refused error =>
    cases h
    refine .inr ⟨?_, ?_⟩
    · rintro ⟨_, _, _, -, hstart, -⟩
      cases hstart
    · rw [run, hname]
      exact .notStarted error
  | runs script =>
    have hrun :
        r.run (.runs script) handler state = r.runScript operation script handler state := by
      rw [run, hname]
    -- a process that is stopped for a failure
    have hhalted {failure : Failure} {rest : List Action} {p : Progress σ}
        (hhalt : r.runScript operation script handler state = r.halt script failure rest p)
        (hstops : r.StopsBefore operation script handler state rest)
        (htells : r.Tells ending (.error failure)) :
        (r.Abandoned (.runs script) handler state ∧
          (r.run (.runs script) handler state).outcome = .error .interrupted) ∨
        (¬ r.Abandoned (.runs script) handler state ∧
          r.Tells ending (r.run (.runs script) handler state).outcome) := by
      rw [abandoned_iff hname hstops, hrun, hhalt]
      rcases halt_outcome (r := r) failure rest p with hleft | ⟨hwaits, houtcome⟩
      · exact .inl hleft
      · exact .inr ⟨hwaits, houtcome ▸ htells⟩
    rcases hlimit : r.limit? with fault | limit
    · have hbad := h.ending_of_badDeadline hlimit
      subst hbad
      exact hhalted (runScript_of_badDeadline hlimit) (.badDeadline hlimit) (.badDeadline fault)
    have hending := h.ending_eq hlimit operation
    rcases hcause : (r.watched operation limit script handler state).cause with _ | cause <;>
      rw [hcause] at hending <;> subst hending
    · refine .inr ⟨not_abandoned hname hlimit (by simp [hcause]), ?_⟩
      rw [hrun, (runScript_of_end hlimit hcause).1]
      exact .exited _ _
    by_cases hends : cause = .unending
    · subst hends
      refine .inr ⟨not_abandoned hname hlimit (by simp [hcause]), ?_⟩
      rw [hrun, (runScript_of_unending hlimit hcause).1]
      exact .unending
    obtain ⟨p, hhalt⟩ := runScript_of_cause hlimit hcause hends
    refine hhalted hhalt (.cause hlimit hcause hends) ?_
    cases cause with
    | handlerFailed failure => exact .handlerFailed failure
    | deadline =>
      obtain ⟨words, hwords⟩ := allowance_ok hlimit
      rw [failureOf_deadline hwords]
      exact .late hname hwords
    | cancelled => exact .givenUp hname
    | unending => exact absurd rfl hends

/-- A caller who gives up once does not abandon a process that is stopped for this. -/
lemma Course.not_abandoned_of_cancelled {script : Script} (hcommand : r.command ≠ [])
    (honce : script.cancels ≤ 1)
    (h : r.Course handler state (.runs script) (.stopped .cancelled) lines) :
    ¬ r.Abandoned (.runs script) handler state := by
  obtain ⟨operation, hname⟩ := operationName_ok hcommand
  rcases hlimit : r.limit? with fault | limit
  · cases h.ending_of_badDeadline hlimit
  have hending := h.ending_eq hlimit operation
  rcases hcause : (r.watched operation limit script handler state).cause with _ | cause <;>
    rw [hcause] at hending <;> cases hending
  rw [abandoned_iff hname (.cause hlimit hcause (by simp))]
  exact not_leftAlone_of_cancelled honce hcause

/-- The failure of a run is of the kind of its ending. -/
lemma Tells.kind {failure : Failure} (h : r.Tells ending (.error failure)) :
    ∀ kind ∈ ending.kind?, failure.report?.map Report.kind = some kind := by
  cases h <;> rintro _ ⟨rfl⟩ <;> rfl

/-- Of the failures that are not those of a handler, only that of a caller who gives up cancels. -/
lemma Tells.cancels_iff {failure : Failure} (h : r.Tells ending (.error failure))
    (hown : ∀ failure, ending = .stopped (.handlerFailed failure) → ¬ failure.Cancels) :
    failure.Cancels ↔ ending = .stopped .cancelled := by
  cases h with
  | handlerFailed => exact iff_of_false (hown _ rfl) (by simp)
  | givenUp => exact iff_of_true (.inr ⟨_, rfl, rfl⟩) rfl
  | _ =>
    refine iff_of_false ?_ (by simp)
    rintro (hinterrupted | ⟨report, hreport, hkind⟩)
    · cases hinterrupted
    · cases hreport <;> cases hkind

/-- A run goes a course. -/
structure Goes (r : Request) (start : Start) (handler : Handler σ) (state : σ) (ending : Ending)
    (lines : List (Pipe × String)) : Prop where
  course : r.Course handler state start ending lines
  /-- It goes no other. -/
  only (ending' : Ending) (lines' : List (Pipe × String)) :
    r.Course handler state start ending' lines' → ending' = ending ∧ lines' = lines
  /-- The handler is given the lines of the course and no others. -/
  given : r.given handler state start = lines
  /-- The outcome tells the course exactly if the process is not abandoned. -/
  outcome : r.Tells ending (r.run start handler state).outcome ↔ ¬ r.Abandoned start handler state
  abandoned : r.Abandoned start handler state →
    (r.run start handler state).outcome = .error .interrupted
  kind (failure : Failure) : r.Tells ending (.error failure) →
    ∀ kind ∈ ending.kind?, failure.report?.map Report.kind = some kind
  /-- Only the failure that tells of a caller who gives up cancels. -/
  cancels (failure : Failure) : r.Tells ending (.error failure) →
    (failure.Cancels ↔ ending = .stopped .cancelled)
  /-- A caller who gives up once does not abandon a process that is stopped for this. -/
  once (script : Script) : start = .runs script → script.cancels ≤ 1 →
    ending = .stopped .cancelled → ¬ r.Abandoned start handler state

/-- **A run goes exactly one course, and its outcome tells which.**  The handler may fail in any way
that is not itself a cancellation. -/
theorem outcome_tells_course (r : Request) (start : Start) (handler : Handler σ) (state : σ)
    (hcommand : r.command ≠ [])
    (hown : ∀ pipe text state failure, (handler pipe text state).failure = some failure →
      ¬ failure.Cancels) :
    ∃ ending lines, r.Goes start handler state ending lines := by
  obtain ⟨ending, lines, hcourse⟩ := r.exists_course handler state start
  have hownEnding (failure : Failure) (hending : ending = .stopped (.handlerFailed failure)) :
      ¬ failure.Cancels := by
    subst hending
    obtain ⟨pipe, text, state, hfails⟩ := hcourse.exists_fails
    exact hown pipe text state failure hfails
  have hends := hcourse.tells_or_interrupted hcommand
  have hinterrupted : ¬ r.Tells ending (.error .interrupted) := by
    intro htells
    have hcancels := (htells.cancels_iff hownEnding).1 (.inl rfl)
    subst hcancels
    cases htells
  refine ⟨ending, lines, hcourse, fun _ _ h => hcourse.unique hcommand h, hcourse.given_eq hcommand,
    ⟨fun htells habandoned => ?_, fun hnot => ?_⟩, fun habandoned => ?_, fun _ h => h.kind,
    fun _ h => h.cancels_iff hownEnding, ?_⟩
  · rcases hends with ⟨-, houtcome⟩ | ⟨hnot, -⟩
    · exact hinterrupted (houtcome ▸ htells)
    · exact hnot habandoned
  · exact (hends.resolve_left fun h => hnot h.1).2
  · exact (hends.resolve_right fun h => h.1 habandoned).2
  · rintro script rfl honce rfl
    exact hcourse.not_abandoned_of_cancelled hcommand honce

/-- A handler that fails on the second line does so before the deadline passes. -/
theorem outcome_tells_course_failing :
    let r : Request := ⟨["restic", "backup"], [], none, .int 1, .str "", "run"⟩
    let script : Script :=
      ⟨[.write .stdout "a\nb\nc\n".toUTF8.toList, .sleep 2], 0, false, false, false⟩
    let failing : Handler ℕ := fun _ _ lines =>
      ⟨lines + 1, [], none, if lines = 1 then some (.handlerFailed "full") else none⟩
    r.command ≠ [] ∧
      (∀ pipe text state failure, (failing pipe text state).failure = some failure →
        ¬ failure.Cancels) ∧
      r.Goes (.runs script) failing 0 (.stopped (.handlerFailed (.handlerFailed "full")))
        [(.stdout, "a"), (.stdout, "b")] ∧
      (r.run (.runs script) failing 0).outcome = .error (.handlerFailed "full") := by
  intro r script failing
  have hcommand : r.command ≠ [] := by decide
  have hown (pipe : Pipe) (text : String) (state : ℕ) (failure : Failure)
      (hfails : (failing pipe text state).failure = some failure) : ¬ failure.Cancels := by
    have hfull : failure = .handlerFailed "full" := by
      dsimp only [failing] at hfails
      split at hfails <;> simp_all
    subst hfull
    rintro (hinterrupted | ⟨report, hreport, -⟩)
    · cases hinterrupted
    · cases hreport
  let front : List Action := [.write .stdout "a\nb\nc\n".toUTF8.toList]
  have hfirst : ComesFirst (some (.whole 1)) script.actions (some .deadline) front :=
    .deadline rfl (cause_timelineWithin.1 rfl) rfl (.inr (by decide +kernel))
  have hheard : heardBefore (some .deadline) front =
      [(.stdout, "a")] ++ (.stdout, "b") :: [(.stdout, "c")] := by decide +kernel
  have hcourse : r.Course failing 0 (.runs script)
      (.stopped (.handlerFailed (.handlerFailed "full"))) [(.stdout, "a"), (.stdout, "b")] :=
    .failed rfl hfirst hheard ⟨rfl, rfl⟩
  have hnot : ¬ r.Abandoned (.runs script) failing 0 := by
    rintro ⟨operation, other, rest, -, hstart, -, hleft⟩
    cases hstart
    exact absurd hleft.ignoresTerm (by decide)
  obtain ⟨ending, lines, hgoes⟩ := outcome_tells_course r (.runs script) failing 0 hcommand hown
  obtain ⟨rfl, rfl⟩ := hgoes.only _ _ hcourse
  refine ⟨hcommand, hown, hgoes, ?_⟩
  have htells := hgoes.outcome.2 hnot
  generalize (r.run (.runs script) failing 0).outcome = outcome at htells
  cases htells
  rfl

/-- Where the caller gives up while a late process is being stopped, the outcome does not tell that
it was late. -/
theorem late_hidden_by_cancel : ¬ ∀ (r : Request) (script : Script) (handler : Handler Unit)
    (ending : Ending) (lines : List (Pipe × String)), r.command ≠ [] →
    (∀ pipe text state, (handler pipe text state).failure = none) → script.cancels ≤ 1 →
    r.Course handler () (.runs script) ending lines →
    r.Tells ending (r.run (.runs script) handler ()).outcome := by
  intro h
  let r : Request := ⟨["restic", "backup"], [], none, .int 1, .str "", "run"⟩
  let front : List Action := [.write .stdout "a\n".toUTF8.toList]
  let script : Script := ⟨front ++ [.sleep 2, .cancel, .hang], 0, true, false, false⟩
  have hfirst : ComesFirst (some (.whole 1)) script.actions (some .deadline) front :=
    .deadline rfl (cause_timelineWithin.1 rfl) rfl (.inr (by decide +kernel))
  have hcourse : r.Course Handler.silent () (.runs script) (.stopped .deadline)
      (heardBefore (some .deadline) front) :=
    .taken rfl hfirst (Handler.taken_of_never (fun _ _ _ => rfl) _ ())
  have hinterrupted : (match (r.run (.runs script) Handler.silent ()).outcome with
      | .error .interrupted => true
      | _ => false) = true := by decide +kernel
  have htells := h r script Handler.silent _ _ (by decide) (fun _ _ _ => rfl) (by decide) hcourse
  generalize (r.run (.runs script) Handler.silent ()).outcome = outcome at htells hinterrupted
  cases htells
  cases hinterrupted

end Request

end Engine

end BackupSteward
