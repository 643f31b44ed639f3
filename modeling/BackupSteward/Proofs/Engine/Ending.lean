import BackupSteward.Proofs.Engine.Stopping

/-!
# How a call ends

A call of the engine can end in many ways, and several causes may come together: a deadline that
passes behind the last line, a status other than zero, a caller who gives up.  For a handler that
takes every line, how a call ends is settled by the script of its process and its deadline.  The
file lists the ways with their conditions, and shows that every call goes exactly one of them.
-/

namespace BackupSteward.Engine

variable {σ : Type}

/-- A handler is no cause in a timeline. -/
lemma cause_timeline_ne {deadline : Option Rat} (actions : List Action) (now : Rat)
    (failure : Failure) :
    (timeline deadline actions now).cause ≠ some (.handlerFailed failure) := by
  induction actions generalizing now with
  | nil => simp [timeline]
  | cons action rest ih =>
    have hstep := timelineStep_cons deadline action rest now
    generalize timeline deadline (action :: rest) now = t at hstep
    cases hstep with
    | goesOn later => exact ih later
    | givesUp => simp
    | hangs hcause => rcases hcause with rfl | rfl <;> simp
    | late => simp

lemma cause_timelineWithin_ne (limit : Option Seconds) (actions : List Action)
    (failure : Failure) : (timelineWithin limit actions).cause ≠ some (.handlerFailed failure) := by
  unfold timelineWithin
  split
  · simp
  · exact cause_timeline_ne actions 0 failure

namespace Request

variable (r : Request)

/-- The time that a process may run, in a sentence. -/
def allowance : Except Fault String :=
  (Seconds.ofValue (if r.deadline.truthy then r.deadline else .int 0)).bind Seconds.prose

variable {r}

lemma prose_of_inRange {seconds : Seconds} (h : seconds.inRange = true) :
    ∃ words, seconds.prose = .ok words := by
  cases seconds with
  | whole n =>
    obtain ⟨x, hx⟩ := Option.isSome_iff_exists.1 h
    exact ⟨x.prose, by rw [Seconds.prose, hx]; rfl⟩
  | double x => exact ⟨x.prose, rfl⟩

/-- The time that a process may run can be told if it can be kept. -/
lemma allowance_ok {limit : Option Seconds} (hlimit : r.limit? = .ok limit) :
    ∃ words, r.allowance = .ok words := by
  unfold allowance
  split
  case isFalse => exact ⟨_, rfl⟩
  case isTrue htruthy =>
    unfold limit? at hlimit
    split at hlimit
    case h_1 hnull =>
      rw [hnull] at htruthy
      cases htruthy
    case h_2 =>
      obtain ⟨seconds, hseconds, hrange⟩ := bind_eq_ok.1 hlimit
      split at hrange
      case isFalse => cases hrange
      case isTrue hinRange =>
        rw [hseconds]
        exact prose_of_inRange hinRange

lemma failureOf_deadline {words : String} (h : r.allowance = .ok words) (operation : Value) :
    (r.failureOf operation .deadline).1 =
      .deadlineExceeded operation.text words r.command r.invocation := by
  rw [failureOf]
  unfold allowance at h
  simp only [h]

variable (r) in
/-- Why the process of a request is stopped when its lines are taken, and what it would do next. -/
inductive Halts (script : Script) : Failure → List Action → Prop
  | badDeadline {fault : Fault} (hlimit : r.limit? = .error fault) :
    Halts script (.fault fault) script.actions
  | late {limit : Option Seconds} {words : String} (hlimit : r.limit? = .ok limit)
    (hcause : (timelineWithin limit script.actions).cause = some .deadline)
    (hwords : r.allowance = .ok words) :
    Halts script (.deadlineExceeded r.operation.text words r.command r.invocation)
      (timelineWithin limit script.actions).rest
  | givenUp {limit : Option Seconds} (hlimit : r.limit? = .ok limit)
    (hcause : (timelineWithin limit script.actions).cause = some .cancelled) :
    Halts script (.callerCancelled r.operation.text r.command r.invocation)
      (timelineWithin limit script.actions).rest

end Request

namespace Call

variable (c : Call) (s : Session)

/-- The lines that are heard of the process of a call. -/
def heard : List (Pipe × String) :=
  match s.nextStart, (c.request s).limit? with
  | .runs script, .ok limit => (timelineWithin limit script.actions).lines
  | _, _ => []

/-- The diagnostic lines of a call that are kept for reports. -/
def diagnostics : List String := keptBehind (c.heard s) []

/-- The process of a call ends by itself with some status, within its deadline and before the caller
gives up. -/
inductive Exits : Int → Prop
  | intro {script : Script} {limit : Option Seconds} (hstart : s.nextStart = .runs script)
    (hlimit : (c.request s).limit? = .ok limit) (hout : RunsOut limit script.actions) :
    Exits script.exitCode

/-- How a call ends when its lines are taken. -/
inductive Ends : Except Failure Unit → Prop
  | notStarted {error : SystemError} (hstart : s.nextStart = .refused error) :
    Ends (.error (.notStarted c.command error))
  /-- The process is stopped, and has ended when the call does. -/
  | halted {script : Script} {failure : Failure} {rest : List Action}
    (hstart : s.nextStart = .runs script) (hhalts : (c.request s).Halts script failure rest)
    (hwaits : ¬ LeftAlone script rest) :
    Ends (.error failure)
  /-- The process is stopped, but the caller gives up before it has ended. -/
  | interrupted {script : Script} {failure : Failure} {rest : List Action}
    (hstart : s.nextStart = .runs script) (hhalts : (c.request s).Halts script failure rest)
    (hleft : LeftAlone script rest) :
    Ends (.error .interrupted)
  /-- The process does not end, and nothing stops it. -/
  | unending {script : Script} {limit : Option Seconds} (hstart : s.nextStart = .runs script)
    (hlimit : (c.request s).limit? = .ok limit)
    (hcause : (timelineWithin limit script.actions).cause = some .unending) :
    Ends (.error .unending)
  | locked {code : Int} (hexits : c.Exits s code) (hcode : code ≠ 0)
    (hlock : showsLock (c.diagnostics s) = true) :
    Ends (.error (.repositoryLocked c.operation (.int code) (Value.texts (c.diagnostics s))
      s.invocation))
  | failed {code : Int} (hexits : c.Exits s code) (hcode : code ≠ 0)
    (hlock : showsLock (c.diagnostics s) = false) :
    Ends (.error (.engineFailed c.operation (.int code) (Value.texts (c.diagnostics s))
      ((c.diagnostics s).getLast?.getD noDiagnostics) s.invocation))
  | succeeded (hexits : c.Exits s 0) : Ends (.ok ())

/-- A call whose operation is the subcommand of its command line. -/
structure Named : Prop where
  command : ∃ binary arguments, c.command = binary :: c.operation :: arguments
  operation : c.operation ≠ ""

/-- A handler takes every line of a call. -/
def TakenBy (handler : Handler σ) (state : σ) : Prop := (handler.through (c.heard s) state).2 = none

variable {c s} {handler : Handler σ} {state : σ}

lemma Named.command_ne_nil (h : c.Named) : c.command ≠ [] := by
  obtain ⟨binary, arguments, hcommand⟩ := h.command
  rw [hcommand]
  exact List.cons_ne_nil _ _

lemma run_runs (hnamed : c.Named) {script : Script} (hstart : s.nextStart = .runs script) :
    (c.request s).run s.nextStart handler state =
      (c.request s).runScript (.str c.operation) script handler state := by
  have hgiven : (c.request s).operation.truthy = true := by
    simpa [request, Value.truthy] using hnamed.operation
  rw [hstart]
  exact Request.run_runs hnamed.command_ne_nil hgiven script handler state

section

variable {script : Script} {limit : Option Seconds} (htaken : c.TakenBy s handler state)
  (hstart : s.nextStart = .runs script) (hlimit : (c.request s).limit? = .ok limit)

include htaken hstart hlimit

/-- Watching the process of a call whose lines are taken. -/
lemma watched_of_taken :
    let w := (c.request s).watched (.str c.operation) limit script handler state
    let t := timelineWithin limit script.actions
    w.cause = t.cause ∧ w.rest = t.rest ∧ w.progress.diagnostics = c.diagnostics s ∧
      w.progress.state = (handler.through (c.heard s) state).1 := by
  have hheard : c.heard s = (timelineWithin limit script.actions).lines := by
    rw [heard, hstart, hlimit]
  have hfollows := follows_watched (c.request s) (.str c.operation) limit script handler state
  rw [TakenBy, hheard] at htaken
  obtain ⟨hcause, hrest, hkept⟩ := hfollows.taken htaken
  rw [diagnostics, hheard]
  exact ⟨hcause, hrest, hkept, hfollows.state⟩

/-- A process that ends by itself gives its status. -/
lemma outcome_of_runsOut (hnamed : c.Named) (hout : RunsOut limit script.actions) :
    ((c.request s).run s.nextStart handler state).outcome =
      .ok ⟨script.exitCode, c.diagnostics s⟩ ∧
    ((c.request s).run s.nextStart handler state).state =
      (handler.through (c.heard s) state).1 := by
  obtain ⟨hcause, -, hkept, hstate⟩ := watched_of_taken htaken hstart hlimit
  have hnone := hcause.trans (cause_timelineWithin.2 hout)
  obtain ⟨houtcome, hstate', -⟩ := Request.runScript_of_end hlimit hnone
  rw [run_runs hnamed hstart, houtcome, hstate', hkept, hstate]
  exact ⟨rfl, rfl⟩

/-- A process for whose end there is a cause is stopped before what its timeline leaves. -/
lemma outcome_of_cause (hnamed : c.Named) {cause : Cause}
    (hcause : (timelineWithin limit script.actions).cause = some cause)
    (hends : cause ≠ .unending) :
    ∃ p, (c.request s).run s.nextStart handler state =
      (c.request s).halt script ((c.request s).failureOf (.str c.operation) cause).1
        (timelineWithin limit script.actions).rest p := by
  obtain ⟨hcause', hrest, -, -⟩ := watched_of_taken htaken hstart hlimit
  obtain ⟨p, hrun⟩ := Request.runScript_of_cause hlimit (hcause'.trans hcause) hends
  exact ⟨p, by rw [run_runs hnamed hstart, hrun, hrest]⟩

end

/-- A process that is stopped is stopped as its script says. -/
lemma run_of_halts (hnamed : c.Named) (htaken : c.TakenBy s handler state) {script : Script}
    {failure : Failure} {rest : List Action} (hstart : s.nextStart = .runs script)
    (h : (c.request s).Halts script failure rest) :
    ∃ p, (c.request s).run s.nextStart handler state =
      (c.request s).halt script failure rest p := by
  cases h with
  | badDeadline hlimit =>
    exact ⟨_, (run_runs hnamed hstart).trans (Request.runScript_of_badDeadline hlimit)⟩
  | late hlimit hcause hwords =>
    obtain ⟨p, hrun⟩ := outcome_of_cause htaken hstart hlimit hnamed hcause (by simp)
    rw [Request.failureOf_deadline hwords] at hrun
    exact ⟨p, hrun⟩
  | givenUp hlimit hcause => exact outcome_of_cause htaken hstart hlimit hnamed hcause (by simp)

/-- Each way to end is the end of a call that meets its conditions. -/
lemma run_of_ends (hnamed : c.Named) (htaken : c.TakenBy s handler state)
    {outcome : Except Failure Unit} (h : c.Ends s outcome) :
    (c.run handler state s).1 = outcome := by
  obtain ⟨binary, arguments, hcommand⟩ := hnamed.command
  -- where the process has ended by itself, its status and its diagnostics are checked
  have hexited {code : Int} (hexits : c.Exits s code) : (c.run handler state s).1 =
      (⟨code, c.diagnostics s⟩ : Finished).check c.command s.invocation := by
    obtain ⟨hstart, hlimit, hout⟩ := hexits
    rw [run, (outcome_of_runsOut htaken hstart hlimit hnamed hout).1]
  cases h with
  | notStarted hstart =>
    rw [run, hstart, Request.run_refused _ hnamed.command_ne_nil]
    rfl
  | halted hstart hhalts hwaits =>
    obtain ⟨p, hrun⟩ := run_of_halts hnamed htaken hstart hhalts
    rcases Request.halt_outcome (r := c.request s) _ _ p with ⟨hleft, -⟩ | ⟨-, houtcome⟩
    · exact absurd hleft hwaits
    · rw [run, hrun, houtcome]
  | interrupted hstart hhalts hleft =>
    obtain ⟨p, hrun⟩ := run_of_halts hnamed htaken hstart hhalts
    rcases Request.halt_outcome (r := c.request s) _ _ p with ⟨-, houtcome⟩ | ⟨hwaits, -⟩
    · rw [run, hrun, houtcome]
    · exact absurd hleft hwaits
  | unending hstart hlimit hcause =>
    have hwatched := (watched_of_taken htaken hstart hlimit).1.trans hcause
    rw [run, run_runs hnamed hstart, (Request.runScript_of_unending hlimit hwatched).1]
  | locked hexits hcode hlock =>
    rw [hexited hexits, hcommand, Finished.check_of_failed hcode, if_pos hlock]
  | failed hexits hcode hlock =>
    rw [hexited hexits, hcommand, Finished.check_of_failed hcode, if_neg (by simp [hlock])]
  | succeeded hexits =>
    rw [hexited hexits]
    exact (Finished.check_eq ⟨0, c.diagnostics s⟩ c.command s.invocation).1 rfl

/-- Every call meets the conditions of some end. -/
lemma exists_ends (c : Call) (s : Session) : ∃ outcome, c.Ends s outcome := by
  rcases hstart : s.nextStart with error | script
  · exact ⟨_, .notStarted hstart⟩
  have hstopped {failure : Failure} {rest : List Action}
      (h : (c.request s).Halts script failure rest) : ∃ outcome, c.Ends s outcome := by
    by_cases hleft : LeftAlone script rest
    · exact ⟨_, .interrupted hstart h hleft⟩
    · exact ⟨_, .halted hstart h hleft⟩
  rcases hlimit : (c.request s).limit? with fault | limit
  · exact hstopped (.badDeadline hlimit)
  rcases hcause : (timelineWithin limit script.actions).cause with _ | cause
  · have hexits : c.Exits s script.exitCode := .intro hstart hlimit (cause_timelineWithin.1 hcause)
    by_cases hcode : script.exitCode = 0
    · exact ⟨_, .succeeded (hcode ▸ hexits)⟩
    · cases hlock : showsLock (c.diagnostics s) with
      | true => exact ⟨_, .locked hexits hcode hlock⟩
      | false => exact ⟨_, .failed hexits hcode hlock⟩
  cases cause with
  | handlerFailed failure => exact absurd hcause (cause_timelineWithin_ne limit _ failure)
  | unending => exact ⟨_, .unending hstart hlimit hcause⟩
  | cancelled => exact hstopped (.givenUp hlimit hcause)
  | deadline =>
    obtain ⟨words, hwords⟩ := Request.allowance_ok hlimit
    exact hstopped (.late hlimit hcause hwords)

/-- **A call whose lines are taken ends in exactly one way.** -/
theorem run_iff_ends (hnamed : c.Named) (htaken : c.TakenBy s handler state)
    {outcome : Except Failure Unit} : (c.run handler state s).1 = outcome ↔ c.Ends s outcome := by
  constructor
  · rintro rfl
    obtain ⟨outcome, hends⟩ := exists_ends c s
    rwa [run_of_ends hnamed htaken hends]
  · exact run_of_ends hnamed htaken

/-- Behind a call that succeeds its handler has got all lines. -/
lemma state_of_succeeds (hnamed : c.Named) (htaken : c.TakenBy s handler state)
    (hexits : c.Exits s 0) :
    (c.run handler state s).2.1 = (handler.through (c.heard s) state).1 := by
  generalize hcode : (0 : Int) = code at hexits
  obtain ⟨hstart, hlimit, hout⟩ := hexits
  exact (outcome_of_runsOut htaken hstart hlimit hnamed hout).2

end Call
end BackupSteward.Engine
