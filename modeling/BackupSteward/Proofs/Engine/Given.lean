import BackupSteward.Proofs.Engine.Alike
import BackupSteward.Proofs.Engine.Ending

/-!
# What a handler is given in a run

What is heard of a process is settled by the process and its deadline, whoever handles it.  How much
of that a handler is given is settled by the handler alone: everything, or all up to and with the
first line that it fails on.
-/

namespace BackupSteward.Engine

variable {σ : Type}

namespace Handler

/-- A handler that also writes down the lines that it is given. -/
def recorded (handler : Handler σ) : Handler (σ × List (Pipe × String)) :=
  fun pipe text state =>
    let r := handler pipe text state.1
    ⟨(r.state, state.2 ++ [(pipe, text)]), r.notices, r.resumed, r.failure⟩

/-- A handler takes some lines and fails on the next one. -/
structure FailsBehind (handler : Handler σ) (state : σ) (front : List (Pipe × String))
    (line : Pipe × String) (failure : Failure) : Prop where
  taken : (handler.through front state).2 = none
  fails : (handler line.1 line.2 (handler.through front state).1).failure = some failure

variable {handler : Handler σ} {state : σ} {front lines : List (Pipe × String)}
  {line : Pipe × String} {failure : Failure}

/-- What comes behind the line that a handler fails on has no influence on it. -/
lemma FailsBehind.through (h : handler.FailsBehind state front line failure)
    (back : List (Pipe × String)) : handler.through (front ++ line :: back) state =
      ((handler line.1 line.2 (handler.through front state).1).state, some failure) := by
  obtain ⟨htaken, hfails⟩ := h
  rw [through_append]
  generalize handler.through front state = told at htaken hfails
  obtain ⟨told, failed⟩ := told
  cases htaken
  dsimp only at hfails ⊢
  rw [Handler.through, hfails]

/-- A handler takes all lines, or there is a first one that it fails on. -/
lemma taken_or_failsBehind (handler : Handler σ) (lines : List (Pipe × String)) (state : σ) :
    (handler.through lines state).2 = none ∨
      ∃ front line back failure, lines = front ++ line :: back ∧
        handler.FailsBehind state front line failure := by
  induction lines generalizing state with
  | nil => exact .inl rfl
  | cons line lines ih =>
    obtain ⟨pipe, text⟩ := line
    rw [through]
    cases hfails : (handler pipe text state).failure with
    | some failure => exact .inr ⟨[], (pipe, text), lines, failure, rfl, rfl, hfails⟩
    | none =>
      refine (ih (handler pipe text state).state).imp_right ?_
      rintro ⟨front, line, back, failure, rfl, htaken, hfails'⟩
      refine ⟨(pipe, text) :: front, line, back, failure, rfl, ?_, ?_⟩ <;> rw [through, hfails]
      · exact htaken
      · exact hfails'

/-- A handler that never fails takes all lines. -/
lemma taken_of_never (h : ∀ pipe text state, (handler pipe text state).failure = none)
    (lines : List (Pipe × String)) (state : σ) : (handler.through lines state).2 = none := by
  rcases taken_or_failsBehind handler lines state with htaken | ⟨_, line, _, failure, -, -, hfails⟩
  · exact htaken
  · exact absurd (hfails.symm.trans (h _ _ _)) (by simp)

/-- Lines that are taken are all written down. -/
lemma through_recorded_of_taken (h : (handler.through lines state).2 = none)
    (given : List (Pipe × String)) : handler.recorded.through lines (state, given) =
      (((handler.through lines state).1, given ++ lines), none) := by
  induction lines generalizing state given with
  | nil => simp [through]
  | cons line lines ih =>
    obtain ⟨pipe, text⟩ := line
    rw [through] at h ⊢
    cases hfails : (handler pipe text state).failure with
    | some failure =>
      rw [hfails] at h
      cases h
    | none =>
      rw [hfails] at h
      have hrecorded : (handler.recorded pipe text (state, given)).failure = none := hfails
      rw [hrecorded]
      dsimp only
      rw [through, hfails]
      have hlater := ih h (given ++ [(pipe, text)])
      rwa [List.append_assoc, List.singleton_append] at hlater

/-- The line that a handler fails on is the last one that is written down. -/
lemma FailsBehind.through_recorded (h : handler.FailsBehind state front line failure)
    (given back : List (Pipe × String)) :
    (handler.recorded.through (front ++ line :: back) (state, given)).1.2 =
      given ++ (front ++ [line]) := by
  have hfront := through_recorded_of_taken h.taken given
  have hrecorded : handler.recorded.FailsBehind (state, given) front line failure := by
    refine ⟨by rw [hfront], ?_⟩
    rw [hfront]
    exact h.fails
  rw [hrecorded.through back, hfront, ← List.append_assoc]
  rfl

/-- A handler fails on the `n`-th of some lines. -/
def FailsAt (handler : Handler σ) (state : σ) (lines : List (Pipe × String)) (n : ℕ) : Prop :=
  ∃ front line back failure, lines = front ++ line :: back ∧ front.length + 1 = n ∧
    handler.FailsBehind state front line failure

/-- There is only one line that a handler fails on. -/
lemma FailsBehind.failsAt_iff (h : handler.FailsBehind state front line failure)
    (back : List (Pipe × String)) {n : ℕ} :
    handler.FailsAt state (front ++ line :: back) n ↔ front.length + 1 = n := by
  refine ⟨?_, fun hn => ⟨front, line, back, failure, rfl, hn, h⟩⟩
  rintro ⟨front', line', back', failure', heq, rfl, h'⟩
  -- both are the last one that is written down
  have hgiven := h.through_recorded [] back
  rw [heq, h'.through_recorded [] back', List.nil_append, List.nil_append] at hgiven
  simpa using (congrArg List.length hgiven).symm

end Handler

lemma state_stop (script : Script) (rest : List Action) (p : Progress σ) :
    (stop script rest p).progress.state = p.state := by
  have hignore (q : Progress σ) (pipe : Pipe) (read : LineReader × List Frame) :
      (q.ignore pipe read).state = q.state := by cases pipe <;> rfl
  have hignoreEnd (q : Progress σ) : q.ignoreEnd.state = q.state := by
    rw [Progress.ignoreEnd, hignore, hignore]
  have hlinger (left : Rat) : (linger script rest left p).progress.state = p.state := by
    fun_induction linger script rest left p <;> simp_all [kill]
  unfold stop
  split
  · rfl
  · split
    · exact hlinger graceSeconds
    · rfl

namespace Request

variable (r : Request)

section

variable (operation : Value) (script : Script) (handler : Handler σ) (state : σ)

/-- A handler is given nothing if there is no way to keep the deadline. -/
lemma state_of_badDeadline {fault : Fault} (hlimit : r.limit? = .error fault) :
    (r.runScript operation script handler state).state = state := by
  rw [runScript_of_badDeadline hlimit, halt]
  exact state_stop script script.actions _

/-- Otherwise it is given what is heard of the process. -/
lemma state_runScript {limit : Option Seconds} (hlimit : r.limit? = .ok limit) :
    (r.runScript operation script handler state).state =
      (handler.through (timelineWithin limit script.actions).lines state).1 := by
  rw [← (follows_watched r operation limit script handler state).state, runScript, hlimit, watched]
  dsimp only
  split
  · rfl
  · rfl
  · exact state_stop script _ _

/-- Writing the lines down has no influence on a run. -/
theorem alike_recorded (start : Start) (given : List (Pipe × String)) :
    (r.run start handler.recorded (state, given)).Alike (fun s t => s.1 = t) (fun _ => true)
      (r.run start handler state) := by
  have hsame : handler.recorded.InStep (fun s t => s.1 = t) (fun _ => true) handler := by
    rintro pipe text s t rfl
    exact ⟨rfl, rfl, rfl, rfl⟩
  exact r.alike_run hsame.keepAlike rfl start

end

/-- The lines that are heard of the process of a request. -/
def heard (start : Start) : List (Pipe × String) :=
  match r.operationName, start, r.limit? with
  | .ok _, .runs script, .ok limit => (timelineWithin limit script.actions).lines
  | _, _, _ => []

variable {r} in
lemma heard_runs {operation : Value} {script : Script} {limit : Option Seconds}
    (hname : r.operationName = .ok operation) (hlimit : r.limit? = .ok limit) :
    r.heard (.runs script) = (timelineWithin limit script.actions).lines := by
  unfold heard
  rw [hname, hlimit]

/-- The lines that a handler is given in a run. -/
def given (handler : Handler σ) (state : σ) (start : Start) : List (Pipe × String) :=
  (r.run start handler.recorded (state, [])).state.2

/-- Behind a run its handler is in the state that the lines of the process have led it to, however
the run has ended. -/
lemma state_run (handler : Handler σ) (state : σ) (start : Start) :
    (r.run start handler state).state = (handler.through (r.heard start) state).1 := by
  unfold run heard
  rcases r.operationName with fault | operation
  · rfl
  rcases start with error | script
  · rfl
  rcases hlimit : r.limit? with fault | limit
  · exact state_of_badDeadline r operation script handler state hlimit
  · exact state_runScript r operation script handler state hlimit

variable {r} {handler : Handler σ} {state : σ} {start : Start}

/-- A handler that takes what is heard is given all of it. -/
lemma given_of_taken (h : (handler.through (r.heard start) state).2 = none) :
    r.given handler state start = r.heard start := by
  rw [given, state_run, Handler.through_recorded_of_taken h]
  rfl

/-- Any other handler is given all up to and with the line that it fails on. -/
lemma given_of_failsBehind {front back : List (Pipe × String)} {line : Pipe × String}
    {failure : Failure} (hheard : r.heard start = front ++ line :: back)
    (h : handler.FailsBehind state front line failure) :
    r.given handler state start = front ++ [line] := by
  rw [given, state_run, hheard, h.through_recorded]
  rfl

lemma given_front : r.given handler state start <+: r.heard start := by
  rcases handler.taken_or_failsBehind (r.heard start) state with
    htaken | ⟨front, line, back, failure, hheard, h⟩
  · exact given_of_taken htaken ▸ List.prefix_rfl
  · rw [given_of_failsBehind hheard h, hheard]
    exact ⟨back, by simp⟩

/-- A handler has taken all lines of a process that gives a result. -/
lemma taken_of_outcome {finished : Finished}
    (h : (r.run start handler state).outcome = .ok finished) :
    (handler.through (r.heard start) state).2 = none ∧
      finished.diagnostics = keptBehind (r.heard start) [] := by
  unfold run at h
  rcases hname : r.operationName with fault | operation <;> rw [hname] at h
  · cases h
  rcases start with error | script
  · cases h
  obtain ⟨limit, hlimit, hcause⟩ := not_stopped_of_outcome h
  have hfollows := follows_watched r operation limit script handler state
  rw [heard_runs hname hlimit]
  have htaken : (handler.through (timelineWithin limit script.actions).lines state).2 = none := by
    -- a handler that fails is a cause to stop the process
    cases htaken : (handler.through (timelineWithin limit script.actions).lines state).2 with
    | none => rfl
    | some failure => cases hcause.symm.trans (hfollows.failed failure htaken)
  rw [(runScript_of_end hlimit hcause).1] at h
  obtain ⟨-, -, hkept⟩ := hfollows.taken htaken
  exact ⟨htaken, (Except.ok.inj h) ▸ hkept⟩

/-- Whatever a handler fails on among the lines that are heard, it was given. -/
lemma failsAt_given_iff {n : ℕ} : handler.FailsAt state (r.given handler state start) n ↔
    handler.FailsAt state (r.heard start) n := by
  rcases handler.taken_or_failsBehind (r.heard start) state with
    htaken | ⟨front, line, back, failure, hheard, h⟩
  · rw [given_of_taken htaken]
  · rw [given_of_failsBehind hheard h, hheard, h.failsAt_iff, h.failsAt_iff]

/-- A handler that fails on some line is given the lines up to this one. -/
lemma given_of_failsAt {n : ℕ} (h : handler.FailsAt state (r.heard start) n) :
    r.given handler state start = (r.heard start).take n := by
  obtain ⟨front, line, back, failure, hheard, rfl, hfails⟩ := h
  rw [given_of_failsBehind hheard hfails, hheard, List.take_length_add_append, List.take_one]
  rfl

end Request

namespace Call

variable {c : Call} {s : Session}

lemma heard_request (hcommand : c.command ≠ []) :
    (c.request s).heard s.nextStart = c.heard s := by
  obtain ⟨operation, hname⟩ := Request.operationName_ok (r := c.request s) hcommand
  unfold Request.heard heard
  rw [hname]
  rcases s.nextStart with error | script
  · rfl
  · cases (c.request s).limit? <;> rfl

/-- Behind a call its handler is in the state that the lines of the process have led it to, however
the call has ended. -/
lemma state_run (hcommand : c.command ≠ []) (handler : Handler σ) (state : σ) (s : Session) :
    (c.run handler state s).2.1 = (handler.through (c.heard s) state).1 := by
  rw [← heard_request hcommand]
  exact (c.request s).state_run handler state s.nextStart

/-- Behind a call that succeeds its handler has taken all lines. -/
lemma taken_of_ok (hcommand : c.command ≠ []) {handler : Handler σ} {state : σ}
    (hok : (c.run handler state s).1 = .ok ()) : c.TakenBy s handler state := by
  rw [run] at hok
  cases houtcome : ((c.request s).run s.nextStart handler state).outcome with
  | ok finished =>
    rw [TakenBy, ← heard_request hcommand]
    exact (Request.taken_of_outcome houtcome).1
  | error failure =>
    rw [houtcome] at hok
    cases hok

end Call

end BackupSteward.Engine
