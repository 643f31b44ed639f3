import BackupSteward.Proofs.Engine.Ending
import BackupSteward.Proofs.Engine.Given
import BackupSteward.Proofs.Engine.Signals

/-!
# Runs under a shorter and a longer deadline

A deadline cuts a run short and does nothing else: up to the moment when it passes, the run is the
one under any longer deadline.  So the lines that were given to a handler before are never taken
back, and a run that ends in time is the same as if it had had more of it.
-/

namespace BackupSteward.Engine

variable {σ : Type}

/-! ### The order of deadlines -/

/-- A limit passes no later than another one.  What is absent never passes. -/
inductive NoLater : Option Seconds → Option Seconds → Prop
  | finite {shorter longer : Seconds} {length length' : ℚ} (hshorter : shorter.toRat? = some length)
    (hlonger : longer.toRat? = some length') (hle : length ≤ length') :
    NoLater (some shorter) (some longer)
  | least (longer : Option Seconds) : NoLater (some (.double (.infinite true))) longer
  | greatest (shorter : Option Seconds) : NoLater shorter (some (.double (.infinite false)))
  | absent (shorter : Option Seconds) : NoLater shorter none

/-- A deadline comes no later than another one: they are the same, or the first one is a moment that
is not behind the second. -/
def ComesNoLater (deadline later : Option ℚ) : Prop :=
  deadline = later ∨ ∃ limit, deadline = some limit ∧ ∀ limit' ∈ later, limit ≤ limit'

/-- Of two limits of which the shorter one leaves some time, the longer one does so too. -/
lemma NoLater.comesNoLater {limit limit' : Option Seconds} (h : NoLater limit limit')
    (hlater : ¬ PassesAtOnce limit) : ¬ PassesAtOnce limit' ∧
      ComesNoLater (limit.bind Seconds.toRat?) (limit'.bind Seconds.toRat?) := by
  have hnever : ComesNoLater (limit.bind Seconds.toRat?) none := by
    rcases limit.bind Seconds.toRat? with _ | length
    · exact .inl rfl
    · exact .inr ⟨length, rfl, by simp⟩
  cases h with
  | finite hshorter hlonger hle =>
    simp only [PassesAtOnce, Option.map_some, Option.getD_some, Seconds.passesAtOnce, hshorter,
      hlonger, decide_eq_true_eq, not_lt] at hlater ⊢
    refine ⟨hlater.trans hle, .inr ⟨_, hshorter, fun limit' hlimit' => ?_⟩⟩
    cases hlonger.symm.trans hlimit'
    exact hle
  | least => exact absurd rfl hlater
  | greatest => exact ⟨by simp [PassesAtOnce, Seconds.passesAtOnce, Seconds.toRat?, Double.toRat?],
      hnever⟩
  | absent => exact ⟨by simp [PassesAtOnce], hnever⟩

/-! ### What is read -/

/-- Until a moment comes, the same is read as until a later one. -/
lemma reads_timeline_of_le {limit : ℚ} {later : Option ℚ} (h : ∀ limit' ∈ later, limit ≤ limit')
    (actions : List Action) (now : ℚ) :
    (timeline (some limit) actions now).reads <+: (timeline later actions now).reads := by
  induction actions generalizing now with
  | nil => exact List.prefix_rfl
  | cons action rest ih =>
    cases action with
    | write pipe chunk => exact (List.prefix_append_right_inj _).2 (ih now)
    | failPipe pipe error => exact (List.prefix_append_right_inj _).2 (ih now)
    | closeOutput => exact (List.prefix_append_right_inj _).2 (ih now)
    | cancel => exact List.prefix_rfl
    | hang => exact List.nil_prefix
    | sleep seconds =>
      by_cases hintime : now + seconds < limit
      · rw [timeline_sleep rest (by simpa using hintime),
          timeline_sleep rest fun limit' hlimit' => hintime.trans_le (h limit' hlimit')]
        exact ih (now + seconds)
      · rw [timeline, if_neg hintime]
        exact List.nil_prefix

/-- What is heard within a limit comes first of what is heard within a longer one. -/
lemma lines_timelineWithin_of_noLater {limit limit' : Option Seconds} (h : NoLater limit limit')
    (actions : List Action) :
    (timelineWithin limit actions).lines <+: (timelineWithin limit' actions).lines := by
  refine linesOf_front ?_ _
  by_cases hatOnce : PassesAtOnce limit
  · rw [timelineWithin_of_passesAtOnce hatOnce]
    exact List.nil_prefix
  obtain ⟨hlater, hsame | ⟨length, hlength, hle⟩⟩ := h.comesNoLater hatOnce <;>
    rw [timelineWithin_of_not_passesAtOnce hatOnce, timelineWithin_of_not_passesAtOnce hlater]
  · exact hsame ▸ List.prefix_rfl
  · rw [hlength]
    exact reads_timeline_of_le hle actions 0

/-! ### The whole watch -/

section

variable (handler : Handler σ)

lemma Watched.orStop_congr {step : Progress σ × Option Failure} {rest : List Action}
    {next next' : Progress σ → Watched σ} {cause : Option Cause}
    (hnext : ∀ p, (next p).cause ≠ cause → next' p = next p)
    (h : (Watched.orStop step rest next).cause ≠ cause) :
    Watched.orStop step rest next' = Watched.orStop step rest next := by
  obtain ⟨p, _ | failure⟩ := step
  · exact hnext p h
  · rfl

lemma watch_sleep {deadline : Option ℚ} {seconds now : ℚ} (rest : List Action)
    (h : ∀ limit ∈ deadline, now + seconds < limit) (p : Progress σ) :
    watch handler deadline (.sleep seconds :: rest) now p =
      watch handler deadline rest (now + seconds) p := by
  cases deadline with
  | none => rfl
  | some limit => rw [watch, if_pos (h limit rfl)]

/-- A watch that is not stopped at a moment goes as it does under a later deadline. -/
lemma watch_of_le {limit : ℚ} {later : Option ℚ} (h : ∀ limit' ∈ later, limit ≤ limit')
    (actions : List Action) (now : ℚ) (p : Progress σ)
    (hcause : (watch handler (some limit) actions now p).cause ≠ some .deadline) :
    watch handler later actions now p = watch handler (some limit) actions now p := by
  induction actions generalizing now p with
  | nil => rfl
  | cons action rest ih =>
    cases action with
    | write pipe chunk => exact Watched.orStop_congr (ih now) hcause
    | failPipe pipe error => exact Watched.orStop_congr (ih now) hcause
    | closeOutput => exact Watched.orStop_congr (ih now) hcause
    | cancel => rfl
    | hang => exact absurd rfl hcause
    | sleep seconds =>
      by_cases hintime : now + seconds < limit
      · have hshorter : watch handler (some limit) (.sleep seconds :: rest) now p =
            watch handler (some limit) rest (now + seconds) p :=
          watch_sleep handler rest (by simpa using hintime) p
        rw [hshorter] at hcause ⊢
        rw [watch_sleep handler rest fun limit' hlimit' => hintime.trans_le (h limit' hlimit')]
        exact ih (now + seconds) p hcause
      · rw [watch, if_neg hintime] at hcause
        exact absurd rfl hcause

end

lemma watchWithin_of_noLater {limit limit' : Option Seconds} (h : NoLater limit limit')
    (script : Script) (handler : Handler σ) (p : Progress σ)
    (hcause : (Request.watchWithin limit script handler p).cause ≠ some .deadline) :
    Request.watchWithin limit' script handler p = Request.watchWithin limit script handler p := by
  by_cases hatOnce : PassesAtOnce limit
  · rw [Request.watchWithin, if_pos hatOnce] at hcause
    exact absurd rfl hcause
  obtain ⟨hlater, hsame | ⟨length, hlength, hle⟩⟩ := h.comesNoLater hatOnce <;>
    rw [Request.watchWithin, Request.watchWithin, if_neg hatOnce, if_neg hlater]
  · rw [hsame]
  · rw [Request.watchWithin, if_neg hatOnce, hlength] at hcause
    rw [hlength]
    exact watch_of_le handler hle script.actions 0 p hcause

/-! ### Runs -/

/-- A run has failed because its process was late. -/
def Run.IsLate (run : Run σ) : Prop :=
  ∃ operation words command invocation,
    run.outcome = .error (.deadlineExceeded operation words command invocation)

/-- The caller does not give up whatever a started process does. -/
def Start.NeverCancelled (start : Start) : Prop :=
  ∀ script, start = .runs script → Action.cancel ∉ script.actions

/-- What a process would do after it has been stopped is some of what it would have done. -/
lemma cancel_mem_of_rest {deadline : Option ℚ} {actions : List Action} {now : ℚ}
    (h : Action.cancel ∈ (timeline deadline actions now).rest) : Action.cancel ∈ actions := by
  induction actions generalizing now with
  | nil => exact h
  | cons action rest ih =>
    have hstep := timelineStep_cons deadline action rest now
    generalize timeline deadline (action :: rest) now = t at h hstep
    cases hstep with
    | goesOn later => exact .tail _ (ih h)
    | givesUp => exact List.mem_cons_self
    | hangs => simp at h
    | late => simpa using h

lemma cancel_mem_of_restWithin {limit : Option Seconds} {actions : List Action}
    (h : Action.cancel ∈ (timelineWithin limit actions).rest) : Action.cancel ∈ actions := by
  unfold timelineWithin at h
  split at h
  · exact h
  · exact cancel_mem_of_rest h

namespace Request

variable {r : Request} {operation : Value} {script : Script} {handler : Handler σ} {state : σ}

/-- A process that is stopped when its deadline passes is late, if the caller does not give up and
the handler takes every line. -/
lemma isLate_runScript {limit : Option Seconds} (hlimit : r.limit? = .ok limit)
    (hcaller : Action.cancel ∉ script.actions)
    (hhandler : ∀ pipe text state, (handler pipe text state).failure = none)
    (hcause : (r.watched operation limit script handler state).cause = some .deadline) :
    (r.runScript operation script handler state).IsLate := by
  obtain ⟨words, hwords⟩ := allowance_ok hlimit
  obtain ⟨-, hrest, -⟩ := (follows_watched r operation limit script handler state).taken
    (Handler.taken_of_never hhandler _ state)
  obtain ⟨p, hhalt⟩ := runScript_of_cause hlimit hcause (by simp)
  have hwaits : ¬ LeftAlone script (r.watched operation limit script handler state).rest := by
    rw [hrest]
    exact fun hleft => hcaller (cancel_mem_of_restWithin hleft.givesUp.cancel_mem)
  rw [hhalt, failureOf_deadline hwords]
  rcases halt_outcome (r := r) _ _ p with ⟨hleft, -⟩ | ⟨-, houtcome⟩
  · exact absurd hleft hwaits
  · exact ⟨_, _, _, _, houtcome⟩

/-- A request with another deadline. -/
def within (r : Request) (deadline : Value) : Request := { r with deadline }

/-- The deadlines of two requests can be kept, and that of the first passes no later. -/
def NoLater (r r' : Request) : Prop :=
  ∃ limit limit', r.limit? = .ok limit ∧ r'.limit? = .ok limit' ∧ Engine.NoLater limit limit'

variable {shorter longer : Value} (h : (r.within shorter).NoLater (r.within longer))

include h

lemma heard_of_noLater (start : Start) :
    (r.within shorter).heard start <+: (r.within longer).heard start := by
  obtain ⟨limit, limit', hlimit, hlimit', hle⟩ := h
  have hname : (r.within longer).operationName = (r.within shorter).operationName := rfl
  rcases hsame : (r.within shorter).operationName with fault | operation <;> rw [hsame] at hname
  · unfold heard
    rw [hsame]
    exact List.nil_prefix
  cases start with
  | refused error =>
    unfold heard
    rw [hsame]
    exact List.nil_prefix
  | runs script =>
    rw [heard_runs hsame hlimit, heard_runs hname hlimit']
    exact lines_timelineWithin_of_noLater hle script.actions

lemma runScript_of_noLater {limit : Option Seconds} (hlimit : (r.within shorter).limit? = .ok limit)
    (hcause : ((r.within shorter).watched operation limit script handler state).cause ≠
      some .deadline) :
    (r.within longer).runScript operation script handler state =
      (r.within shorter).runScript operation script handler state := by
  obtain ⟨_, limit', hlimit₁, hlimit', hle⟩ := h
  cases hlimit₁.symm.trans hlimit
  have hwatched : (r.within longer).watched operation limit' script handler state =
      (r.within shorter).watched operation limit script handler state :=
    watchWithin_of_noLater hle script handler _ hcause
  rw [runScript, runScript, hlimit, hlimit']
  dsimp only [watched] at hwatched hcause ⊢
  rw [hwatched]
  generalize watchWithin limit script handler _ = w at hcause
  split
  case h_1 => rfl
  case h_2 => rfl
  case h_3 cause hnot hsome =>
    -- of the causes only the deadline is told by how long it is
    cases cause with
    | handlerFailed failure => rfl
    | deadline => exact absurd hsome hcause
    | cancelled => rfl
    | unending => rfl

/-- A run that is not stopped by its deadline is the same under a longer one. -/
lemma run_of_noLater {start : Start} (hcaller : start.NeverCancelled)
    (hhandler : ∀ pipe text state, (handler pipe text state).failure = none)
    (hinTime : ¬ ((r.within shorter).run start handler state).IsLate) :
    (r.within longer).run start handler state = (r.within shorter).run start handler state := by
  have hname : (r.within longer).operationName = (r.within shorter).operationName := rfl
  unfold run at hinTime ⊢
  rw [hname]
  rcases hsame : (r.within shorter).operationName with fault | operation
  · rfl
  cases start with
  | refused error => rfl
  | runs script =>
    rw [hsame] at hinTime
    obtain ⟨limit, -, hlimit, -, -⟩ := id h
    exact runScript_of_noLater h hlimit fun hcause =>
      hinTime (isLate_runScript hlimit (hcaller script rfl) hhandler hcause)

end Request

/-- **Deadlines only truncate.**  Under a shorter deadline a handler that never fails is given the
first of the lines that it is given under a longer one, and if the process is not late then the two
runs are the same in everything.  Likewise, any other handler is given these lines up to the one
that it fails on. -/
theorem deadlines_truncate (r : Request) (start : Start) (handler : Handler σ) (state : σ)
    {shorter longer : Value} (hdeadlines : (r.within shorter).NoLater (r.within longer))
    (hcaller : start.NeverCancelled)
    (hhandler : ∀ pipe text state, (handler pipe text state).failure = none) :
    let whole := (r.within shorter).given handler state start
    whole <+: (r.within longer).given handler state start ∧
    (¬ ((r.within shorter).run start handler state).IsLate →
      (r.within longer).given handler state start = whole ∧
      (r.within longer).run start handler state = (r.within shorter).run start handler state) ∧
    ∀ {τ : Type} (failing : Handler τ) (t : τ) (n : ℕ),
      (failing.FailsAt t ((r.within shorter).given failing t start) n ↔ failing.FailsAt t whole n) ∧
      (failing.FailsAt t whole n → (r.within shorter).given failing t start = whole.take n) := by
  have hwhole {deadline : Value} : (r.within deadline).given handler state start =
      (r.within deadline).heard start :=
    Request.given_of_taken (Handler.taken_of_never hhandler _ state)
  refine ⟨?_, fun hinTime => ⟨?_, Request.run_of_noLater hdeadlines hcaller hhandler hinTime⟩,
    fun failing t n => ?_⟩
  · rw [hwhole, hwhole]
    exact Request.heard_of_noLater hdeadlines start
  · -- the handler that writes the lines down does not make the process late
    have hrecorded : ¬ ((r.within shorter).run start handler.recorded (state, [])).IsLate := by
      rwa [Run.IsLate, ((r.within shorter).alike_recorded handler state start []).outcome]
    rw [Request.given,
      Request.run_of_noLater hdeadlines hcaller (fun pipe text state => ?_) hrecorded]
    · rfl
    · exact hhandler pipe text state.1
  · rw [hwhole]
    exact ⟨Request.failsAt_given_iff, Request.given_of_failsAt⟩

/-- A process that says something, sleeps for a second and says more is cut short by a deadline of a
second and not by one of two, and a handler that fails on the second line is given no third. -/
theorem deadlines_truncate_sleeping :
    let r : Request := ⟨["restic", "backup"], [], none, .null, .str "", "run"⟩
    let script : Script := ⟨[.write .stdout "a\nb\nc".toUTF8.toList, .sleep 1,
      .write .stdout "d\n".toUTF8.toList], 0, false, false, false⟩
    let failing : Handler ℕ := fun _ _ lines =>
      ⟨lines + 1, [], none, if lines = 1 then some .interrupted else none⟩
    let start := Start.runs script
    (r.within (.int 1)).NoLater (r.within (.int 2)) ∧ start.NeverCancelled ∧
      (r.within (.int 1)).given Handler.silent () start = [(.stdout, "a"), (.stdout, "b")] ∧
      (r.within (.int 1)).given Handler.silent () start <+:
        (r.within (.int 2)).given Handler.silent () start ∧
      ¬ ((r.within (.int 2)).run start Handler.silent ()).IsLate ∧
      (r.within .null).run start Handler.silent () =
        (r.within (.int 2)).run start Handler.silent () ∧
      failing.FailsAt 0 ((r.within .null).given Handler.silent () start) 2 ∧
      (r.within .null).given failing 0 start =
        ((r.within .null).given Handler.silent () start).take 2 := by
  intro r script failing start
  have hcaller : start.NeverCancelled := by
    intro other hother
    rw [← Start.runs.inj hother]
    simp [script]
  have hsilent (pipe : Pipe) (text : String) (state : Unit) :
      (Handler.silent pipe text state).failure = none := rfl
  have hfirst : (r.within (.int 1)).NoLater (r.within (.int 2)) :=
    ⟨_, _, rfl, rfl, .finite rfl rfl (by norm_num)⟩
  have hsecond : (r.within (.int 2)).NoLater (r.within .null) := ⟨_, _, rfl, rfl, .absent _⟩
  have hnever : (r.within .null).NoLater (r.within .null) := ⟨_, _, rfl, rfl, .absent _⟩
  obtain ⟨hfront, -, -⟩ :=
    deadlines_truncate r start Handler.silent () hfirst hcaller hsilent
  obtain ⟨-, hsame, -⟩ :=
    deadlines_truncate r start Handler.silent () hsecond hcaller hsilent
  obtain ⟨-, -, hfails⟩ :=
    deadlines_truncate r start Handler.silent () hnever hcaller hsilent
  have hinTime : ¬ ((r.within (.int 2)).run start Handler.silent ()).IsLate := by
    have hok : ((r.within (.int 2)).run start Handler.silent ()).outcome.toOption.isSome := by
      decide +kernel
    rintro ⟨operation, words, command, invocation, hlate⟩
    rw [hlate] at hok
    cases hok
  have hlines : (r.within .null).given Handler.silent () start =
      [(.stdout, "a"), (.stdout, "b"), (.stdout, "cd")] := by decide +kernel
  have hsecondLine : failing.FailsAt 0 ((r.within .null).given Handler.silent () start) 2 := by
    rw [hlines]
    exact ⟨[(.stdout, "a")], (.stdout, "b"), [(.stdout, "cd")], .interrupted, rfl, rfl, rfl, rfl⟩
  exact ⟨hfirst, hcaller, by decide +kernel, hfront, hinTime, (hsame hinTime).2, hsecondLine,
    (hfails failing 0 2).2 hsecondLine⟩

end BackupSteward.Engine
