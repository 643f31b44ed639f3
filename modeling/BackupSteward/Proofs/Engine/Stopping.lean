import BackupSteward.Proofs.Engine.Delivery
import Mathlib.Algebra.Order.Ring.Rat
import Mathlib.Tactic.Linarith

/-!
# When a process outlives its run

A run that comes to its end leaves no process behind, except in one case: the process is to be
stopped and takes its time, and the caller gives up while the run waits for it.  The file settles
when this happens.  It begins with the time that a process takes and with what can put an end to it
before it has ended by itself.
-/

namespace BackupSteward.Engine

variable {σ : Type}

/-! ### Time -/

/-- How long an action takes. -/
def Action.seconds : Action → Rat
  | .sleep seconds => seconds
  | _ => 0

/-- How long some actions take. -/
def elapsed (actions : List Action) : Rat := (actions.map Action.seconds).sum

/-- At no moment of some actions a limit has passed. -/
def InTime (limit : Rat) (actions : List Action) : Prop :=
  ∀ part, part <+: actions → elapsed part < limit

/-- Some actions do not last for ever or beyond a limit, and the caller does not give up
meanwhile. -/
structure Undisturbed (limit : Option Rat) (actions : List Action) : Prop where
  notCancelled : Action.cancel ∉ actions
  notHanging : Action.hang ∉ actions
  inTime : ∀ length ∈ limit, InTime length actions

lemma elapsed_cons (action : Action) (rest : List Action) :
    elapsed (action :: rest) = action.seconds + elapsed rest := by
  simp [elapsed]

lemma inTime_nil {limit : Rat} : InTime limit [] ↔ 0 < limit := by
  constructor
  · intro h
    exact h [] List.prefix_rfl
  · intro hlimit part hpart
    rw [List.prefix_nil.1 hpart]
    exact hlimit

lemma inTime_cons {limit : Rat} {action : Action} {rest : List Action} :
    InTime limit (action :: rest) ↔ 0 < limit ∧ InTime (limit - action.seconds) rest := by
  constructor
  · refine fun h => ⟨h [] List.nil_prefix, fun part hpart => ?_⟩
    have := h (action :: part) ((List.prefix_cons_inj action).2 hpart)
    rw [elapsed_cons] at this
    linarith
  · rintro ⟨hlimit, h⟩ part hpart
    rcases List.prefix_cons_iff.1 hpart with rfl | ⟨part, rfl, hpart⟩
    · exact hlimit
    · have := h part ((List.prefix_cons_inj action).1 hpart)
      rw [elapsed_cons]
      linarith

lemma InTime.pos {limit : Rat} {actions : List Action} (h : InTime limit actions) : 0 < limit :=
  h [] List.nil_prefix

lemma undisturbed_nil {limit : Option Rat} (hlimit : ∀ length ∈ limit, 0 < length) :
    Undisturbed limit [] :=
  ⟨List.not_mem_nil, List.not_mem_nil, fun length h => inTime_nil.2 (hlimit length h)⟩

/-- The first action takes its time off the limit. -/
lemma undisturbed_cons {limit : Option Rat} (hlimit : ∀ length ∈ limit, 0 < length)
    {action : Action} {rest : List Action} (hcancel : action ≠ .cancel) (hhang : action ≠ .hang) :
    Undisturbed limit (action :: rest) ↔ Undisturbed (limit.map (· - action.seconds)) rest := by
  constructor
  · rintro ⟨hnotCancelled, hnotHanging, hinTime⟩
    refine ⟨fun h => hnotCancelled (.tail _ h), fun h => hnotHanging (.tail _ h), fun left h => ?_⟩
    obtain ⟨length, hlength, rfl⟩ := Option.map_eq_some_iff.1 h
    exact (inTime_cons.1 (hinTime length hlength)).2
  · rintro ⟨hnotCancelled, hnotHanging, hinTime⟩
    refine ⟨?_, ?_, fun length h => inTime_cons.2 ⟨hlimit length h, ?_⟩⟩
    · simpa using ⟨hcancel.symm, hnotCancelled⟩
    · simpa using ⟨hhang.symm, hnotHanging⟩
    · exact hinTime _ (Option.mem_map_of_mem _ h)

lemma not_undisturbed_cancel {limit : Option Rat} {rest : List Action} :
    ¬ Undisturbed limit (.cancel :: rest) := fun h => h.notCancelled List.mem_cons_self

lemma not_undisturbed_hang {limit : Option Rat} {rest : List Action} :
    ¬ Undisturbed limit (.hang :: rest) := fun h => h.notHanging List.mem_cons_self

/-- A process is heard to its end if and only if it is undisturbed. -/
lemma cause_timeline {deadline : Option Rat} (actions : List Action) {now : Rat}
    (hnow : ∀ limit ∈ deadline, now < limit) :
    (timeline deadline actions now).cause = none ↔
      Undisturbed (deadline.map (· - now)) actions := by
  have hleft : ∀ length ∈ deadline.map (· - now), 0 < length := by
    intro length hlength
    obtain ⟨limit, hlimit, rfl⟩ := Option.map_eq_some_iff.1 hlength
    have := hnow limit hlimit
    linarith
  induction actions generalizing now with
  | nil => exact iff_of_true rfl (undisturbed_nil hleft)
  | cons action rest ih =>
    -- most actions take no time
    have hquick (hcancel : action ≠ .cancel) (hhang : action ≠ .hang) (hnone : action.seconds = 0) :
        (timeline deadline rest now).cause = none ↔
          Undisturbed (deadline.map (· - now)) (action :: rest) := by
      rw [undisturbed_cons hleft hcancel hhang, hnone]
      simp only [sub_zero, Option.map_id']
      exact ih hnow hleft
    cases action with
    | write pipe chunk => exact hquick (by simp) (by simp) rfl
    | failPipe pipe error => exact hquick (by simp) (by simp) rfl
    | closeOutput => exact hquick (by simp) (by simp) rfl
    | cancel => exact iff_of_false (by simp [timeline]) not_undisturbed_cancel
    | hang => exact iff_of_false (by simp [timeline]) not_undisturbed_hang
    | sleep seconds =>
      rw [undisturbed_cons hleft (by simp) (by simp)]
      cases deadline with
      | none => exact ih (by simp) (by simp)
      | some limit =>
        simp only [timeline, Option.map_some, Action.seconds, sub_sub]
        by_cases hintime : now + seconds < limit
        · rw [if_pos hintime]
          exact ih (by simpa using hintime) (by simpa using hintime)
        · rw [if_neg hintime]
          refine iff_of_false (by simp) fun h => hintime ?_
          have := (h.inTime _ rfl).pos
          linarith

/-- While nothing disturbs a process, its actions are read one after the other. -/
lemma timeline_append {deadline : Option Rat} {front : List Action} (rest : List Action)
    {now : Rat} (h : Undisturbed (deadline.map (· - now)) front) :
    timeline deadline (front ++ rest) now =
      (timeline deadline rest (now + elapsed front)).behind (front.flatMap Action.reads) := by
  have hleft : ∀ length ∈ deadline.map (· - now), 0 < length :=
    fun length hlength => (h.inTime length hlength).pos
  induction front generalizing now with
  | nil => simp [elapsed, Timeline.behind]
  | cons action front ih =>
    -- most actions take no time
    have hquick (hcancel : action ≠ .cancel) (hhang : action ≠ .hang)
        (hnone : action.seconds = 0) :
        (timeline deadline (front ++ rest) now).behind action.reads =
          (timeline deadline rest (now + elapsed (action :: front))).behind
            ((action :: front).flatMap Action.reads) := by
      rw [undisturbed_cons hleft hcancel hhang, hnone] at h
      simp only [sub_zero, Option.map_id'] at h
      rw [ih h hleft, Timeline.behind_behind, List.flatMap_cons, elapsed_cons, hnone, zero_add]
    cases action with
    | write pipe chunk => exact hquick (by simp) (by simp) rfl
    | failPipe pipe error => exact hquick (by simp) (by simp) rfl
    | closeOutput => exact hquick (by simp) (by simp) rfl
    | cancel => exact absurd h not_undisturbed_cancel
    | hang => exact absurd h not_undisturbed_hang
    | sleep seconds =>
      rw [undisturbed_cons hleft (by simp) (by simp)] at h
      have hlater : Undisturbed (deadline.map (· - (now + seconds))) front := by
        simpa [Function.comp_def, sub_sub, Action.seconds] using h
      have hintime : ∀ limit ∈ deadline, now + seconds < limit := by
        rintro limit rfl
        have := (hlater.inTime (limit - (now + seconds)) rfl).pos
        linarith
      rw [List.cons_append, timeline_sleep _ hintime,
        ih hlater fun length hlength => (hlater.inTime length hlength).pos, add_assoc]
      rfl

/-- A limit passes at once, if there is one. -/
abbrev PassesAtOnce (limit : Option Seconds) : Prop :=
  (limit.map Seconds.passesAtOnce).getD false = true

lemma not_passesAtOnce_iff {limit : Option Seconds} :
    ¬ PassesAtOnce limit ↔ ∀ seconds ∈ limit, seconds.passesAtOnce = false := by
  cases limit <;> simp [PassesAtOnce]

lemma timelineWithin_of_passesAtOnce {limit : Option Seconds} (h : PassesAtOnce limit)
    (actions : List Action) : timelineWithin limit actions = ⟨[], some .deadline, actions⟩ :=
  if_pos h

lemma timelineWithin_of_not_passesAtOnce {limit : Option Seconds} (h : ¬ PassesAtOnce limit)
    (actions : List Action) :
    timelineWithin limit actions = timeline (limit.bind Seconds.toRat?) actions 0 := if_neg h

/-- A process ends by itself within a limit, if there is one, and the caller does not give up
before. -/
structure RunsOut (limit : Option Seconds) (actions : List Action) : Prop where
  notAtOnce : ∀ seconds ∈ limit, seconds.passesAtOnce = false
  undisturbed : Undisturbed (limit.bind Seconds.toRat?) actions

/-- A limit that does not pass at once leaves some time. -/
lemma pos_of_not_passesAtOnce {limit : Seconds} {length : Rat} (h : limit.passesAtOnce = false)
    (hlength : limit.toRat? = some length) : 0 < length := by
  have hresolution : 0 < Seconds.resolution := by decide
  simp only [Seconds.passesAtOnce, hlength] at h
  have := not_lt.1 (of_decide_eq_false h)
  linarith

lemma pos_of_leavesTime {limit : Option Seconds} (h : ¬ PassesAtOnce limit) :
    ∀ length ∈ limit.bind Seconds.toRat?, 0 < length := by
  intro length hlength
  obtain ⟨seconds, hseconds, hlength⟩ := Option.bind_eq_some_iff.1 hlength
  exact pos_of_not_passesAtOnce (not_passesAtOnce_iff.1 h seconds hseconds) hlength

lemma cause_timelineWithin {limit : Option Seconds} {actions : List Action} :
    (timelineWithin limit actions).cause = none ↔ RunsOut limit actions := by
  by_cases hatOnce : PassesAtOnce limit
  · rw [timelineWithin_of_passesAtOnce hatOnce]
    exact iff_of_false (by simp) fun h => not_passesAtOnce_iff.2 h.notAtOnce hatOnce
  · rw [timelineWithin_of_not_passesAtOnce hatOnce,
      cause_timeline actions (pos_of_leavesTime hatOnce)]
    simp only [sub_zero, Option.map_id']
    exact ⟨fun h => ⟨not_passesAtOnce_iff.1 hatOnce, h⟩, fun h => h.undisturbed⟩

/-! ### Lingering -/

/-- The caller gives up while some actions have lasted for less than a limit. -/
def GivesUpWithin (limit : Rat) (actions : List Action) : Prop :=
  ∃ before after, actions = before ++ .cancel :: after ∧ Undisturbed (some limit) before

lemma not_givesUpWithin_nil {limit : Rat} : ¬ GivesUpWithin limit [] := by
  rintro ⟨before, after, hnil, -⟩
  cases before <;> cases hnil

lemma givesUpWithin_cancel {limit : Rat} (hlimit : 0 < limit) (rest : List Action) :
    GivesUpWithin limit (.cancel :: rest) :=
  ⟨[], rest, rfl, undisturbed_nil (by simpa using hlimit)⟩

lemma GivesUpWithin.pos {limit : Rat} {actions : List Action} (h : GivesUpWithin limit actions) :
    0 < limit := by
  obtain ⟨before, after, -, hbefore⟩ := h
  exact (hbefore.inTime limit rfl).pos

lemma givesUpWithin_cons {limit : Rat} (hlimit : 0 < limit) {action : Action} {rest : List Action}
    (hcancel : action ≠ .cancel) (hhang : action ≠ .hang) :
    GivesUpWithin limit (action :: rest) ↔ GivesUpWithin (limit - action.seconds) rest := by
  have hcons (before : List Action) : Undisturbed (some limit) (action :: before) ↔
      Undisturbed (some (limit - action.seconds)) before :=
    undisturbed_cons (by simpa using hlimit) hcancel hhang
  constructor
  · rintro ⟨_ | ⟨first, before⟩, after, heq, hbefore⟩
    · cases heq
      exact absurd rfl hcancel
    · cases heq
      exact ⟨before, after, rfl, (hcons before).1 hbefore⟩
  · rintro ⟨before, after, rfl, hbefore⟩
    exact ⟨action :: before, after, rfl, (hcons before).2 hbefore⟩

lemma not_givesUpWithin_hang {limit : Rat} {rest : List Action} :
    ¬ GivesUpWithin limit (.hang :: rest) := by
  rintro ⟨_ | ⟨first, before⟩, after, heq, hbefore⟩
  · cases heq
  · cases heq
    exact not_undisturbed_hang hbefore

/-- While a process is waited for, what it does takes its time off the time that is left; when there
is none left the process is killed. -/
lemma linger_cons (script : Script) {action : Action} (rest : List Action)
    (hcancel : action ≠ .cancel) (hhang : action ≠ .hang) {left : Rat} (hleft : 0 < left)
    (p : Progress σ) :
    (action.seconds < left ∧ ∃ q, linger script (action :: rest) left p =
      linger script rest (left - action.seconds) q) ∨
    (left ≤ action.seconds ∧ linger script (action :: rest) left p = kill script p) := by
  have hquick (hnone : action.seconds = 0) {q : Progress σ}
      (hq : linger script (action :: rest) left p = linger script rest left q) :
      action.seconds < left ∧ ∃ q, linger script (action :: rest) left p =
        linger script rest (left - action.seconds) q := by
    rw [hnone, sub_zero]
    exact ⟨hleft, q, hq⟩
  cases action with
  | write pipe chunk => exact .inl (hquick rfl rfl)
  | failPipe pipe error => exact .inl (hquick rfl rfl)
  | closeOutput => exact .inl (hquick rfl rfl)
  | cancel => exact absurd rfl hcancel
  | hang => exact absurd rfl hhang
  | sleep seconds =>
    by_cases hintime : seconds < left
    · exact .inl ⟨hintime, p, if_pos hintime⟩
    · exact .inr ⟨not_lt.1 hintime, if_neg hintime⟩

/-- Waiting for a process is interrupted exactly when the caller gives up meanwhile. -/
lemma interrupted_linger_iff (script : Script) (actions : List Action) {left : Rat}
    (hleft : 0 < left) (p : Progress σ) :
    (linger script actions left p).interrupted = true ↔ GivesUpWithin left actions := by
  induction actions generalizing left p with
  | nil => exact iff_of_false (by simp [linger]) not_givesUpWithin_nil
  | cons action rest ih =>
    by_cases hcancel : action = .cancel
    · subst hcancel
      exact iff_of_true rfl (givesUpWithin_cancel hleft rest)
    by_cases hhang : action = .hang
    · subst hhang
      exact iff_of_false (by simp [linger, kill]) not_givesUpWithin_hang
    rw [givesUpWithin_cons hleft hcancel hhang]
    rcases linger_cons script rest hcancel hhang hleft p with ⟨hintime, q, hq⟩ | ⟨hlate, hkilled⟩
    · rw [hq]
      exact ih (by linarith) q
    · rw [hkilled]
      refine iff_of_false (by simp [kill]) fun h => ?_
      have := h.pos
      linarith

/-- A process that is asked to terminate is left to itself: it does not care, and the caller gives
up before the grace period is over. -/
structure LeftAlone (script : Script) (rest : List Action) : Prop where
  notGone : script.goneAtTerm = false
  ignoresTerm : script.ignoresTerm = true
  givesUp : GivesUpWithin graceSeconds rest

lemma interrupted_stop_iff (script : Script) (rest : List Action) (p : Progress σ) :
    (stop script rest p).interrupted = true ↔ LeftAlone script rest := by
  unfold stop
  split
  case isTrue hgone =>
    exact iff_of_false (by simp) fun h => absurd h.notGone (by simp [hgone])
  case isFalse hgone =>
    split
    case isTrue hignores =>
      rw [interrupted_linger_iff script rest (by decide) p]
      exact ⟨fun h => ⟨by simpa using hgone, hignores, h⟩, fun h => h.givesUp⟩
    case isFalse hignores => exact iff_of_false (by simp) fun h => hignores h.ignoresTerm

/-- A process that is stopped has ended, unless the caller did not wait for it. -/
lemma exit_stop_eq_none_iff (script : Script) (rest : List Action) (p : Progress σ) :
    (stop script rest p).exit = none ↔ (stop script rest p).interrupted = true := by
  have hlinger (left : Rat) : (linger script rest left p).exit = none ↔
      (linger script rest left p).interrupted = true := by
    fun_induction linger script rest left p <;> simp_all [kill]
  unfold stop
  split
  · simp
  · split
    · exact hlinger graceSeconds
    · simp

/-! ### Runs -/

namespace Request

variable (r : Request) (operation : Value) (script : Script) (handler : Handler σ) (state : σ)

/-- The process of a request neither ends nor is stopped, so that its run does not end either. -/
def NeverEnds : Prop :=
  ∃ limit, r.limit? = .ok limit ∧
    (r.watched operation limit script handler state).cause = some .unending

/-- The process of a request is stopped, and this is what it would do next. -/
inductive StopsBefore : List Action → Prop
  | badDeadline {fault : Fault} (hlimit : r.limit? = .error fault) : StopsBefore script.actions
  /-- The handler fails, the deadline passes or the caller gives up. -/
  | cause {limit : Option Seconds} {cause : Cause} (hlimit : r.limit? = .ok limit)
    (hcause : (r.watched operation limit script handler state).cause = some cause)
    (hends : cause ≠ .unending) :
    StopsBefore (r.watched operation limit script handler state).rest

lemma halt_spec (failure : Failure) (rest : List Action) (p : Progress σ) :
    ∃ child, (r.halt script failure rest p).child = some child ∧
      (child.isRunning = true ↔ LeftAlone script rest) := by
  refine ⟨_, rfl, ?_⟩
  rw [← interrupted_stop_iff script rest p, ← exit_stop_eq_none_iff]
  simp [child, Child.isRunning]

variable {r operation script handler state}

lemma halt_outcome (failure : Failure) (rest : List Action) (p : Progress σ) :
    (LeftAlone script rest ∧ (r.halt script failure rest p).outcome = .error .interrupted) ∨
    (¬ LeftAlone script rest ∧ (r.halt script failure rest p).outcome = .error failure) := by
  rw [← interrupted_stop_iff script rest p, halt]
  by_cases hinterrupted : (stop script rest p).interrupted = true
  · exact .inl ⟨hinterrupted, by simp [hinterrupted]⟩
  · exact .inr ⟨hinterrupted, by simp [hinterrupted]⟩

section

variable {limit : Option Seconds} {cause : Cause}

lemma runScript_of_badDeadline {fault : Fault} (hlimit : r.limit? = .error fault) :
    r.runScript operation script handler state = r.halt script (.fault fault) script.actions
      { Progress.start state with notices := [.started operation r.command] } := by
  rw [runScript, hlimit]

/-- A process for whose end there is a cause is stopped for this cause. -/
lemma runScript_of_cause (hlimit : r.limit? = .ok limit)
    (hcause : (r.watched operation limit script handler state).cause = some cause)
    (hends : cause ≠ .unending) :
    ∃ p, r.runScript operation script handler state =
      r.halt script (r.failureOf operation cause).1
        (r.watched operation limit script handler state).rest p := by
  rw [runScript, hlimit]
  dsimp only
  split
  case h_1 hnone => exact absurd (hnone.symm.trans hcause) (by simp)
  case h_2 hunending =>
    cases hunending.symm.trans hcause
    exact absurd rfl hends
  case h_3 hother =>
    cases hother.symm.trans hcause
    exact ⟨_, rfl⟩

lemma runScript_of_unending (hlimit : r.limit? = .ok limit)
    (hcause : (r.watched operation limit script handler state).cause = some .unending) :
    (r.runScript operation script handler state).outcome = .error .unending ∧
    (r.runScript operation script handler state).child = some (r.child [] none) := by
  rw [runScript, hlimit]
  dsimp only
  split
  case h_1 hnone => exact absurd (hnone.symm.trans hcause) (by simp)
  case h_2 => exact ⟨rfl, rfl⟩
  case h_3 hnot hother =>
    cases hother.symm.trans hcause
    exact absurd rfl hnot

/-- What a process would do next when it is stopped is fixed by its watch. -/
lemma StopsBefore.rest_eq {rest : List Action}
    (h : r.StopsBefore operation script handler state rest) (hlimit : r.limit? = .ok limit) :
    (∃ cause, (r.watched operation limit script handler state).cause = some cause ∧
      cause ≠ .unending) ∧ rest = (r.watched operation limit script handler state).rest := by
  cases h with
  | badDeadline hbad => cases hbad.symm.trans hlimit
  | cause hlimit' hcause hends =>
    cases hlimit'.symm.trans hlimit
    exact ⟨⟨_, hcause, hends⟩, rfl⟩

end

variable (r operation script handler state) in
/-- The child of a run that was given a process. -/
lemma isRunning_runScript : ∃ child,
    (r.runScript operation script handler state).child = some child ∧
    (child.isRunning = true ↔ r.NeverEnds operation script handler state ∨
      ∃ rest, r.StopsBefore operation script handler state rest ∧ LeftAlone script rest) := by
  rcases hlimit : r.limit? with fault | limit
  -- a deadline that cannot be kept stops the process before it has done anything
  · rw [runScript_of_badDeadline hlimit]
    obtain ⟨child, hchild, hrunning⟩ := r.halt_spec script (.fault fault) script.actions
      { Progress.start state with notices := [.started operation r.command] }
    refine ⟨child, hchild, hrunning.trans ⟨fun h => .inr ⟨_, .badDeadline hlimit, h⟩, ?_⟩⟩
    rintro (⟨limit, hok, -⟩ | ⟨rest, hstops, h⟩)
    · cases hlimit.symm.trans hok
    · cases hstops with
      | badDeadline => exact h
      | cause hok => cases hlimit.symm.trans hok
  rcases hcause : (r.watched operation limit script handler state).cause with _ | cause
  -- the process has ended by itself
  · refine ⟨_, (runScript_of_end hlimit hcause).2.2,
      iff_of_false (by simp [child, Child.isRunning]) ?_⟩
    rintro (⟨limit', hok, hunending⟩ | ⟨rest, hstops, -⟩)
    · cases hok.symm.trans hlimit
      cases hunending.symm.trans hcause
    · obtain ⟨⟨cause, hsome, -⟩, -⟩ := hstops.rest_eq hlimit
      cases hsome.symm.trans hcause
  by_cases hends : cause = .unending
  · subst hends
    exact ⟨_, (runScript_of_unending hlimit hcause).2,
      iff_of_true rfl (.inl ⟨limit, hlimit, hcause⟩)⟩
  · obtain ⟨p, hhalt⟩ := runScript_of_cause hlimit hcause hends
    rw [hhalt]
    obtain ⟨child, hchild, hrunning⟩ := r.halt_spec script
      (r.failureOf operation cause).1 (r.watched operation limit script handler state).rest p
    refine ⟨child, hchild, hrunning.trans ⟨fun h => .inr ⟨_, .cause hlimit hcause hends, h⟩, ?_⟩⟩
    rintro (⟨limit', hok, hunending⟩ | ⟨rest, hstops, h⟩)
    · cases hok.symm.trans hlimit
      cases hunending.symm.trans hcause
      exact absurd rfl hends
    · rwa [(hstops.rest_eq hlimit).2] at h

/-- **A process outlives its run only where the caller gives up while it is being stopped.**  Beyond
that, a process is running only as long as it never ends, and then its run does not end either. -/
theorem outlives_iff (r : Request) (start : Start) (handler : Handler σ) (state : σ) :
    (∃ child, (r.run start handler state).child = some child ∧ child.isRunning = true) ↔
    ∃ operation script, r.operationName = .ok operation ∧ start = .runs script ∧
      (r.NeverEnds operation script handler state ∨
        ∃ rest, r.StopsBefore operation script handler state rest ∧ LeftAlone script rest) := by
  rcases hname : r.operationName with fault | operation
  · refine iff_of_false ?_ ?_
    · rintro ⟨child, hchild, -⟩
      rw [run, hname] at hchild
      cases hchild
    · rintro ⟨operation, script, hok, -⟩
      cases hok
  cases start with
  | refused error =>
    refine iff_of_false ?_ ?_
    · rintro ⟨child, hchild, hrunning⟩
      rw [run, hname] at hchild
      cases hchild
      cases hrunning
    · rintro ⟨operation, script, -, hruns, -⟩
      cases hruns
  | runs script =>
    rw [run, hname]
    obtain ⟨child, hchild, hrunning⟩ := r.isRunning_runScript operation script handler state
    constructor
    · rintro ⟨child', hchild', hrunning'⟩
      cases hchild'.symm.trans hchild
      exact ⟨operation, script, rfl, rfl, hrunning.1 hrunning'⟩
    · rintro ⟨operation', script', hname', hruns, h⟩
      cases hname'
      cases hruns
      exact ⟨child, hchild, hrunning.2 h⟩

/-- A process that ignores the request to terminate outlives its run when the caller gives up
twice. -/
theorem outlives_second_cancel : ¬ ∀ (r : Request) (start : Start) (handler : Handler Unit),
    (r.run start handler ()).outcome ≠ .error .unending →
    ∀ child, (r.run start handler ()).child = some child → child.isRunning = false := by
  intro h
  let r : Request := ⟨["restic", "backup"], [], none, .null, .str "", "run"⟩
  let script : Script := ⟨[.cancel, .cancel, .hang], 0, true, false, false⟩
  have houtcome : (r.run (.runs script) Handler.silent ()).outcome = .error .interrupted := rfl
  have hended := h r (.runs script) Handler.silent (by rw [houtcome]; simp) _ rfl
  exact absurd hended (by decide)

end Request

end BackupSteward.Engine
