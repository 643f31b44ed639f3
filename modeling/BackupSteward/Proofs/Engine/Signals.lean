import BackupSteward.Proofs.Engine.Stopping

/-!
# Which signals a process is sent

A process that ends by itself is sent no signal.  One that is stopped is asked to terminate, and is
killed where it goes on beyond the grace period.  The file says which of these happens, and that a
stopped process has ended and its run fails for the reason that it was stopped for, unless the
process was left to itself.
-/

namespace BackupSteward.Engine

variable {σ : Type}

/-! ### The grace period -/

/-- Some actions last for a limit, and the caller does not give up before. -/
def Outlasts (limit : Rat) (actions : List Action) : Prop :=
  ∃ part, part <+: actions ∧ Action.cancel ∉ part ∧ (Action.hang ∈ part ∨ limit ≤ elapsed part)

section

variable {limit : Rat} {rest : List Action}

lemma not_outlasts_nil (hlimit : 0 < limit) : ¬ Outlasts limit [] := by
  rintro ⟨part, hpart, -, hlasts⟩
  rw [List.prefix_nil.1 hpart] at hlasts
  exact hlasts.elim List.not_mem_nil (not_le.2 hlimit)

/-- Nothing has to happen to last for no time. -/
lemma outlasts_of_nonpos (hlimit : limit ≤ 0) : Outlasts limit rest :=
  ⟨[], List.nil_prefix, List.not_mem_nil, .inr hlimit⟩

lemma not_outlasts_cancel (hlimit : 0 < limit) : ¬ Outlasts limit (.cancel :: rest) := by
  rintro ⟨part, hpart, hnever, hlasts⟩
  rcases List.prefix_cons_iff.1 hpart with rfl | ⟨part, rfl, -⟩
  · exact not_outlasts_nil hlimit ⟨[], List.prefix_rfl, hnever, hlasts⟩
  · exact hnever List.mem_cons_self

lemma outlasts_hang : Outlasts limit (.hang :: rest) :=
  ⟨[.hang], List.prefix_append [.hang] rest, by simp, .inl List.mem_cons_self⟩

/-- The first action takes its time off the limit. -/
lemma outlasts_cons (hlimit : 0 < limit) {action : Action} (hcancel : action ≠ .cancel)
    (hhang : action ≠ .hang) :
    Outlasts limit (action :: rest) ↔ Outlasts (limit - action.seconds) rest := by
  constructor
  · rintro ⟨part, hpart, hnever, hlasts⟩
    rcases List.prefix_cons_iff.1 hpart with rfl | ⟨later, rfl, hlater⟩
    · exact absurd ⟨[], List.prefix_rfl, hnever, hlasts⟩ (not_outlasts_nil hlimit)
    · rw [elapsed_cons, List.mem_cons, or_iff_right hhang.symm] at hlasts
      exact ⟨later, hlater, fun h => hnever (.tail _ h), hlasts.imp_right fun h => by linarith⟩
  · rintro ⟨part, hpart, hnever, hlasts⟩
    refine ⟨action :: part, (List.prefix_cons_inj action).2 hpart, ?_, ?_⟩
    · simpa using ⟨hcancel.symm, hnever⟩
    · rw [elapsed_cons]
      exact hlasts.imp (.tail _) fun h => by linarith

/-- A process that does not care about the request to terminate is killed exactly when it outlasts
what is left of the grace period. -/
lemma kill_mem_linger_iff (script : Script) (actions : List Action) (hlimit : 0 < limit)
    (p : Progress σ) :
    .kill ∈ (linger script actions limit p).signals ↔ Outlasts limit actions := by
  induction actions generalizing limit p with
  | nil => exact iff_of_false (by simp [linger]) (not_outlasts_nil hlimit)
  | cons action rest ih =>
    by_cases hcancel : action = .cancel
    · subst hcancel
      exact iff_of_false (by simp [linger]) (not_outlasts_cancel hlimit)
    by_cases hhang : action = .hang
    · subst hhang
      exact iff_of_true (by simp [linger, kill]) outlasts_hang
    rw [outlasts_cons hlimit hcancel hhang]
    rcases linger_cons script rest hcancel hhang hlimit p with ⟨hintime, q, hq⟩ | ⟨hlate, hkilled⟩
    · rw [hq]
      exact ih (by linarith) q
    · rw [hkilled]
      exact iff_of_true (by simp [kill]) (outlasts_of_nonpos (by linarith))

end

/-- A process goes on beyond the grace period: it has not just ended, it does not care about the
request to terminate, and what it does next lasts for the whole period. -/
structure IsStubborn (script : Script) (rest : List Action) : Prop where
  notGone : script.goneAtTerm = false
  ignoresTerm : script.ignoresTerm = true
  outlasts : Outlasts graceSeconds rest

lemma kill_mem_stop_iff (script : Script) (rest : List Action) (p : Progress σ) :
    .kill ∈ (stop script rest p).signals ↔ IsStubborn script rest := by
  unfold stop
  split
  case isTrue hgone => exact iff_of_false (by simp) fun h => absurd h.notGone (by simp [hgone])
  case isFalse hgone =>
    split
    case isTrue hignores =>
      rw [kill_mem_linger_iff script rest (by decide) p]
      exact ⟨fun h => ⟨by simpa using hgone, hignores, h⟩, fun h => h.outlasts⟩
    case isFalse hignores => exact iff_of_false (by simp) fun h => hignores h.ignoresTerm

/-- A process that is stopped is asked to terminate, and nothing but killing it may follow. -/
lemma signals_stop (script : Script) (rest : List Action) (p : Progress σ) :
    (stop script rest p).signals = [.term] ∨ (stop script rest p).signals = [.term, .kill] := by
  have hlinger (left : Rat) : (linger script rest left p).signals = [.term] ∨
      (linger script rest left p).signals = [.term, .kill] := by
    fun_induction linger script rest left p <;> simp_all [kill]
  unfold stop
  split
  · exact .inl rfl
  · split
    · exact hlinger graceSeconds
    · exact .inl rfl

/-! ### Runs -/

/-- The process of a run has been stopped as it should be: it was asked to terminate once, it was
killed at most once, after that and exactly if it went on beyond the grace period, it has ended, and
the run fails for the reason for which it was stopped. -/
structure StoppedInOrder (script : Script) (original : Failure) (rest : List Action) (run : Run σ)
    (child : Child) : Prop where
  outcome : run.outcome = .error original
  ended : child.isRunning = false
  signals : child.signals = [.term] ∨ child.signals = [.term, .kill]
  killed : Signal.kill ∈ child.signals ↔ IsStubborn script rest

/-- How often the caller gives up. -/
def Script.cancels (script : Script) : Nat :=
  script.actions.countP fun action => action matches .cancel

lemma exists_before_of_cancelled {deadline : Option Rat} (actions : List Action) {now : Rat}
    (h : (timeline deadline actions now).cause = some .cancelled) :
    ∃ before, actions = before ++ .cancel :: (timeline deadline actions now).rest := by
  induction actions generalizing now with
  | nil => cases h
  | cons action rest ih =>
    have hstep := timelineStep_cons deadline action rest now
    generalize timeline deadline (action :: rest) now = t at h hstep
    cases hstep with
    | goesOn later =>
      obtain ⟨before, hbefore⟩ := ih h
      exact ⟨action :: before, congrArg (action :: ·) hbefore⟩
    | givesUp => exact ⟨[], rfl⟩
    | hangs hcause => rcases hcause with rfl | rfl <;> cases h
    | late => cases h

lemma exists_before_of_cancelledWithin {limit : Option Seconds} {actions : List Action}
    (h : (timelineWithin limit actions).cause = some .cancelled) :
    ∃ before, actions = before ++ .cancel :: (timelineWithin limit actions).rest := by
  unfold timelineWithin at h ⊢
  split at h
  case isTrue => cases h
  case isFalse hlater =>
    rw [if_neg hlater]
    exact exists_before_of_cancelled actions h

/-- The caller who gives up within some time gives up. -/
lemma GivesUpWithin.cancel_mem {limit : Rat} {actions : List Action}
    (h : GivesUpWithin limit actions) : Action.cancel ∈ actions := by
  obtain ⟨before, after, rfl, -⟩ := h
  simp

namespace Request

variable (r : Request) (operation : Value) (script : Script) (handler : Handler σ) (state : σ)

/-- Why the process of a request is stopped, and what it would do next. -/
inductive StopsFor : Failure → List Action → Prop
  | badDeadline {fault : Fault} (hlimit : r.limit? = .error fault) :
    StopsFor (.fault fault) script.actions
  | cause {limit : Option Seconds} {cause : Cause} (hlimit : r.limit? = .ok limit)
    (hcause : (r.watched operation limit script handler state).cause = some cause)
    (hends : cause ≠ .unending) :
    StopsFor (r.failureOf operation cause).1 (r.watched operation limit script handler state).rest

variable {r operation script handler state}

variable (r script) in
lemma stoppedInOrder_halt_iff (original : Failure) (rest : List Action) (p : Progress σ) :
    ∃ child, (r.halt script original rest p).child = some child ∧
      (StoppedInOrder script original rest (r.halt script original rest p) child ↔
        ¬ LeftAlone script rest) := by
  obtain ⟨child, hchild, hrunning⟩ := r.halt_spec script original rest p
  refine ⟨child, hchild, fun h => hrunning.not.1 (by simp [h.ended]), fun hwaits => ?_⟩
  have hsignals : child.signals = (stop script rest p).signals := by
    cases hchild
    rfl
  refine ⟨?_, by simpa using hrunning.not.2 hwaits, ?_, ?_⟩
  · rcases halt_outcome (r := r) original rest p with ⟨hleft, -⟩ | ⟨-, houtcome⟩
    · exact absurd hleft hwaits
    · exact houtcome
  · rw [hsignals]
    exact signals_stop script rest p
  · rw [hsignals]
    exact kill_mem_stop_iff script rest p

/-- A caller who gives up once does not do so again while the process is being stopped for this. -/
lemma not_leftAlone_of_cancelled {limit : Option Seconds} (honce : script.cancels ≤ 1)
    (hcause : (r.watched operation limit script handler state).cause = some .cancelled) :
    ¬ LeftAlone script (r.watched operation limit script handler state).rest := by
  have hfollows := follows_watched r operation limit script handler state
  rcases htold : (handler.through (timelineWithin limit script.actions).lines state).2
    with _ | failure
  · obtain ⟨hsame, hrest, -⟩ := hfollows.taken htold
    rw [hcause] at hsame
    obtain ⟨before, hactions⟩ := exists_before_of_cancelledWithin hsame.symm
    rw [hrest]
    intro hleft
    have hagain : 0 < (timelineWithin limit script.actions).rest.countP
        (fun action => action matches .cancel) :=
      List.countP_pos_iff.2 ⟨.cancel, hleft.givesUp.cancel_mem, rfl⟩
    rw [Script.cancels, hactions, List.countP_append, List.countP_cons] at honce
    simp only [if_true] at honce
    omega
  · cases hcause.symm.trans (hfollows.failed failure htold)

/-- A process that gives an exit status is sent no signal. -/
lemma signals_of_outcome {finished : Finished}
    (h : (r.runScript operation script handler state).outcome = .ok finished) :
    ∃ child, (r.runScript operation script handler state).child = some child ∧
      child.signals = [] := by
  obtain ⟨limit, hlimit, hcause⟩ := not_stopped_of_outcome h
  exact ⟨_, (runScript_of_end hlimit hcause).2.2, rfl⟩

/-- A process that gives no exit status never ends or is stopped. -/
lemma stopped_of_failure {failure : Failure} {child : Child}
    (h : (r.runScript operation script handler state).outcome = .error failure)
    (hchild : (r.runScript operation script handler state).child = some child) :
    r.NeverEnds operation script handler state ∨
      ∃ original rest, r.StopsFor operation script handler state original rest ∧
        (StoppedInOrder script original rest (r.runScript operation script handler state) child ↔
          ¬ LeftAlone script rest) := by
  have hstopped {original : Failure} {rest : List Action} {p : Progress σ}
      (hrun : r.runScript operation script handler state = r.halt script original rest p) :
      StoppedInOrder script original rest (r.runScript operation script handler state) child ↔
        ¬ LeftAlone script rest := by
    obtain ⟨stopped, hhalted, horder⟩ := r.stoppedInOrder_halt_iff script original rest p
    rw [← hrun] at hhalted horder
    cases hhalted.symm.trans hchild
    exact horder
  rcases hlimit : r.limit? with fault | limit
  · exact .inr ⟨_, _, .badDeadline hlimit, hstopped (runScript_of_badDeadline hlimit)⟩
  rcases hcause : (r.watched operation limit script handler state).cause with _ | cause
  · cases (runScript_of_end hlimit hcause).1.symm.trans h
  by_cases hends : cause = .unending
  · exact .inl ⟨limit, hlimit, hends ▸ hcause⟩
  · obtain ⟨p, hhalt⟩ := runScript_of_cause hlimit hcause hends
    exact .inr ⟨_, _, .cause hlimit hcause hends, hstopped hhalt⟩

/-- **A process is stopped in order, unless it is left to itself.**  A run that gives a result has
sent no signal.  When a run fails whose process was started, the process has been stopped in order,
for the reason that the run fails for, or it was left to itself, or it never ends and the run does
not either.  A caller who gives up only once does not leave a process to itself that is stopped for
this. -/
theorem signals_in_order (r : Request) (start : Start) (handler : Handler σ) (state : σ) :
    (∀ finished, (r.run start handler state).outcome = .ok finished →
      ∃ child, (r.run start handler state).child = some child ∧ child.signals = []) ∧
    (∀ failure child, (r.run start handler state).outcome = .error failure →
      (r.run start handler state).child = some child → child.started = true →
        ∃ operation script, r.operationName = .ok operation ∧ start = .runs script ∧
          (r.NeverEnds operation script handler state ∨
            ∃ original rest, r.StopsFor operation script handler state original rest ∧
              (StoppedInOrder script original rest (r.run start handler state) child ↔
                ¬ LeftAlone script rest))) ∧
    ∀ operation script limit, script.cancels ≤ 1 →
      (r.watched operation limit script handler state).cause = some .cancelled →
        ¬ LeftAlone script (r.watched operation limit script handler state).rest := by
  refine ⟨fun finished houtcome => ?_, fun failure child houtcome hchild hstarted => ?_,
    fun operation script limit => not_leftAlone_of_cancelled⟩
  · rw [run] at houtcome ⊢
    rcases hname : r.operationName with fault | operation <;> rw [hname] at houtcome
    · cases houtcome
    cases start with
    | refused error => cases houtcome
    | runs script => exact signals_of_outcome houtcome
  · rw [run] at houtcome hchild ⊢
    rcases hname : r.operationName with fault | operation <;> rw [hname] at houtcome hchild
    · cases hchild
    cases start with
    | refused error =>
      cases hchild
      cases hstarted
    | runs script => exact ⟨operation, script, rfl, rfl, stopped_of_failure houtcome hchild⟩

/-- A process that goes on after the caller has given up is asked to terminate and then killed. -/
theorem signals_in_order_stubborn :
    let r : Request := ⟨["restic", "backup"], [], none, .null, .str "", "run"⟩
    let script : Script := ⟨[.cancel, .hang], 0, true, false, false⟩
    let run := r.run (.runs script) Handler.silent ()
    (∃ child, (r.run .idle Handler.silent ()).child = some child ∧ child.signals = []) ∧
      script.cancels ≤ 1 ∧
      ∃ child original rest, run.child = some child ∧ child.signals = [.term, .kill] ∧
        r.StopsFor (.str "backup") script Handler.silent () original rest ∧
        StoppedInOrder script original rest run child := by
  intro r script run
  have honce : script.cancels ≤ 1 := by decide
  have hcause :
      (r.watched (.str "backup") none script Handler.silent ()).cause = some .cancelled := rfl
  obtain ⟨hquiet, -⟩ := signals_in_order r .idle Handler.silent ()
  obtain ⟨-, hstops, hwaits⟩ := signals_in_order r (.runs script) Handler.silent ()
  refine ⟨hquiet _ rfl, honce, ?_⟩
  obtain ⟨operation, other, hname, hsame, hstopped⟩ := hstops _ _ rfl rfl rfl
  cases hname
  cases hsame
  have hnone {limit : Option Seconds} (hlimit : r.limit? = .ok limit) : limit = none :=
    (Except.ok.inj hlimit).symm
  rcases hstopped with ⟨limit, hlimit, hunending⟩ | ⟨original, rest, hfor, horder⟩
  · cases hnone hlimit
    cases hunending
  · refine ⟨_, original, rest, rfl, rfl, hfor, horder.2 ?_⟩
    cases hfor with
    | badDeadline hlimit => cases hlimit
    | cause hlimit _ _ =>
      cases hnone hlimit
      exact hwaits _ _ none honce hcause

/-- A caller who gives up once leaves a process to itself that is being stopped because it is
late. -/
theorem deadline_then_cancel : ¬ ∀ (r : Request) (script : Script) (handler : Handler Unit),
    script.cancels ≤ 1 → (r.run (.runs script) handler ()).outcome ≠ .error .unending →
      ∀ child, (r.run (.runs script) handler ()).child = some child → child.isRunning = false := by
  intro h
  let r : Request := ⟨["restic", "backup"], [], none, .int 1, .str "", "run"⟩
  let script : Script := ⟨[.sleep 2, .cancel, .hang], 0, true, false, false⟩
  have hends : (match (r.run (.runs script) Handler.silent ()).outcome with
      | .error .unending => false
      | _ => true) = true := by decide +kernel
  have hruns : (r.run (.runs script) Handler.silent ()).child.any Child.isRunning = true := by
    decide +kernel
  obtain ⟨child, hchild, hrunning⟩ := Option.any_eq_true _ _ |>.1 hruns
  have hended :=
    h r script Handler.silent (by decide) (fun heq => by simp [heq] at hends) child hchild
  cases hrunning.symm.trans hended

end Request

end BackupSteward.Engine
