import BackupSteward.Engine.Session
import BackupSteward.Proofs.Outcome

/-!
# Which processes an act starts

An act runs in a session and leaves a session behind.  The file supplies the equations of such a
run, says when the call of a process succeeds, and names what an act may do: start none, start one
with some command, or do the same as another act in related sessions.
-/

namespace BackupSteward.Engine

/-- Whether a process can be started. -/
def Start.works : Start → Bool
  | .refused _ => false
  | .runs _ => true

/-! ### One run -/

namespace Request

variable {σ : Type}

lemma operationName_ok {r : Request} (h : r.command ≠ []) : ∃ name, r.operationName = .ok name := by
  obtain ⟨binary, rest, hcommand⟩ := List.exists_cons_of_ne_nil h
  rw [operationName, hcommand]
  split
  · cases rest with
    | nil => exact ⟨_, rfl⟩
    | cons subcommand rest => exact ⟨_, rfl⟩
  · exact ⟨_, rfl⟩

/-- A name that is given is used. -/
lemma operationName_given {r : Request} (h : r.command ≠ []) (hgiven : r.operation.truthy = true) :
    r.operationName = .ok r.operation := by
  rw [operationName, hgiven]
  simp [h]

/-- Watching the process of a request from its start. -/
def watched (r : Request) (operation : Value) (limit : Option Seconds) (script : Script)
    (handler : Handler σ) (state : σ) : Watched σ :=
  watchWithin limit script handler
    { Progress.start state with notices := [.started operation r.command] }

section

variable {r : Request} {operation : Value} {script : Script} {limit : Option Seconds}
  {handler : Handler σ} {state : σ}

/-- A process that cannot be given a deadline is stopped. -/
lemma outcome_of_badDeadline {fault : Fault} (hlimit : r.limit? = .error fault) :
    ∃ failure, (r.runScript operation script handler state).outcome = .error failure := by
  rw [runScript, hlimit]
  exact ⟨_, rfl⟩

/-- A process that is stopped gives no exit status. -/
lemma outcome_of_cause {cause : Cause} (hlimit : r.limit? = .ok limit)
    (hcause : (r.watched operation limit script handler state).cause = some cause) :
    ∃ failure, (r.runScript operation script handler state).outcome = .error failure := by
  rw [runScript, hlimit]
  dsimp only
  split
  case h_1 hnone => exact absurd (hnone.symm.trans hcause) (by simp)
  case h_2 => exact ⟨_, rfl⟩
  case h_3 => exact ⟨_, rfl⟩

/-- A process that gives an exit status has not been stopped. -/
lemma not_stopped_of_outcome {finished : Finished}
    (h : (r.runScript operation script handler state).outcome = .ok finished) :
    ∃ limit, r.limit? = .ok limit ∧
      (r.watched operation limit script handler state).cause = none := by
  rcases hlimit : r.limit? with fault | limit
  · obtain ⟨failure, hfailure⟩ :
        ∃ failure, (r.runScript operation script handler state).outcome = .error failure :=
      outcome_of_badDeadline hlimit
    rw [hfailure] at h
    cases h
  rcases hcause : (r.watched operation limit script handler state).cause with _ | cause
  · exact ⟨limit, rfl, hcause⟩
  · obtain ⟨failure, hfailure⟩ := outcome_of_cause hlimit hcause
    rw [hfailure] at h
    cases h

/-- A process that is not stopped gives its exit status and its last diagnostic lines, its handler
has seen its lines, and it has ended. -/
lemma runScript_of_end (hlimit : r.limit? = .ok limit)
    (hcause : (r.watched operation limit script handler state).cause = none) :
    (r.runScript operation script handler state).outcome = .ok ⟨script.exitCode,
      (r.watched operation limit script handler state).progress.diagnostics⟩ ∧
    (r.runScript operation script handler state).state =
      (r.watched operation limit script handler state).progress.state ∧
    (r.runScript operation script handler state).child =
      some (r.child [] (some script.exitCode)) := by
  rw [runScript, hlimit]
  dsimp only
  split
  case h_1 => exact ⟨rfl, rfl, rfl⟩
  case h_2 hsome => exact absurd (hcause.symm.trans hsome) (by simp)
  case h_3 hsome => exact absurd (hcause.symm.trans hsome) (by simp)

end

/-- The run of a process that has been started gives that process, however it ends. -/
lemma child_runScript (r : Request) (operation : Value) (script : Script) (handler : Handler σ)
    (state : σ) : ∃ child, (r.runScript operation script handler state).child = some child ∧
      child.command = r.command ∧ child.started = true := by
  unfold runScript
  cases r.limit? with
  | error fault => exact ⟨_, rfl, rfl, rfl⟩
  | ok limit =>
    dsimp only
    split <;> exact ⟨_, rfl, rfl, rfl⟩

/-- Every request with a command starts a process, or tries to. -/
theorem child_run (r : Request) (h : r.command ≠ []) (start : Start) (handler : Handler σ)
    (state : σ) : ∃ child, (r.run start handler state).child = some child ∧
      child.command = r.command ∧ child.started = start.works := by
  obtain ⟨operation, hname⟩ := operationName_ok h
  unfold run
  rw [hname]
  -- a start that is refused is recorded all the same, as a process that did not start
  cases start with
  | refused error => exact ⟨_, rfl, rfl, rfl⟩
  | runs script => exact child_runScript r operation script handler state

lemma run_refused (r : Request) (h : r.command ≠ []) (error : SystemError) (handler : Handler σ)
    (state : σ) : (r.run (.refused error) handler state).outcome =
      .error (.notStarted r.command error) := by
  obtain ⟨operation, hname⟩ := operationName_ok h
  rw [run, hname]

lemma run_runs {r : Request} (h : r.command ≠ []) (hgiven : r.operation.truthy = true)
    (script : Script) (handler : Handler σ) (state : σ) :
    r.run (.runs script) handler state = r.runScript r.operation script handler state := by
  rw [run, operationName_given h hgiven]

end Request

/-- A status other than zero is a failure, and zero is none. -/
lemma Finished.check_eq (f : Finished) (command : List String) (invocation : String) :
    (f.exitCode = 0 → f.check command invocation = .ok ()) ∧
      (f.exitCode ≠ 0 → ∃ failure, f.check command invocation = .error failure) := by
  constructor <;> intro h
  · simp [check, checkStatus, Value.isZero, h]
  · rw [exists_error_iff]
    intro u hok
    have hcode : (Value.int f.exitCode).isZero = false := by simpa [Value.isZero] using h
    rw [check, checkStatus, hcode, if_neg (by simp)] at hok
    obtain ⟨parts, -, hok⟩ := bind_eq_ok.1 hok
    split at hok
    · cases hok
    · obtain ⟨last, -, hok⟩ := bind_eq_ok.1 hok
      obtain ⟨lines, -, hok⟩ := bind_eq_ok.1 hok
      split at hok <;> cases hok

lemma lastLine_texts (lines : List String) :
    lastLine (Value.texts lines) = .ok (lines.getLast?.getD noDiagnostics) := by
  rcases List.eq_nil_or_concat lines with rfl | ⟨front, last, rfl⟩
  · rfl
  · simp [lastLine, Value.texts, Value.truthy, Value.elements, Value.items, Except.map, Value.text]

/-- A status other than zero is reported with the diagnostic lines, which tell a locked repository
from other failures. -/
lemma Finished.check_of_failed {f : Finished} (h : f.exitCode ≠ 0) (binary operation : String)
    (arguments : List String) (invocation : String) :
    f.check (binary :: operation :: arguments) invocation = .error
      (if showsLock f.diagnostics then .repositoryLocked operation (.int f.exitCode)
        (Value.texts f.diagnostics) invocation
      else .engineFailed operation (.int f.exitCode) (Value.texts f.diagnostics)
        (f.diagnostics.getLast?.getD noDiagnostics) invocation) := by
  have hcode : (Value.int f.exitCode).isZero = false := by simpa [Value.isZero] using h
  have hitems : (Value.texts f.diagnostics).items.bind Value.allTexts = .ok f.diagnostics :=
    Value.allTexts_map_str f.diagnostics
  rw [check, checkStatus, hcode, if_neg (by simp), Value.elements_texts, lastLine_texts, hitems]
  simp only [orFail, ok_bind, List.map_cons, subcommand?, Value.text]
  split <;> rfl

/-- The process of a request starts, is not stopped for any cause, and ends with status zero, and
its handler is left in some state. -/
inductive Request.Succeeds {σ : Type} (r : Request) (handler : Handler σ) (state : σ) :
    Start → σ → Prop
  | intro {script : Script} {limit : Option Seconds} (hlimit : r.limit? = .ok limit)
    (hcause : (r.watched r.operation limit script handler state).cause = none)
    (hcode : script.exitCode = 0) :
    Succeeds r handler state (.runs script)
      (r.watched r.operation limit script handler state).progress.state

/-- **A call succeeds exactly if its process does.** -/
theorem Call.run_eq_ok {σ : Type} {c : Call} (hcommand : c.command ≠ [])
    (hoperation : c.operation ≠ "") (handler : Handler σ) (state final : σ) (s : Session) :
    (c.run handler state s).1 = .ok () ∧ (c.run handler state s).2.1 = final ↔
      (c.request s).Succeeds handler state s.nextStart final := by
  have hgiven : (c.request s).operation.truthy = true := by
    simpa [request, Value.truthy] using hoperation
  rw [run]
  cases s.nextStart with
  | refused error =>
    constructor
    -- neither side holds without a process
    · rintro ⟨hok, -⟩
      rw [Request.run_refused _ hcommand] at hok
      cases hok
    · rintro ⟨⟩
  | runs script =>
    rw [Request.run_runs hcommand hgiven]
    constructor
    · rintro ⟨hok, hfinal⟩
      rcases houtcome : ((c.request s).runScript (c.request s).operation script handler
          state).outcome with failure | finished
      · rw [houtcome] at hok
        cases hok
      obtain ⟨limit, hlimit, hcause⟩ := Request.not_stopped_of_outcome houtcome
      obtain ⟨hexit, hstate, -⟩ := Request.runScript_of_end hlimit hcause
      rw [hexit] at hok
      -- a process that came to its end can still have failed by its status
      by_cases hcode : script.exitCode = 0
      · rw [← hfinal, hstate]
        exact .intro hlimit hcause hcode
      · obtain ⟨failure, hfailure⟩ :=
          (Finished.check_eq ⟨script.exitCode, _⟩ c.command s.invocation).2 hcode
        exact absurd (hfailure.symm.trans hok) (by simp)
    · rintro ⟨hlimit, hcause, hcode⟩
      obtain ⟨houtcome, hstate, -⟩ := Request.runScript_of_end hlimit hcause
      rw [houtcome]
      exact ⟨(Finished.check_eq _ c.command s.invocation).1 hcode, hstate⟩

/-- Between two sessions one process was to be started, with some command. -/
structure Session.Started (command : List String) (s t : Session) (child : Child) : Prop where
  children : t.children = s.children ++ [child]
  command_eq : child.command = command
  started_eq : child.started = s.nextStart.works
  starts : t.starts = s.starts.drop 1

/-- A call starts one process, whatever becomes of it. -/
theorem Call.started_run {σ : Type} (c : Call) (h : c.command ≠ []) (handler : Handler σ)
    (state : σ) (s : Session) :
    ∃ child, Session.Started c.command s (c.run handler state s).2.2 child := by
  obtain ⟨child, hchild, hcommand, hstarted⟩ :=
    (c.request s).child_run h s.nextStart handler state
  refine ⟨child, ?_, hcommand, hstarted, ?_⟩ <;> simp [Call.run, Session.add, hchild]

/-! ### Acts -/

namespace Act

variable {α β : Type}

/-- What an act gives in a session, and the session after it. -/
def within (act : Act α) (s : Session) : Except Failure α × Session := act.run.run s

lemma within_pure (a : α) (s : Session) : (pure a : Act α).within s = (.ok a, s) := rfl

lemma within_lift (e : Except Failure α) (s : Session) : (liftM e : Act α).within s = (e, s) := by
  cases e <;> rfl

lemma within_note (n : Notice) (s : Session) : (note n).within s = (.ok (), s.note [n]) := rfl

lemma within_get (s : Session) : (get : Act Session).within s = (.ok s, s) := rfl

lemma within_set (s t : Session) : (set t : Act PUnit).within s = (.ok ⟨⟩, t) := rfl

lemma within_bind (act : Act α) (next : α → Act β) (s : Session) :
    (act >>= next).within s = match act.within s with
      | (.ok a, t) => (next a).within t
      | (.error failure, t) => (.error failure, t) := by
  simp only [within, ExceptT.run, StateT.run, bind, ExceptT.bind, ExceptT.mk, StateT.bind]
  cases act s with
  | mk result t => cases result <;> rfl

lemma within_bind_ok {act : Act α} {s t : Session} {a : α} (h : act.within s = (.ok a, t))
    (next : α → Act β) : (act >>= next).within s = (next a).within t := by rw [within_bind, h]

lemma within_bind_error {act : Act α} {s t : Session} {failure : Failure}
    (h : act.within s = (.error failure, t)) (next : α → Act β) :
    (act >>= next).within s = (.error failure, t) := by rw [within_bind, h]

lemma within_call {σ : Type} (c : Call) (handler : Handler σ) (state : σ) (s : Session) :
    (call c handler state).within s =
      ((c.run handler state s).1.map fun _ => (c.run handler state s).2.1,
        (c.run handler state s).2.2) := by
  rw [call, within_bind_ok (within_get s), within_bind_ok (within_set s _)]
  cases (c.run handler state s).1 <;> rfl

/-- An act that cannot fail and starts no process. -/
def Quiet (act : Act α) : Prop :=
  ∀ s, ∃ a t, act.within s = (.ok a, t) ∧ t.children = s.children ∧ t.starts = s.starts

lemma quiet_write (text : String) : (write text).Quiet := fun s => ⟨(), s.write text, rfl, rfl, rfl⟩

/-- An act that starts one process, with some command, whether it fails or not. -/
def StartsOne (act : Act α) (command : List String) : Prop :=
  ∀ s, ∃ child, Session.Started command s (act.within s).2 child

/-- An act that, if it does not fail, gives a certain value. -/
def GivesOnly (act : Act α) (a : α) : Prop :=
  ∀ s b t, act.within s = (.ok b, t) → b = a

lemma givesOnly_pure (a : α) : (pure a : Act α).GivesOnly a := by
  rintro s b t h
  cases h
  rfl

lemma GivesOnly.of_bind {act : Act α} {next : α → Act β} {b : β}
    (h : ∀ a, (next a).GivesOnly b) : (act >>= next).GivesOnly b := by
  intro s c t hrun
  rcases hact : act.within s with ⟨failure | a, u⟩
  · rw [within_bind_error hact] at hrun
    cases hrun
  · rw [within_bind_ok hact] at hrun
    exact h a u c t hrun

/-- Two acts that come to the same in related sessions, and leave related sessions behind. -/
def Related (R : Session → Session → Prop) (act act' : Act α) : Prop :=
  ∀ s t, R s t → (act'.within t).1 = (act.within s).1 ∧ R (act.within s).2 (act'.within t).2

section

variable {R : Session → Session → Prop}

lemma related_pure (a : α) : Related R (pure a) (pure a) := fun _ _ h => ⟨rfl, h⟩

lemma related_lift (e : Except Failure α) : Related R (liftM e) (liftM e) := by
  intro s t h
  rw [within_lift, within_lift]
  exact ⟨rfl, h⟩

lemma Related.bind {act act' : Act α} {next next' : α → Act β} (h : Related R act act')
    (hnext : ∀ a, Related R (next a) (next' a)) : Related R (act >>= next) (act' >>= next') := by
  intro s t hst
  obtain ⟨hsame, hafter⟩ := h s t hst
  rcases hs : act.within s with ⟨failure | a, u⟩ <;>
    rcases ht : act'.within t with ⟨result, v⟩ <;> rw [hs, ht] at hsame hafter <;> cases hsame
  · rw [within_bind_error hs, within_bind_error ht]
    exact ⟨rfl, hafter⟩
  · rw [within_bind_ok hs, within_bind_ok ht]
    exact hnext a u v hafter

end

end Act

end BackupSteward.Engine
