import BackupSteward.Proofs.Engine.Session
import Mathlib.Data.List.Forall2
import Mathlib.Data.List.Nodup

/-!
# Processes that differ in their variables

An engine process gets variables of the caller and of the call.  Nothing that is seen of a run
depends on them, but for the variables that are recorded of its process.  The file relates two
sessions whose processes differ in their variables only, and shows that the acts of an operation
keep them related when they set other variables for their calls.
-/

namespace BackupSteward

/-! ### Fields that are set over others -/

namespace Fields

lemma get?_eq_none {fields : Fields} {name : String} (h : name ∉ fields.names) :
    fields.get? name = none := by
  induction fields with
  | nil => rfl
  | cons field fields ih =>
    have hne : field.1 ≠ name := fun heq => h (heq ▸ List.mem_cons_self)
    rw [get?, if_neg hne]
    exact ih fun hmem => h (List.mem_cons_of_mem _ hmem)

lemma nodup_put {fields : Fields} (h : fields.names.Nodup) (name : String) (v : Value) :
    (fields.put name v).names.Nodup := by
  rw [names_put]
  split
  · exact h
  · exact List.nodup_append_comm.1 (List.nodup_cons.2 ⟨‹_›, h⟩)

lemma nodup_putAll {fields : Fields} (h : fields.names.Nodup) (more : Fields) :
    (fields.putAll more).names.Nodup := by
  induction more generalizing fields with
  | nil => exact h
  | cons field more ih => exact ih (nodup_put h field.1 field.2)

/-- Of fields that are set over others those count first. -/
lemma get?_putAll {more : Fields} (h : more.names.Nodup) (fields : Fields) (name : String) :
    (fields.putAll more).get? name = (more.get? name).or (fields.get? name) := by
  induction more generalizing fields with
  | nil => rfl
  | cons field more ih =>
    obtain ⟨n, v⟩ := field
    obtain ⟨hnot, hmore⟩ := List.nodup_cons.1 h
    have hstep : fields.putAll ((n, v) :: more) = (fields.put n v).putAll more := rfl
    rw [hstep, ih hmore, get?_put, get?]
    by_cases heq : n = name
    · rw [if_pos heq, if_pos heq, ← heq, get?_eq_none hnot]
      rfl
    · rw [if_neg heq, if_neg heq]

end Fields

namespace Engine

variable {σ α β : Type} {outer vars vars' : Fields}

/-! ### Runs -/

/-- A process with some variables, and the same process with others. -/
structure Child.Twins (vars vars' : Fields) (c d : Child) : Prop where
  environment : c.environment = vars
  rest : d = { c with environment := vars' }

/-- Two runs that are the same but for the variables of their process. -/
structure Run.Twins (vars vars' : Fields) (x y : Run σ) : Prop where
  child : List.Forall₂ (Child.Twins vars vars') x.child.toList y.child.toList
  rest : y = { x with child := y.child }

namespace Request

lemma twins_some (r : Request) (vars : Fields) (outcome : Except Failure Finished) (state : σ)
    (notices : List Notice) (signals : List Signal) (exit : Option Int) :
    Run.Twins r.environment vars ⟨outcome, state, notices, some (r.child signals exit)⟩
      ⟨outcome, state, notices, some ({ r with environment := vars }.child signals exit)⟩ where
  child := .cons ⟨rfl, rfl⟩ .nil
  rest := rfl

lemma twins_runScript (r : Request) (vars : Fields) (operation : Value) (script : Script)
    (handler : Handler σ) (state : σ) :
    Run.Twins r.environment vars (r.runScript operation script handler state)
      ({ r with environment := vars }.runScript operation script handler state) := by
  have hlimit : { r with environment := vars }.limit? = r.limit? := rfl
  unfold runScript
  rw [hlimit]
  cases r.limit? with
  | error fault => exact twins_some ..
  | ok limit =>
    dsimp only
    -- the cause for which the process is stopped is the same
    split <;> exact twins_some ..

/-- What is seen of a run does not depend on the variables of its process. -/
lemma twins_run (r : Request) (vars : Fields) (start : Start) (handler : Handler σ) (state : σ) :
    Run.Twins r.environment vars (r.run start handler state)
      ({ r with environment := vars }.run start handler state) := by
  have hname : { r with environment := vars }.operationName = r.operationName := rfl
  unfold run
  rw [hname]
  cases r.operationName with
  | error fault => exact ⟨.nil, rfl⟩
  | ok operation =>
    cases start with
    | refused error => exact ⟨.cons ⟨rfl, rfl⟩ .nil, rfl⟩
    | runs script => exact twins_runScript r vars operation script handler state

end Request

/-! ### Sessions -/

/-- Two sessions that are the same but for the variables that were set for their processes, over
those of the caller. -/
structure Session.Twins (outer vars vars' : Fields) (s t : Session) : Prop where
  environment : s.environment = outer
  children :
    List.Forall₂ (Child.Twins (outer.putAll vars) (outer.putAll vars')) s.children t.children
  rest : t = { s with children := t.children }

namespace Session.Twins

variable {s t : Session}

lemma begin (outer vars vars' : Fields) (invocation : String) (starts : List Start) :
    Session.Twins outer vars vars' (.begin outer invocation starts)
      (.begin outer invocation starts) :=
  ⟨rfl, .nil, rfl⟩

lemma note (h : Session.Twins outer vars vars' s t) (notices : List Notice) :
    Session.Twins outer vars vars' (s.note notices) (t.note notices) where
  environment := h.environment
  children := h.children
  rest := by
    rw [h.rest]
    rfl

lemma write (h : Session.Twins outer vars vars' s t) (text : String) :
    Session.Twins outer vars vars' (s.write text) (t.write text) where
  environment := h.environment
  children := h.children
  rest := by
    rw [h.rest]
    rfl

lemma add (h : Session.Twins outer vars vars' s t) {x y : Run σ}
    (hrun : x.Twins (outer.putAll vars) (outer.putAll vars') y) :
    Session.Twins outer vars vars' (s.add x) (t.add y) where
  environment := h.environment
  children := List.rel_append h.children hrun.child
  rest := by
    have hsome : y.child.isSome = x.child.isSome := by
      have hlength := hrun.child.length_eq
      revert hlength
      cases x.child <;> cases y.child <;> simp
    have hstarts : t.starts = s.starts := by rw [h.rest]
    have hlog : t.log = s.log := by rw [h.rest]
    have hnotices : y.notices = x.notices := by rw [hrun.rest]
    rw [Session.add, Session.add, hsome, hstarts, hlog, hnotices, h.rest]

end Session.Twins

/-- A call that is given other variables comes to the same, and the sessions stay related. -/
lemma Call.twins_run (c : Call) (vars : Fields) (handler : Handler σ) (state : σ) {s t : Session}
    (h : Session.Twins outer c.environment vars s t) :
    ({ c with environment := vars }.run handler state t).1 = (c.run handler state s).1 ∧
      ({ c with environment := vars }.run handler state t).2.1 = (c.run handler state s).2.1 ∧
      Session.Twins outer c.environment vars (c.run handler state s).2.2
        ({ c with environment := vars }.run handler state t).2.2 := by
  have hrun := (c.request s).twins_run (outer.putAll vars) s.nextStart handler state
  have hrequest : { c with environment := vars }.request t =
      { c.request s with environment := outer.putAll vars } := by
    rw [h.rest, ← h.environment]
    rfl
  have hstart : t.nextStart = s.nextStart := by
    rw [h.rest]
    rfl
  have hinvocation : t.invocation = s.invocation := by rw [h.rest]
  rw [← hrequest, ← hstart] at hrun
  have henvironment : (c.request s).environment = outer.putAll c.environment := by
    rw [← h.environment]
    rfl
  rw [henvironment] at hrun
  refine ⟨?_, ?_, h.add (hstart ▸ hrun)⟩
  · unfold Call.run
    dsimp only
    rw [hrun.rest, hinvocation, hstart]
  · show (Request.run _ _ _ _).state = (Request.run _ _ _ _).state
    rw [hrun.rest, hstart]

/-! ### Acts -/

/-- Two acts that come to the same in sessions that are the same but for the variables of their
processes, and leave such sessions behind. -/
def Act.Twins (outer vars vars' : Fields) (a b : Act α) : Prop :=
  ∀ s t, Session.Twins outer vars vars' s t →
    (b.within t).1 = (a.within s).1 ∧ Session.Twins outer vars vars' (a.within s).2 (b.within t).2

end Engine

end BackupSteward
