import BackupSteward.Proofs.Engine.Session

/-!
# Processes one after the other

An operation that needs several engine processes starts each of them only behind those that have
succeeded.  The file says this of acts in general, with a rule for each way in which acts are put
together.
-/

namespace BackupSteward.Engine

variable {σ α β : Type}

/-- A process that was started, ended by itself and gave the status zero. -/
structure Child.Succeeded (child : Child) : Prop where
  started : child.started = true
  exit : child.exit = some 0

/-! ### Sessions -/

namespace Session

/-- A session without some of its next starts. -/
def later (s : Session) (n : Nat) : Session := { s with starts := s.starts.drop n }

/-- Two sessions with the same surroundings. -/
structure Same (s t : Session) : Prop where
  environment : t.environment = s.environment
  invocation : t.invocation = s.invocation
  starts : t.starts = s.starts

/-- From one session another is reached by some processes, each of which takes a start. -/
structure Reached (s : Session) (new : List Child) (t : Session) : Prop where
  environment : t.environment = s.environment
  invocation : t.invocation = s.invocation
  starts : t.starts = s.starts.drop new.length
  children : t.children = s.children ++ new

/-- From one session another is reached by a single process, with some command, which has succeeded
if some condition holds. -/
structure Ran (command : List String) (s t : Session) (child : Child) (ok : Prop) : Prop
    extends Started command s t child where
  environment : t.environment = s.environment
  invocation : t.invocation = s.invocation
  succeeded : ok → child.Succeeded

variable {s t u : Session} {new more : List Child}

lemma Same.drop (h : s.Same t) (n : Nat) : (s.later n).Same (t.later n) where
  environment := h.environment
  invocation := h.invocation
  starts := congrArg (List.drop n) h.starts

lemma Ran.reached {command : List String} {child : Child} {ok : Prop}
    (h : Ran command s t child ok) : s.Reached [child] t :=
  ⟨h.environment, h.invocation, h.starts, h.children⟩

lemma Reached.refl (s : Session) : s.Reached [] s := ⟨rfl, rfl, rfl, (List.append_nil _).symm⟩

lemma Reached.trans (h : s.Reached new t) (h' : t.Reached more u) : s.Reached (new ++ more) u where
  environment := h'.environment.trans h.environment
  invocation := h'.invocation.trans h.invocation
  starts := by rw [h'.starts, h.starts, List.drop_drop, List.length_append]
  children := by rw [h'.children, h.children, List.append_assoc]

/-- A session that has been reached has the surroundings of the first one behind some starts. -/
lemma Reached.same (h : s.Reached new t) : (s.later new.length).Same t :=
  ⟨h.environment, h.invocation, h.starts⟩

lemma later_later (s : Session) (m n : Nat) : (s.later m).later n = s.later (m + n) := by
  show { s with starts := (s.starts.drop m).drop n } = { s with starts := s.starts.drop (m + n) }
  rw [List.drop_drop]

end Session

/-! ### Calls -/

/-- The process of a request that succeeds has succeeded. -/
lemma Request.Succeeds.child_run {r : Request} (hcommand : r.command ≠ [])
    (hgiven : r.operation.truthy = true) {handler : Handler σ} {state final : σ} {start : Start}
    (h : r.Succeeds handler state start final) :
    (r.run start handler state).child = some (r.child [] (some 0)) := by
  cases h with
  | intro hlimit hcause hcode =>
    rw [run_runs hcommand hgiven, (runScript_of_end hlimit hcause).2.2, hcode]

/-- A call starts one process, which has succeeded if the call does. -/
theorem Call.ran_run {c : Call} (hcommand : c.command ≠ []) (hoperation : c.operation ≠ "")
    (handler : Handler σ) (state : σ) (s : Session) :
    ∃ child, Session.Ran c.command s (c.run handler state s).2.2 child
      ((c.run handler state s).1 = .ok ()) := by
  obtain ⟨child, hchild⟩ := c.started_run hcommand handler state s
  refine ⟨child, { hchild with environment := rfl, invocation := rfl, succeeded := fun hok => ?_ }⟩
  have hgiven : (c.request s).operation.truthy = true := by
    simpa [request, Value.truthy] using hoperation
  have hrun := ((run_eq_ok hcommand hoperation handler state _ s).1 ⟨hok, rfl⟩).child_run
    hcommand hgiven
  have hchildren : (c.run handler state s).2.2.children =
      s.children ++ [(c.request s).child [] (some 0)] := by simp [run, Session.add, hrun]
  rw [hchild.children] at hchildren
  rw [List.singleton_inj.1 (List.append_cancel_left hchildren)]
  exact ⟨rfl, rfl⟩

/-- What a call comes to is settled by its surroundings: neither what was done before nor what the
log says has any influence. -/
lemma Call.same_run (c : Call) (handler : Handler σ) (state : σ) {s t : Session} (h : s.Same t) :
    (c.run handler state t).1 = (c.run handler state s).1 ∧
      (c.run handler state t).2.1 = (c.run handler state s).2.1 ∧
      (c.run handler state s).2.2.Same (c.run handler state t).2.2 := by
  have hrequest : c.request t = c.request s := by
    rw [request, h.environment, h.invocation, request]
  have hstart : t.nextStart = s.nextStart := by
    rw [Session.nextStart, h.starts, Session.nextStart]
  unfold run
  rw [hrequest, hstart, h.invocation]
  refine ⟨rfl, rfl, h.environment, h.invocation, ?_⟩
  show ite _ _ _ = ite _ _ _
  rw [h.starts]

/-! ### Acts -/

namespace Act

lemma lift_pure (a : α) : (liftM (pure a : Except Failure α) : Act α) = pure a := rfl

/-- Programs that may fail can be put together before or after they are made acts. -/
lemma lift_bind (e : Except Failure α) (f : α → Except Failure β) :
    (liftM (e >>= f) : Act β) = (liftM e : Act α) >>= fun a => (liftM (f a) : Act β) := by
  cases e <;> rfl

/-- A notice behind an act leaves open only whether the act has failed. -/
lemma within_bind_note (act : Act α) (f : α → Notice) (s : Session) :
    ((act >>= fun a => note (f a)).within s).1 = (act.within s).1.map fun _ => () := by
  rw [within_bind]
  rcases act.within s with ⟨failure | a, t⟩ <;> rfl

lemma within_bind_pure (act : Act α) (b : β) (s : Session) :
    (act >>= fun _ => pure b).within s = ((act.within s).1.map fun _ => b, (act.within s).2) := by
  rw [within_bind]
  rcases act.within s with ⟨failure | a, t⟩ <;> rfl

/-- An act that starts no process, whether it fails or not. -/
def Passive (act : Act α) : Prop := ∀ s : Session, s.Reached [] (act.within s).2

lemma passive_pure (a : α) : (pure a : Act α).Passive := Session.Reached.refl

lemma passive_lift (e : Except Failure α) : (liftM e : Act α).Passive := by
  intro s
  rw [within_lift]
  exact .refl s

lemma passive_note (n : Notice) : (note n).Passive := fun s => { Session.Reached.refl s with }

lemma passive_write (text : String) : (write text).Passive :=
  fun s => { Session.Reached.refl s with }

lemma Passive.bind {act : Act α} {next : α → Act β} (h : act.Passive)
    (hnext : ∀ a, (next a).Passive) : (act >>= next).Passive := by
  intro s
  have hact := h s
  rcases hs : act.within s with ⟨failure | a, t⟩ <;> rw [hs] at hact
  · rw [within_bind_error hs]
    exact hact
  · rw [within_bind_ok hs]
    exact hact.trans (hnext a t)

/-- An act that starts one process, with some command, which has succeeded if the act does. -/
def Runs (act : Act α) (command : List String) : Prop :=
  ∀ s, ∃ child, Session.Ran command s (act.within s).2 child (∃ a, (act.within s).1 = .ok a)

lemma Runs.startsOne {act : Act α} {command : List String} (h : act.Runs command) :
    act.StartsOne command := fun s => (h s).imp fun _ hran => hran.toStarted

lemma runs_call {c : Call} (hcommand : c.command ≠ []) (hoperation : c.operation ≠ "")
    (handler : Handler σ) (state : σ) : (call c handler state).Runs c.command := by
  intro s
  obtain ⟨child, hran⟩ := Call.ran_run hcommand hoperation handler state s
  refine ⟨child, ?_⟩
  rw [within_call]
  refine { hran with succeeded := ?_ }
  rintro ⟨a, ha⟩
  refine hran.succeeded ?_
  rcases hrun : (c.run handler state s).1 with failure | ⟨⟩
  · rw [hrun] at ha
    cases ha
  · rfl

lemma Runs.bind {act : Act α} {next : α → Act β} {command : List String} (h : act.Runs command)
    (hnext : ∀ a, (next a).Passive) : (act >>= next).Runs command := by
  intro s
  obtain ⟨child, hran⟩ := h s
  refine ⟨child, ?_⟩
  rcases hs : act.within s with ⟨failure | a, t⟩ <;> rw [hs] at hran
  -- where the act fails the next one is not reached, and nothing is said of the process
  · rw [within_bind_error hs]
    exact { hran with succeeded := fun ⟨_, hok⟩ => by cases hok }
  · rw [within_bind_ok hs]
    have hafter := hnext a t
    exact { environment := hafter.environment.trans hran.environment
            invocation := hafter.invocation.trans hran.invocation
            starts := hafter.starts.trans hran.starts
            children := hafter.children.trans ((List.append_nil _).trans hran.children)
            command_eq := hran.command_eq
            started_eq := hran.started_eq
            succeeded := fun _ => hran.succeeded ⟨a, rfl⟩ }

/-- An act that cannot fail and starts no process makes no difference in front of one that does. -/
lemma Quiet.bind_runs {act : Act α} {next : α → Act β} {command : List String} (h : act.Quiet)
    (hpassive : act.Passive) (hnext : ∀ a, (next a).Runs command) :
    (act >>= next).Runs command := by
  intro s
  obtain ⟨a, t, hs, hchildren, hstarts⟩ := h s
  obtain ⟨child, hran⟩ := hnext a t
  have hbefore := hpassive s
  rw [hs] at hbefore
  refine ⟨child, ?_⟩
  rw [within_bind_ok hs]
  exact { hran with
    environment := hran.environment.trans hbefore.environment
    invocation := hran.invocation.trans hbefore.invocation
    children := by rw [hran.children, hchildren]
    started_eq := by rw [hran.started_eq, Session.nextStart, hstarts, Session.nextStart]
    starts := by rw [hran.starts, hstarts] }

/-- An act starts some processes, the next one only when all before it have succeeded; all of them
have succeeded if the act does. -/
structure Orderly (act : Act α) (s : Session) (new : List Child) : Prop where
  reached : s.Reached new (act.within s).2
  earlier : ∀ child ∈ new.dropLast, child.Succeeded
  all : ∀ a, (act.within s).1 = .ok a → ∀ child ∈ new, child.Succeeded

lemma Passive.orderly {act : Act α} (h : act.Passive) (s : Session) : act.Orderly s [] where
  reached := h s
  earlier := by simp
  all := by simp

lemma Runs.orderly {act : Act α} {command : List String} (h : act.Runs command) (s : Session) :
    ∃ child : Child, child.command = command ∧ act.Orderly s [child] := by
  obtain ⟨child, hran⟩ := h s
  refine ⟨child, hran.command_eq, hran.reached, by simp, fun a ha => ?_⟩
  rw [List.forall_mem_singleton]
  exact hran.succeeded ⟨a, ha⟩

section

variable {act : Act α} {next : α → Act β} {s t : Session} {new more : List Child}

lemma Orderly.bind_error {failure : Failure} (h : act.Orderly s new)
    (hs : act.within s = (.error failure, t)) : (act >>= next).Orderly s new := by
  have hreached := h.reached
  rw [hs] at hreached
  refine ⟨?_, h.earlier, ?_⟩ <;> rw [within_bind_error hs]
  · exact hreached
  · rintro b ⟨⟩

lemma Orderly.bind_ok {a : α} (h : act.Orderly s new) (hs : act.within s = (.ok a, t))
    (hnext : (next a).Orderly t more) : (act >>= next).Orderly s (new ++ more) := by
  have hreached := h.reached
  have hall := h.all a
  rw [hs] at hreached hall
  refine ⟨?_, ?_, ?_⟩
  · rw [within_bind_ok hs]
    exact hreached.trans hnext.reached
  -- all processes of the first act have succeeded, so only the last of the next one may have failed
  · rcases List.eq_nil_or_concat more with rfl | ⟨front, last, rfl⟩
    · rw [List.append_nil]
      exact h.earlier
    · intro child hmem
      have hearlier := hnext.earlier
      rw [List.concat_eq_append, List.dropLast_concat] at hearlier
      rw [List.concat_eq_append, ← List.append_assoc, List.dropLast_concat] at hmem
      exact (List.mem_append.1 hmem).elim (hall rfl child) (hearlier child)
  · rw [within_bind_ok hs]
    intro b hb child hmem
    exact (List.mem_append.1 hmem).elim (hall rfl child) (hnext.all b hb child)

/-- An act that starts no process, and does not fail here, makes no difference in front of
others. -/
lemma Passive.bind_orderly {a : α} (h : act.Passive) (hs : act.within s = (.ok a, t))
    (hnext : (next a).Orderly t new) : (act >>= next).Orderly s new :=
  (h.orderly s).bind_ok hs hnext

/-- Nor does it behind them. -/
lemma Orderly.bind_passive (h : act.Orderly s new) (hnext : ∀ a, (next a).Passive) :
    (act >>= next).Orderly s new := by
  rcases hs : act.within s with ⟨failure | a, t⟩
  · exact h.bind_error hs
  · have := h.bind_ok hs ((hnext a).orderly t)
    rwa [List.append_nil] at this

end

end Act

end BackupSteward.Engine
