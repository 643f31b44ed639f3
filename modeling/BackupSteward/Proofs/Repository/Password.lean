import BackupSteward.Proofs.Repository.Creation
import BackupSteward.Proofs.Repository.Related

/-!
# Where the password of a repository goes

Operations on a repository show the caller results, failures, events, text and a log, and start
processes.  All of this is the same for two repositories that are opened with different passwords,
except for one variable of the processes: the password reaches them there and nowhere else, and that
variable and the one for the location stand above all that the caller and the options have set.
-/

namespace BackupSteward

open BackupSteward.Engine

/-- What a process finds in a variable: the password and the location, or else what the description
of its repository sets, or else what the caller has set. -/
def finds (password location : Value) (own outer : Fields) (name : String) : Option Value :=
  if name = "RESTIC_PASSWORD" then some password
  else if name = "RESTIC_REPOSITORY" then some location
  else (own.get? name).or (outer.get? name)

namespace Description

lemma get?_engineVariables (d : Description) (name : String) :
    d.engineVariables.get? name =
      if name = "RESTIC_PASSWORD" then some d.password
      else if name = "RESTIC_REPOSITORY" then some d.location else d.ownVariables.get? name := by
  show ((d.ownVariables.put "RESTIC_REPOSITORY" d.location).put "RESTIC_PASSWORD" d.password).get?
    name = _
  rw [Fields.get?_put, Fields.get?_put]
  simp only [eq_comm]

/-- A description with each variable once sets the variables of its processes over those of the
caller. -/
lemma get?_putAll_engineVariables {d : Description} (h : d.ownVariables.names.Nodup)
    (outer : Fields) (name : String) :
    (outer.putAll d.engineVariables).get? name =
      finds d.password d.location d.ownVariables outer name := by
  have hnodup : d.engineVariables.names.Nodup := Fields.nodup_put (Fields.nodup_put h _ _) _ _
  rw [Fields.get?_putAll hnodup, get?_engineVariables, finds]
  split
  · rfl
  · split <;> rfl

end Description

namespace Repository

/-! ### Tasks -/

/-- An operation on a repository with all that the caller asks of it. -/
inductive Task where
  | init (deadline : Value)
  | backup (sink : Option (Sink BackupProgress BackupSummary)) (options : List Step)
    (takesOutput : Bool) (deadline : Value)
  | restore (snapshotId target : String) (sink : Option (Sink RestoreProgress RestoreSummary))
    (options : List Step) (takesOutput : Bool) (deadline : Value)
  | snapshots (options : List Step) (deadline : Value)
  | listDirectory (snapshotId path : String) (deadline : Value)
  | forget (policy : Policy) (takesOutput : Bool) (options : List Step) (deadline : Value)
  | prune (takesOutput : Bool) (deadline : Value)
  | unlock (removeAll deadline : Value)
  | statistics (mode : String) (deadline : Value)

/-- What a caller gets of a task: its result or failure, and the events given to the sink. -/
inductive Answer where
  | done (outcome : Except Failure Unit)
  | backedUp (outcome : Except Failure BackupSummary)
    (delivered : List (Event BackupProgress BackupSummary))
  | restored (outcome : Except Failure RestoreSummary)
    (delivered : List (Event RestoreProgress RestoreSummary))
  | listed (outcome : Except Failure (List Snapshot))
  | directory (outcome : Except Failure Directory)
  | retained (outcome : Except Failure Retention)
  | counted (outcome : Except Failure Statistics)

/-- Performs a task on a repository. -/
def perform (r : Repository) (task : Task) (s : Session) : Answer × Session :=
  match task with
  | .init deadline => ((r.init deadline).within s).map .done id
  | .backup sink options takesOutput deadline =>
    let streamed := r.backup sink options takesOutput deadline s
    (.backedUp streamed.outcome streamed.delivered, streamed.session)
  | .restore snapshotId target sink options takesOutput deadline =>
    let streamed := r.restore snapshotId target sink options takesOutput deadline s
    (.restored streamed.outcome streamed.delivered, streamed.session)
  | .snapshots options deadline => ((r.snapshots options deadline).within s).map .listed id
  | .listDirectory snapshotId path deadline =>
    ((r.listDirectory snapshotId path deadline).within s).map .directory id
  | .forget policy takesOutput options deadline =>
    ((r.forget policy takesOutput options deadline).within s).map .retained id
  | .prune takesOutput deadline => ((r.prune takesOutput deadline).within s).map .done id
  | .unlock removeAll deadline => ((r.unlock removeAll deadline).within s).map .done id
  | .statistics mode deadline => ((r.statistics mode deadline).within s).map .counted id

/-- Performs tasks one after the other, whether they fail or not. -/
def performAll (r : Repository) : List Task → Session → List Answer × Session
  | [], s => ([], s)
  | task :: tasks, s =>
    let (answer, s) := r.perform task s
    let (answers, s) := r.performAll tasks s
    (answer :: answers, s)

/-! ### One operation -/

/-- A repository with another password. -/
def withPassword (r : Repository) (password : Value) : Repository :=
  { r with description := r.description.withPassword password }

section

variable (r : Repository) (password : Value) {outer : Fields}

/-- Two acts on a repository with two passwords that differ in the variables of their processes
only. -/
abbrev Blind {α : Type} (outer : Fields) (r : Repository) (password : Value) (a b : Act α) : Prop :=
  Act.Twins outer r.description.engineVariables
    (r.withPassword password).description.engineVariables a b

/-- With another password a repository does the same, but for the variables of its processes. -/
lemma corresponds_withPassword : Corresponds (Session.Twins outer r.description.engineVariables
    (r.withPassword password).description.engineVariables) r (r.withPassword password) where
  label := rfl
  note h n := h.note [n]
  write h text := h.write text
  call h subcommand arguments deadline handler state :=
    (r.call subcommand arguments deadline).twins_run _ handler state h

end

/-! ### Operations that stream -/

/-- What two streaming operations show is the same, and they leave sessions behind that differ in
the variables of their processes only. -/
structure StreamsAlike {P S : Type} (outer vars vars' : Fields) (x y : Streamed P S) : Prop where
  outcome : y.outcome = x.outcome
  delivered : y.delivered = x.delivered
  session : Session.Twins outer vars vars' x.session y.session

lemma streamsAlike_stream {P S : Type} {op : Operation P S} {sink : Option (Sink P S)}
    {takesOutput : Bool} {c : Call} {outer vars : Fields} {started : Notice}
    {completed : S → Notice} {s t : Session} (h : Session.Twins outer c.environment vars s t) :
    StreamsAlike outer c.environment vars (stream op sink takesOutput c started completed s)
      (stream op sink takesOutput { c with environment := vars } started completed t) := by
  obtain ⟨houtcome, hstate, hafter⟩ :=
    c.twins_run vars (Streaming.handler op sink takesOutput) .start (h.note [started])
  unfold stream
  dsimp only
  rw [houtcome, hstate]
  have hwritten := hafter.write
    (c.run (Streaming.handler op sink takesOutput) .start (s.note [started])).2.1.written
  cases (c.run (Streaming.handler op sink takesOutput) .start (s.note [started])).1 with
  | error failure => exact ⟨rfl, rfl, hwritten⟩
  | ok =>
    dsimp only
    cases (c.run (Streaming.handler op sink takesOutput) .start
        (s.note [started])).2.1.collector.requireSummary op with
    | error failure => exact ⟨rfl, rfl, hwritten⟩
    | ok summary => exact ⟨rfl, rfl, hwritten.note _⟩

section

variable (r : Repository) (password : Value) {outer : Fields} {s t : Session}
  (h : Session.Twins outer r.description.engineVariables
    (r.withPassword password).description.engineVariables s t)

include h

lemma streamsAlike_backup (sink : Option (Sink BackupProgress BackupSummary)) (options : List Step)
    (takesOutput : Bool) (deadline : Value) :
    StreamsAlike outer r.description.engineVariables
      (r.withPassword password).description.engineVariables
      (r.backup sink options takesOutput deadline s)
      ((r.withPassword password).backup sink options takesOutput deadline t) := by
  unfold backup
  cases Options.backupFromSteps options with
  | error failure => exact ⟨rfl, rfl, h⟩
  | ok arguments =>
    exact streamsAlike_stream (c := r.call "backup" (.str "--json" :: arguments) deadline) h

lemma streamsAlike_restore (snapshotId target : String)
    (sink : Option (Sink RestoreProgress RestoreSummary)) (options : List Step) (takesOutput : Bool)
    (deadline : Value) :
    StreamsAlike outer r.description.engineVariables
      (r.withPassword password).description.engineVariables
      (r.restore snapshotId target sink options takesOutput deadline s)
      ((r.withPassword password).restore snapshotId target sink options takesOutput deadline
        t) := by
  unfold restore
  cases restoreArguments snapshotId target options with
  | error failure => exact ⟨rfl, rfl, h⟩
  | ok arguments =>
    exact streamsAlike_stream
      (c := r.call "restore" (.str "--json" :: .str snapshotId :: arguments) deadline) h

/-! ### Any number of tasks -/

/-- A task is answered in the same way with another password, and sessions are left behind that
differ in the variables of their processes only. -/
theorem twins_perform (task : Task) :
    ((r.withPassword password).perform task t).1 = (r.perform task s).1 ∧
      Session.Twins outer r.description.engineVariables
        (r.withPassword password).description.engineVariables (r.perform task s).2
        ((r.withPassword password).perform task t).2 := by
  have hact : ∀ {α : Type} {a b : Act α} (wrap : Except Failure α → Answer),
      Blind outer r password a b →
      ((b.within t).map wrap id).1 = ((a.within s).map wrap id).1 ∧
        Session.Twins outer r.description.engineVariables
          (r.withPassword password).description.engineVariables ((a.within s).map wrap id).2
          ((b.within t).map wrap id).2 := by
    intro α a b wrap hblind
    obtain ⟨hsame, hafter⟩ := hblind s t h
    exact ⟨congrArg wrap hsame, hafter⟩
  have hpassword := @corresponds_withPassword r password outer
  cases task with
  | init deadline => exact hact .done (related_init hpassword deadline)
  | backup sink options takesOutput deadline =>
    obtain ⟨houtcome, hdelivered, hsession⟩ :=
      r.streamsAlike_backup password h sink options takesOutput deadline
    refine ⟨?_, hsession⟩
    show Answer.backedUp _ _ = Answer.backedUp _ _
    rw [houtcome, hdelivered]
  | restore snapshotId target sink options takesOutput deadline =>
    obtain ⟨houtcome, hdelivered, hsession⟩ :=
      r.streamsAlike_restore password h snapshotId target sink options takesOutput deadline
    refine ⟨?_, hsession⟩
    show Answer.restored _ _ = Answer.restored _ _
    rw [houtcome, hdelivered]
  | snapshots options deadline => exact hact .listed (related_snapshots hpassword options deadline)
  | listDirectory snapshotId path deadline =>
    exact hact .directory (related_listDirectory hpassword snapshotId path deadline)
  | forget policy takesOutput options deadline =>
    exact hact .retained (related_forget hpassword policy takesOutput options deadline)
  | prune takesOutput deadline => exact hact .done (related_prune hpassword takesOutput deadline)
  | unlock removeAll deadline => exact hact .done (related_unlock hpassword removeAll deadline)
  | statistics mode deadline => exact hact .counted (related_statistics hpassword mode deadline)

/-- So are any number of tasks, one after the other. -/
theorem twins_performAll (tasks : List Task) :
    ((r.withPassword password).performAll tasks t).1 = (r.performAll tasks s).1 ∧
      Session.Twins outer r.description.engineVariables
        (r.withPassword password).description.engineVariables (r.performAll tasks s).2
        ((r.withPassword password).performAll tasks t).2 := by
  induction tasks generalizing s t with
  | nil => exact ⟨rfl, h⟩
  | cons task tasks ih =>
    obtain ⟨hanswer, hstep⟩ := r.twins_perform password h task
    obtain ⟨hanswers, hrest⟩ := ih hstep
    exact ⟨congrArg₂ List.cons hanswer hanswers, hrest⟩

end

/-! ### Two passwords -/

/-- What is seen of two sessions in which the same was asked of repositories with two passwords: all
but their processes is the same, and these differ in their variables only. -/
structure SeenAlike (find find' : String → Option Value) (x y : List Answer × Session) : Prop where
  answers : y.1 = x.1
  session : y.2 = { x.2 with children := y.2.children }
  children : List.Forall₂ (fun c d => d = { c with environment := d.environment } ∧
    ∀ name, c.environment.get? name = find name ∧ d.environment.get? name = find' name)
    x.2.children y.2.children

/-- Two attempts to make a repository at a location, with a password each: they are refused for the
same reason, or give repositories that are written in the same way and do the same, but for the
password in the variables of their processes. -/
inductive SameButPassword (location : Value) (p q : String) :
    Except Failure Repository → Except Failure Repository → Prop
  | refused (failure : Failure) : SameButPassword location p q (.error failure) (.error failure)
  | made {r r' : Repository} (hrepr : r'.repr = r.repr)
    (hdescription : r'.description.repr = r.description.repr)
    (hseen : ∀ (outer : Fields) (invocation : String) (starts : List Start) (tasks : List Task),
      SeenAlike (finds (.str p) (.str location.text) r.description.ownVariables outer)
        (finds (.str q) (.str location.text) r.description.ownVariables outer)
        (r.performAll tasks (.begin outer invocation starts))
        (r'.performAll tasks (.begin outer invocation starts))) :
    SameButPassword location p q (.ok r) (.ok r')

lemma seenAlike_performAll {r : Repository} (password : Value)
    (hnodup : r.description.ownVariables.names.Nodup) (outer : Fields) (invocation : String)
    (starts : List Start) (tasks : List Task) :
    SeenAlike (finds r.description.password r.description.location r.description.ownVariables outer)
      (finds password r.description.location r.description.ownVariables outer)
      (r.performAll tasks (.begin outer invocation starts))
      ((r.withPassword password).performAll tasks (.begin outer invocation starts)) := by
  obtain ⟨hanswers, -, hchildren, hrest⟩ := r.twins_performAll password
    (Session.Twins.begin outer _ _ invocation starts) tasks
  refine ⟨hanswers, hrest, hchildren.imp ?_⟩
  rintro c d ⟨hc, rfl⟩
  refine ⟨rfl, fun name => ⟨?_, ?_⟩⟩
  · rw [hc]
    exact Description.get?_putAll_engineVariables hnodup outer name
  · exact Description.get?_putAll_engineVariables (d := (r.withPassword password).description)
      hnodup outer name

/-- Making a repository with another password. -/
lemma create_withPassword {steps : List Step} {settings : Fields} (hoffered : Step.AllOffered steps)
    (hproper : Description.ProperSettings settings) (location : Value) {p q : Value}
    (hp : p.truthy = true) (hq : q.truthy = true) :
    create location q steps settings =
      (create location p steps settings).map (·.withPassword q) := by
  unfold create
  rw [Description.create_withPassword hoffered hproper location hp hq]
  cases Description.create location p steps settings with
  | error failure => rfl
  | ok d =>
    show orFail ((Location.masked d.location.text).map _) =
      (orFail ((Location.masked d.location.text).map _)).map _
    cases Location.masked d.location.text <;> rfl

/-- **The password of a repository reaches the variables of its processes and nothing else.**  Two
repositories that are opened in the same way but for the password are both refused for the same
reason, or they are written in the same way, and the same tasks in the same surroundings are
answered in the same way and leave the same log, the same text and the same processes.  Only the
password that a process finds is that of its own repository; it and the location stand above what
the options have set, and this above the variables of the caller. -/
theorem password_only_in_variables {steps : List Step} (hoffered : Step.AllOffered steps)
    {settings : Fields} (hproper : Description.ProperSettings settings) (location : Value)
    {p q : String} (hp : p ≠ "") (hq : q ≠ "") :
    SameButPassword location p q (create location (.str p) steps settings)
      (create location (.str q) steps settings) := by
  have hp' : (Value.str p).truthy = true := by simpa [Value.truthy] using hp
  have hq' : (Value.str q).truthy = true := by simpa [Value.truthy] using hq
  rw [create_withPassword hoffered hproper location hp' hq']
  cases hcreate : create location (.str p) steps settings with
  | error failure => exact .refused failure
  | ok r =>
    obtain ⟨d, hd, hr⟩ := bind_eq_ok.1 hcreate
    obtain ⟨hlocation, hpassword, hnodup⟩ := Description.create_eq_ok hoffered hproper hd
    have hdescription : r.description = d := by
      unfold ofDescription at hr
      cases hmasked : Location.masked d.location.text <;> rw [hmasked] at hr <;> cases hr
      rfl
    subst hdescription
    refine .made rfl rfl fun outer invocation starts tasks => ?_
    have hseen := seenAlike_performAll (.str q) hnodup outer invocation starts tasks
    rwa [hlocation, hpassword] at hseen

/-- Another password that the options and the caller have set is not the one that a process
finds. -/
theorem password_only_in_variables_overridden :
    let steps := [Step.globalFlags [.str "--no-cache"],
      Step.addVariables [("RESTIC_PASSWORD", .str "stale"), ("AWS_REGION", .str "eu")]]
    let opened (password : String) :=
      create (.str "/srv/repo") (.str password) steps [("repo_id", .str "nightly")]
    let found (password : String) := (opened password).toOption.map fun r =>
      (r.performAll [.init .null]
        (.begin [("RESTIC_PASSWORD", .str "older")] "run" [])).2.children.map
        fun c => (c.environment.get? "RESTIC_PASSWORD").map Value.text
    SameButPassword (.str "/srv/repo") "first" "second" (opened "first") (opened "second") ∧
      found "first" = some [some "first"] ∧ found "second" = some [some "second"] := by
  intro steps opened found
  have hproper : Description.ProperSettings [("repo_id", .str "nightly")] := by
    intro vars hvars
    simp at hvars
  refine ⟨password_only_in_variables ?_ hproper _ (by decide) (by decide), ?_, ?_⟩
  · simp [Step.AllOffered, Step.Offered, steps, Step.globalFlags, Step.appendTexts, Step.listFields]
  · decide +kernel
  · decide +kernel

end Repository

end BackupSteward
