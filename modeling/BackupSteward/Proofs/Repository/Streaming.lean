import BackupSteward.Proofs.Engine.Ending
import BackupSteward.Proofs.Engine.Succession
import BackupSteward.Proofs.Event.Accounts
import BackupSteward.Proofs.Options.Growth
import BackupSteward.Repository.Streaming

/-!
# What backups and restores come to

A backup or a restore is refused for its options, or it runs the engine and reads its events.  Then
the end of the engine decides first: only when the process has ended by itself, in time and with
status zero, the events are asked for the summary.  The file proves that this is so for all options,
scripts and deadlines.
-/

namespace BackupSteward

open BackupSteward.Engine

variable {P S : Type}

/-! ### The lines -/

namespace Operation

variable (op : Operation P S)

/-- A line can be read, be it a message or not. -/
def Reads (line : String) : Prop := ∃ event, op.eventOfLine? line = .ok event

/-- The lines that are heard of the process of a call can be read. -/
def ReadsAll (c : Call) (s : Session) : Prop := ∀ line ∈ c.heard s, op.Reads line.2

end Operation

/-- What the log says before has no influence on a call. -/
lemma Engine.Call.run_note {σ : Type} (c : Call) (handler : Handler σ) (state : σ) (s : Session)
    (notices : List Notice) : ∃ t, c.run handler state (s.note notices) =
      ((c.run handler state s).1, (c.run handler state s).2.1, t) := ⟨_, rfl⟩

/-- The texts of the lines that are heard of the process of a call. -/
def Engine.Call.texts (c : Call) (s : Session) : List String := (c.heard s).map (·.2)

namespace Streaming

variable {op : Operation P S} (sink : Option (Sink P S)) (takesOutput : Bool)

lemma notify_spec (st : Streaming P S) (event : Event P S) (notices : List Notice) :
    (st.notify op sink event notices).failure = none ∧
      (st.notify op sink event notices).state.collector = st.collector := by
  unfold notify
  cases sink with
  | none => exact ⟨rfl, rfl⟩
  | some sink =>
    dsimp only
    split <;> exact ⟨rfl, rfl⟩

/-- A line that can be read is taken, and nothing but the collector decides what is known of it. -/
lemma handler_of_reads {line : String} (h : op.Reads line) (pipe : Pipe) (st : Streaming P S) :
    (handler op sink takesOutput pipe line st).failure = none ∧
      (handler op sink takesOutput pipe line st).state.collector =
        st.collector.next op line := by
  obtain ⟨event, hevent⟩ := h
  unfold handler Collector.next
  cases hfeed : st.collector.feed op line with
  | error fault => cases (Collector.feed_eq_error.1 hfeed).symm.trans hevent
  | ok collected =>
    dsimp only
    cases collected.event with
    | some event => exact notify_spec sink _ event _
    | none =>
      dsimp only
      split <;> exact ⟨rfl, rfl⟩

/-- Lines that can be read are all taken, and fed to the collector. -/
lemma through_of_reads {lines : List (Pipe × String)} (h : ∀ line ∈ lines, op.Reads line.2)
    (st : Streaming P S) :
    ((handler op sink takesOutput).through lines st).2 = none ∧
      ((handler op sink takesOutput).through lines st).1.collector =
        (lines.map (·.2)).foldl (Collector.next op) st.collector := by
  induction lines generalizing st with
  | nil => exact ⟨rfl, rfl⟩
  | cons line lines ih =>
    obtain ⟨pipe, text⟩ := line
    obtain ⟨htaken, hcollector⟩ := handler_of_reads sink takesOutput
      (h (pipe, text) List.mem_cons_self) pipe st
    rw [Handler.through, htaken, List.map_cons, List.foldl_cons, ← hcollector]
    exact ih (fun line hline => h line (List.mem_cons_of_mem _ hline)) _

end Streaming

namespace Repository

/-! ### One operation -/

/-- What a streaming operation comes to that runs a call. -/
inductive Comes (op : Operation P S) (c : Call) (s : Session) : Except Failure S → Prop
  /-- The call fails, whether there has been a summary or not. -/
  | failed {failure : Failure} (hends : c.Ends s (.error failure)) : Comes op c s (.error failure)
  | missing (hexits : c.Exits s 0) (hnone : op.firstSummary? (c.texts s) = none) :
    Comes op c s (.error (.missingSummary op.name (op.messages (c.texts s)).length))
  | summary {first : S} (hexits : c.Exits s 0)
    (hfirst : op.firstSummary? (c.texts s) = some first) :
    Comes op c s (.ok (op.withErrorCount first (op.itemErrors (c.texts s))))

variable {op : Operation P S} {sink : Option (Sink P S)} {takesOutput : Bool} {c : Call}
  {started : Notice} {completed : S → Notice} {s : Session}

/-- Behind the engine, the collector is asked for the summary. -/
lemma outcome_stream : (stream op sink takesOutput c started completed s).outcome =
    match (c.run (Streaming.handler op sink takesOutput) .start s).1 with
    | .error failure => .error failure
    | .ok () => (c.run (Streaming.handler op sink takesOutput) .start
        s).2.1.collector.requireSummary op := by
  obtain ⟨t, hnote⟩ :=
    c.run_note (Streaming.handler op sink takesOutput) .start s [started]
  unfold stream
  rw [hnote]
  rcases (c.run (Streaming.handler op sink takesOutput) .start s).1 with failure | ⟨⟩
  · rfl
  · dsimp only
    cases (c.run (Streaming.handler op sink takesOutput) .start
      s).2.1.collector.requireSummary op <;> rfl

/-- One process is started, which has succeeded if there is a summary. -/
lemma ran_stream (hnamed : c.Named) : ∃ child,
    Session.Ran c.command s (stream op sink takesOutput c started completed s).session child
      (∃ summary, (stream op sink takesOutput c started completed s).outcome = .ok summary) := by
  obtain ⟨child, hran⟩ := Call.ran_run hnamed.command_ne_nil hnamed.operation
    (Streaming.handler op sink takesOutput) .start (s.note [started])
  refine ⟨child, ?_⟩
  unfold stream
  rcases hrun : c.run (Streaming.handler op sink takesOutput) .start (s.note [started]) with
    ⟨failure | ⟨⟩, st, t⟩ <;> rw [hrun] at hran
  · exact { hran with succeeded := fun ⟨_, hok⟩ => by cases hok }
  -- the process has succeeded even where no summary is found
  · dsimp only
    cases st.collector.requireSummary op <;>
      exact { hran with succeeded := fun _ => hran.succeeded rfl }

/-- One process is started, whatever it comes to. -/
lemma started_stream (hnamed : c.Named) : ∃ child,
    Session.Started c.command s (stream op sink takesOutput c started completed s).session child :=
  (ran_stream hnamed).imp fun _ hran => hran.toStarted

section

variable (hnamed : c.Named) (hreads : op.ReadsAll c s)

include hnamed hreads

/-- A call that fails decides alone what the operation comes to. -/
lemma outcome_of_failed {failure : Failure} (hends : c.Ends s (.error failure)) :
    (stream op sink takesOutput c started completed s).outcome = .error failure := by
  have htaken : c.TakenBy s (Streaming.handler op sink takesOutput) .start :=
    (Streaming.through_of_reads sink takesOutput hreads .start).1
  rw [outcome_stream, Call.run_of_ends hnamed htaken hends]

/-- Behind a call that succeeds, the first summary decides. -/
lemma outcome_of_exits (hop : op.CountIsField) (hexits : c.Exits s 0) :
    (stream op sink takesOutput c started completed s).outcome =
      match op.firstSummary? (c.texts s) with
      | some first => .ok (op.withErrorCount first (op.itemErrors (c.texts s)))
      | none => .error (.missingSummary op.name (op.messages (c.texts s)).length) := by
  obtain ⟨htaken, hcollector⟩ := Streaming.through_of_reads sink takesOutput hreads .start
  rw [outcome_stream, Call.run_of_ends hnamed htaken (.succeeded hexits),
    Call.state_of_succeeds hnamed htaken hexits, hcollector]
  exact (Collector.accounts_of_countIsField hop (c.texts s)).required

/-- **A streaming operation that runs a call comes to exactly one thing.** -/
theorem stream_comes (hop : op.CountIsField) {outcome : Except Failure S} :
    (stream op sink takesOutput c started completed s).outcome = outcome ↔
      Comes op c s outcome := by
  constructor
  · rintro rfl
    obtain ⟨failure | ⟨⟩, hends⟩ := Call.exists_ends c s
    · rw [outcome_of_failed hnamed hreads hends]
      exact .failed hends
    · cases hends with
      | succeeded hexits =>
        rw [outcome_of_exits hnamed hreads hop hexits]
        cases hfirst : op.firstSummary? (c.texts s) with
        | none => exact .missing hexits hfirst
        | some first => exact .summary hexits hfirst
  · intro h
    cases h with
    | failed hends => exact outcome_of_failed hnamed hreads hends
    | missing hexits hnone => rw [outcome_of_exits hnamed hreads hop hexits, hnone]
    | summary hexits hfirst => rw [outcome_of_exits hnamed hreads hop hexits, hfirst]

end

/-! ### Backups and restores -/

lemma exists_firstSummary {texts : List String} :
    (∃ first, op.firstSummary? texts = some first) ↔
      ∃ summary, Event.summary summary ∈ op.messages texts := by
  rw [Operation.firstSummary?, ← Option.isSome_iff_exists, List.findSome?_isSome_iff]
  constructor
  · rintro ⟨event, hmem, hsome⟩
    cases event with
    | summary summary => exact ⟨summary, hmem⟩
    | progress _ => cases hsome
    | itemError _ => cases hsome
  · rintro ⟨summary, hmem⟩
    exact ⟨_, hmem, rfl⟩

/-- How a streaming operation goes whose options are refused, or give the arguments of a call. -/
structure Goes (op : Operation P S) (arguments? : Except Failure (List Value))
    (call : List Value → Call) (s : Session) (streamed : Streamed P S) : Prop where
  /-- Options are refused before any process. -/
  refused (failure : Failure) : arguments? = .error failure → streamed = ⟨.error failure, [], s⟩
  /-- Otherwise there is one process. -/
  started (arguments : List Value) : arguments? = .ok arguments →
    ∃ child, Session.Started (call arguments).command s streamed.session child
  /-- What the operation comes to is settled by its process. -/
  comes (arguments : List Value) : arguments? = .ok arguments →
    op.ReadsAll (call arguments) s →
    ∀ outcome, streamed.outcome = outcome ↔ Comes op (call arguments) s outcome
  /-- A summary is returned when the process has succeeded and has given one, and never else. -/
  returns : (∀ arguments, arguments? = .ok arguments → op.ReadsAll (call arguments) s) →
    ((∃ summary, streamed.outcome = .ok summary) ↔
      ∃ arguments, arguments? = .ok arguments ∧ (call arguments).Exits s 0 ∧
        ∃ summary, Event.summary summary ∈ op.messages ((call arguments).texts s))

/-- How a streaming operation goes if all its calls are named by their operation. -/
lemma goes_stream (hop : op.CountIsField) {arguments? : Except Failure (List Value)}
    {call : List Value → Call} (hnamed : ∀ arguments, (call arguments).Named)
    {started : List Value → Notice} {streamed : Streamed P S}
    (hstreamed : streamed = match arguments? with
      | .error failure => ⟨.error failure, [], s⟩
      | .ok arguments =>
        stream op sink takesOutput (call arguments) (started arguments) completed s) :
    Goes op arguments? call s streamed := by
  subst hstreamed
  rcases arguments? with failure | arguments
  · refine ⟨fun other h => ?_, fun arguments h => (nomatch h), fun arguments h => (nomatch h),
      fun _ => iff_of_false ?_ ?_⟩
    · cases h
      rfl
    · rintro ⟨summary, h⟩
      cases h
    · rintro ⟨arguments, h, -⟩
      cases h
  · refine ⟨fun failure h => (nomatch h), fun other h => ?_, fun other h hreads => ?_,
      fun hreads => ?_⟩
    · cases h
      exact started_stream (hnamed arguments)
    · cases h
      exact fun outcome => stream_comes (hnamed arguments) hreads hop
    · have hcomes (summary : S) : (stream op sink takesOutput (call arguments) (started arguments)
          completed s).outcome = .ok summary ↔ Comes op (call arguments) s (.ok summary) :=
        stream_comes (hnamed arguments) (hreads arguments rfl) hop
      simp only [hcomes]
      constructor
      · rintro ⟨summary, hsummary⟩
        cases hsummary with
        | summary hexits hfirst =>
          exact ⟨arguments, rfl, hexits, exists_firstSummary.1 ⟨_, hfirst⟩⟩
      · rintro ⟨other, h, hexits, hsome⟩
        cases h
        obtain ⟨first, hfirst⟩ := exists_firstSummary.2 hsome
        exact ⟨_, .summary hexits hfirst⟩

variable (r : Repository) (deadline : Value)

/-- The call that backs up what some arguments say. -/
def backupCall (arguments : List Value) : Call :=
  r.call "backup" (.str "--json" :: arguments) deadline

/-- The call that restores a snapshot as some arguments say. -/
def restoreCall (snapshotId : String) (arguments : List Value) : Call :=
  r.call "restore" (.str "--json" :: .str snapshotId :: arguments) deadline

lemma named_call {subcommand : String} (h : subcommand ≠ "") (arguments : List Value) :
    (r.call subcommand arguments deadline).Named where
  command := ⟨_, _, rfl⟩
  operation := h

lemma backupFromSteps_eq_error {options : List Step} (h : Step.AllOffered options)
    {failure : Failure} : Options.backupFromSteps options = .error failure ↔
      Step.addedByAll "paths" options = [] ∧ failure = .noBackupPaths := by
  obtain ⟨fields, -, heq⟩ := Options.backupFromSteps_eq h
  rw [heq]
  split
  case isTrue hnone => simp [hnone, eq_comm]
  case isFalse hsome => simp [hsome]

lemma restoreArguments_eq_error {snapshotId target : String} {options : List Step}
    (h : Step.AllOffered options) {failure : Failure} :
    restoreArguments snapshotId target options = .error failure ↔
      Text.blank snapshotId = true ∧ failure = .missingSnapshotId ∨
      Text.blank snapshotId = false ∧ Text.blank target = true ∧
        failure = .missingRestoreTarget := by
  rw [restoreArguments, requireSnapshotId, Options.restoreFromSteps_eq target h]
  cases Text.blank snapshotId <;> cases Text.blank target <;> simp [eq_comm]

/-- **Backups and restores come to one thing each, and return a summary only when their process has
succeeded.**  They are refused for their options and for nothing else, in a fixed order, and then no
process is started. -/
theorem backup_and_restore_come (takesOutput : Bool) (s : Session) :
    (∀ sink options, Step.AllOffered options →
      (∀ failure, Options.backupFromSteps options = .error failure ↔
        Step.addedByAll "paths" options = [] ∧ failure = .noBackupPaths) ∧
      Goes .backup (Options.backupFromSteps options) (r.backupCall deadline) s
        (r.backup sink options takesOutput deadline s)) ∧
    ∀ snapshotId target sink options, Step.AllOffered options →
      (∀ failure, restoreArguments snapshotId target options = .error failure ↔
        Text.blank snapshotId = true ∧ failure = .missingSnapshotId ∨
        Text.blank snapshotId = false ∧ Text.blank target = true ∧
          failure = .missingRestoreTarget) ∧
      Goes .restore (restoreArguments snapshotId target options)
        (r.restoreCall deadline snapshotId) s
        (r.restore snapshotId target sink options takesOutput deadline s) := by
  refine ⟨fun sink options h => ⟨fun failure => backupFromSteps_eq_error h, ?_⟩,
    fun snapshotId target sink options h => ⟨fun failure => restoreArguments_eq_error h, ?_⟩⟩
  · exact goes_stream Operation.countIsField_backup
      (fun arguments => named_call r deadline (by decide) _) rfl
  · exact goes_stream Operation.countIsField_restore
      (fun arguments => named_call r deadline (by decide) _) rfl

/-- A repository in a directory, without flags and without a label. -/
def plain : Repository where
  description := ⟨.str "/srv/backup", .str "secret", [], .str "restic", [], none, .str ""⟩
  shown := "/srv/backup"

/-- A summary does not make up for a status other than zero. -/
theorem backup_and_restore_come_status :
    let line := "\x7b\"message_type\": \"summary\", \"files_new\": 3\x7d"
    let script : Script := ⟨[.write .stdout line.toUTF8.toList], 3, false, false, false⟩
    let s := Session.begin [] "run" [.runs script]
    let options := [Step.backupPaths [.str "/data"]]
    Step.AllOffered options ∧
      Operation.backup.ReadsAll (plain.backupCall .null [.str "/data"]) s ∧
      (plain.backup none options false .null s).outcome =
        .error (.engineFailed "backup" (.int 3) (Value.texts []) noDiagnostics "run") := by
  intro line script s options
  let c := plain.backupCall .null [.str "/data"]
  have hfits : Step.AllOffered options := by
    simp [options, Step.AllOffered, Step.backupPaths, Step.appendTexts, Step.Offered,
      Step.listFields]
  have hheard : c.heard s = [(.stdout, line)] := by decide +kernel
  have hreads : Operation.backup.ReadsAll c s := by
    intro heard hmem
    rw [hheard, List.mem_singleton] at hmem
    subst hmem
    have hsome : (Operation.backup.eventOfLine? line).toOption.isSome = true := by decide +kernel
    obtain ⟨event, hevent⟩ := Option.isSome_iff_exists.1 hsome
    exact ⟨event, toOption_eq_some.1 hevent⟩
  have hout : RunsOut none script.actions := cause_timelineWithin.1 rfl
  have hstart : s.nextStart = .runs script := rfl
  have hexits : c.Exits s 3 := .intro hstart rfl hout
  have hunlocked : showsLock (c.diagnostics s) = false := by
    rw [Call.diagnostics, hheard]
    decide
  obtain ⟨-, hgoes⟩ := (backup_and_restore_come plain .null false s).1 none options hfits
  refine ⟨hfits, hreads, (hgoes.comes [.str "/data"] rfl hreads _).2 (.failed ?_)⟩
  have hends := Call.Ends.failed hexits (by decide) hunlocked
  rwa [Call.diagnostics, hheard] at hends

/-- A caller who gives up twice gets no failure that says so, when the process ignores the request
to terminate. -/
theorem backup_second_cancel : ¬ ∀ (r : Repository) (options : List Step) (arguments : List Value)
    (script : Script), Options.backupFromSteps options = .ok arguments →
    (timelineWithin none script.actions).cause = some .cancelled →
    ∃ operation command invocation,
      (r.backup none options false .null (Session.begin [] "run" [.runs script])).outcome =
        .error (.callerCancelled operation command invocation) := by
  intro h
  let script : Script := ⟨[.cancel, .cancel, .hang], 0, true, false, false⟩
  obtain ⟨operation, command, invocation, hcancelled⟩ :=
    h plain [Step.backupPaths [.str "/data"]] [.str "/data"] script rfl rfl
  have houtcome : (plain.backup none [Step.backupPaths [.str "/data"]] false .null
      (Session.begin [] "run" [.runs script])).outcome = .error .interrupted := rfl
  rw [houtcome] at hcancelled
  cases hcancelled

end Repository

end BackupSteward
