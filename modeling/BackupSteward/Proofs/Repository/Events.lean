import BackupSteward.Proofs.Engine.Given
import BackupSteward.Proofs.Repository.Streaming

/-!
# Which events a sink is given

A backup or a restore that returns a summary has read all lines of its process.  The file tells
which events its sink was given on the way: the messages among the lines, in the order of the lines,
but of the summaries only the first.  That one carries the count of the items that had failed by
then, the one that is returned the count of all that were reported to the sink.
-/

namespace BackupSteward

open BackupSteward.Engine

variable {P S : Type}

/-! ### What messages announce -/

/-- What a sink is told by some messages behind `failed` ones about failed items: the messages, but
of the summaries only the first, with the count of the items that have failed before. -/
def announced (recount : S → Nat → S) : (failed : Nat) → List (Event P S) → List (Event P S)
  | _, [] => []
  | failed, .progress p :: messages => .progress p :: announced recount failed messages
  | failed, .itemError e :: messages => .itemError e :: announced recount (failed + 1) messages
  | failed, .summary s :: messages =>
    .summary (recount s failed) :: messages.filter (!·.isSummary)

section

variable (recount : S → Nat → S) (failed : Nat) (messages : List (Event P S))

lemma countP_isError_filter :
    (messages.filter (!·.isSummary)).countP Event.isError = messages.countP Event.isError := by
  rw [List.countP_filter]
  congr 1
  funext event
  cases event <;> rfl

/-- Every failed item is told to the sink, those behind the summary included. -/
lemma countP_isError_announced :
    (announced recount failed messages).countP Event.isError = messages.countP Event.isError := by
  induction messages generalizing failed with
  | nil => rfl
  | cons event messages ih =>
    cases event with
    | progress p =>
      rw [announced, List.countP_cons_of_neg Bool.false_ne_true,
        List.countP_cons_of_neg Bool.false_ne_true, ih]
    | itemError e =>
      have hrest := ih (failed + 1)
      rw [announced, List.countP_cons_of_pos rfl, List.countP_cons_of_pos rfl, hrest]
    | summary s =>
      rw [announced, List.countP_cons_of_neg Bool.false_ne_true,
        List.countP_cons_of_neg Bool.false_ne_true, countP_isError_filter]

lemma not_mem_filter_isSummary (s : S) :
    Event.summary s ∉ messages.filter (!·.isSummary) := by
  simp [Event.isSummary]

variable {messages}

/-- A sink is told one summary if there is one, and it is the first but for its count. -/
lemma announced_of_first {first : S} (h : messages.findSome? Event.summary? = some first) :
    (announced recount failed messages).countP Event.isSummary = 1 ∧
      ∀ given, Event.summary given ∈ announced recount failed messages →
        ∃ n, given = recount first n := by
  induction messages generalizing failed with
  | nil => cases h
  | cons event messages ih =>
    cases event with
    | progress p =>
      obtain ⟨hone, hfirst⟩ := ih failed h
      exact ⟨by simpa [announced, Event.isSummary] using hone, by simpa [announced] using hfirst⟩
    | itemError e =>
      obtain ⟨hone, hfirst⟩ := ih (failed + 1) h
      exact ⟨by simpa [announced, Event.isSummary] using hone, by simpa [announced] using hfirst⟩
    | summary s =>
      cases h
      have hnone : (messages.filter (!·.isSummary)).countP Event.isSummary = 0 := by
        simp [List.countP_eq_zero]
      refine ⟨?_, fun given hgiven => ?_⟩
      · rw [announced, List.countP_cons_of_pos rfl, hnone]
      rcases List.mem_cons.1 hgiven with hgiven | hgiven
      · cases hgiven
        exact ⟨failed, rfl⟩
      · exact absurd hgiven (not_mem_filter_isSummary messages given)

end

lemma Operation.messages_cons {op : Operation P S} (line : String) (lines : List String) :
    op.messages (line :: lines) = (op.message? line).toList ++ op.messages lines := by
  unfold messages
  cases hmessage : op.message? line with
  | none => rw [List.filterMap_cons_none hmessage, Option.toList_none, List.nil_append]
  | some event => rw [List.filterMap_cons_some hmessage, Option.toList_some, List.singleton_append]

namespace Collector

variable {op : Operation P S}

/-- A collector passes on what the messages announce. -/
lemma passedOnAll_eq (lines : List String) (c : Collector S) :
    c.passedOnAll op lines = match c.summary with
      | none => announced op.withErrorCount c.errorCount (op.messages lines)
      | some _ => (op.messages lines).filter (!·.isSummary) := by
  induction lines generalizing c with
  | nil => cases c.summary <;> rfl
  | cons line lines ih =>
    rw [passedOnAll, ih, Operation.messages_cons]
    cases hmessage : op.message? line with
    | none =>
      obtain ⟨hnext, hpassed⟩ := next_of_noMessage (c := c) hmessage
      rw [hnext, hpassed]
      rfl
    | some event =>
      obtain ⟨hnext, hpassed⟩ := next_of_message (c := c) hmessage
      rw [hnext, hpassed, Option.toList_some, List.singleton_append]
      cases hsummary : c.summary with
      | none => cases event <;> simp [accept, hsummary, announced]
      | some summary => cases event <;> simp [accept, hsummary, Event.isSummary]

end Collector

/-! ### What a sink is given -/

namespace Streaming

variable {op : Operation P S} (sink : Sink P S) (takesOutput : Bool)

/-- A line that is taken can be read, and what it makes the collector pass on is given to the
sink. -/
lemma handler_of_taken {line : String} {st : Streaming P S} {pipe : Pipe}
    (h : (handler op (some sink) takesOutput pipe line st).failure = none) :
    op.Reads line ∧ (handler op (some sink) takesOutput pipe line st).state.delivered =
      (st.collector.passedOn op line).toList ++ st.delivered := by
  have hreads : op.Reads line := by
    rcases hevent : op.eventOfLine? line with fault | event
    · rw [handler, Collector.feed_eq_error.2 hevent] at h
      cases h
    · exact ⟨event, hevent⟩
  refine ⟨hreads, ?_⟩
  obtain ⟨event, hevent⟩ := hreads
  unfold handler Collector.passedOn
  cases hfeed : st.collector.feed op line with
  | error fault => cases (Collector.feed_eq_error.1 hfeed).symm.trans hevent
  | ok collected =>
    dsimp only
    cases collected.event with
    | some event =>
      dsimp only [notify]
      split <;> rfl
    | none =>
      dsimp only
      split <;> rfl

/-- What lines that are all taken make the collector pass on is given to the sink, in their
order. -/
lemma through_of_taken {lines : List (Pipe × String)} {st : Streaming P S}
    (h : ((handler op (some sink) takesOutput).through lines st).2 = none) :
    (∀ line ∈ lines, op.Reads line.2) ∧
      ((handler op (some sink) takesOutput).through lines st).1.delivered.reverse =
        st.delivered.reverse ++ st.collector.passedOnAll op (lines.map (·.2)) := by
  induction lines generalizing st with
  | nil => exact ⟨List.forall_mem_nil _, (List.append_nil _).symm⟩
  | cons line lines ih =>
    obtain ⟨pipe, text⟩ := line
    cases hfails : (handler op (some sink) takesOutput pipe text st).failure with
    | some failure =>
      rw [Handler.through, hfails] at h
      cases h
    | none =>
      obtain ⟨hreads, hdelivered⟩ := handler_of_taken sink takesOutput hfails
      have hcollector := (handler_of_reads (some sink) takesOutput hreads pipe st).2
      rw [Handler.through, hfails] at h ⊢
      obtain ⟨hrest, hmore⟩ := ih h
      refine ⟨List.forall_mem_cons.2 ⟨hreads, hrest⟩, ?_⟩
      rw [hmore, hdelivered, hcollector, List.map_cons, Collector.passedOnAll]
      cases st.collector.passedOn op text <;> simp

end Streaming

/-- What the sink of an operation has been given that returns a summary, when the lines of its
process were these.  `recount` puts a count of failed items into a summary. -/
structure Delivers (op : Operation P S) (recount : S → Nat → S) (lines : List String)
    (delivered : List (Event P S)) (summary : S) : Prop where
  /-- Each message is delivered once, in the order of the lines, but no second summary. -/
  inOrder : delivered = announced recount 0 (op.messages lines)
  once : delivered.countP Event.isSummary = 1
  /-- The summary that is delivered is the one that is returned, but for its count. -/
  same (given : S) : Event.summary given ∈ delivered →
    summary = recount given (op.errorCount summary)
  /-- What is returned counts all failed items that have been delivered. -/
  counted : op.errorCount summary = delivered.countP Event.isError

namespace Repository

variable {op : Operation P S} {sink : Sink P S} {takesOutput : Bool} {c : Call}
  {started : Notice} {completed : S → Notice} {s : Session}

/-- What has been given to the sink is told at the end, whatever the operation comes to. -/
lemma delivered_stream (sink : Option (Sink P S)) :
    (stream op sink takesOutput c started completed s).delivered =
      (c.run (Streaming.handler op sink takesOutput) .start s).2.1.delivered.reverse := by
  obtain ⟨t, hnote⟩ :=
    c.run_note (Streaming.handler op sink takesOutput) .start s [started]
  unfold stream
  rw [hnote]
  rcases (c.run (Streaming.handler op sink takesOutput) .start s).1 with failure | ⟨⟩
  · rfl
  · dsimp only
    cases (c.run (Streaming.handler op sink takesOutput) .start
      s).2.1.collector.requireSummary op <;> rfl

lemma delivers_stream (hop : op.CountIsField) (hnamed : c.Named) {summary : S}
    (h : (stream op (some sink) takesOutput c started completed s).outcome = .ok summary) :
    Delivers op op.withErrorCount (c.texts s)
      (stream op (some sink) takesOutput c started completed s).delivered summary := by
  rw [outcome_stream] at h
  rcases hok : (c.run (Streaming.handler op (some sink) takesOutput) .start s).1 with failure | ⟨⟩
  · rw [hok] at h
    cases h
  have htaken := Call.taken_of_ok hnamed.command_ne_nil hok
  have hstate := Call.state_run hnamed.command_ne_nil (Streaming.handler op (some sink) takesOutput)
    .start s
  obtain ⟨hreads, hdelivered⟩ := Streaming.through_of_taken sink takesOutput htaken
  have hcollector := (Streaming.through_of_reads (some sink) takesOutput hreads .start).2
  have hmessages : (stream op (some sink) takesOutput c started completed s).delivered =
      announced op.withErrorCount 0 (op.messages (c.texts s)) := by
    rw [delivered_stream, hstate, hdelivered]
    exact Collector.passedOnAll_eq (c.texts s) .start
  -- the summary is the first one, with the count of all failed items
  have hrequired := (Collector.accounts_of_countIsField hop (c.texts s)).required
  have hsummary : (Collector.after op (c.texts s)).requireSummary op = .ok summary := by
    rw [hok, hstate, hcollector] at h
    exact h
  rw [hsummary] at hrequired
  cases hfirst : op.firstSummary? (c.texts s) with
  | none =>
    rw [hfirst] at hrequired
    cases hrequired
  | some first =>
    rw [hfirst] at hrequired
    cases hrequired
    obtain ⟨honce, hgiven⟩ := announced_of_first op.withErrorCount 0 hfirst
    refine ⟨hmessages, hmessages ▸ honce, fun given hmem => ?_, ?_⟩
    · rw [hmessages] at hmem
      obtain ⟨n, rfl⟩ := hgiven given hmem
      rw [hop.errorCount_with, hop.with_with]
    · rw [hmessages, hop.errorCount_with, countP_isError_announced]
      rfl

/-- **The sink of a backup or a restore that returns a summary has been given each message once, in
the order of the lines, and one summary, which is the one that is returned but for its count; that
counts all failed items the sink was told of.** -/
theorem backup_and_restore_deliver (r : Repository) (takesOutput : Bool) (deadline : Value)
    (s : Session) :
    (∀ sink options summary,
      (r.backup (some sink) options takesOutput deadline s).outcome = .ok summary →
      ∃ arguments, Options.backupFromSteps options = .ok arguments ∧
        Delivers .backup (fun s n => { s with errorCount := n })
          ((r.backupCall deadline arguments).texts s)
          (r.backup (some sink) options takesOutput deadline s).delivered summary) ∧
    ∀ snapshotId target sink options summary,
      (r.restore snapshotId target (some sink) options takesOutput deadline s).outcome =
        .ok summary →
      ∃ arguments, restoreArguments snapshotId target options = .ok arguments ∧
        Delivers .restore (fun s n => { s with errorCount := n })
          ((r.restoreCall deadline snapshotId arguments).texts s)
          (r.restore snapshotId target (some sink) options takesOutput deadline s).delivered
          summary := by
  refine ⟨fun sink options summary h => ?_, fun snapshotId target sink options summary h => ?_⟩
  · unfold backup at h ⊢
    cases harguments : Options.backupFromSteps options with
    | error failure =>
      rw [harguments] at h
      cases h
    | ok arguments =>
      rw [harguments] at h
      exact ⟨arguments, rfl, delivers_stream Operation.countIsField_backup
        (named_call r deadline (by decide) _) h⟩
  · unfold restore at h ⊢
    cases harguments : restoreArguments snapshotId target options with
    | error failure =>
      rw [harguments] at h
      cases h
    | ok arguments =>
      rw [harguments] at h
      exact ⟨arguments, rfl, delivers_stream Operation.countIsField_restore
        (named_call r deadline (by decide) _) h⟩

/-- The sink pauses, and fails on each event.  One item fails before the summary and one behind it,
where there is another summary as well. -/
theorem backup_and_restore_deliver_late_error :
    let line (pipe : Pipe) (text : String) : Action := .write pipe (text ++ "\n").toUTF8.toList
    let script : Script := ⟨[
      line .stderr "\x7b\"message_type\": \"error\"\x7d",
      line .stdout "\x7b\"message_type\": \"summary\", \"files_new\": 3\x7d",
      line .stdout "\x7b\"message_type\": \"summary\", \"files_new\": 4\x7d",
      line .stderr "\x7b\"message_type\": \"error\"\x7d"], 0, false, false, false⟩
    let sink : Sink BackupProgress BackupSummary := ⟨true, fun _ => some "full"⟩
    let streamed := plain.backup (some sink) [.backupPaths [.str "/data"]] false .null
      (Session.begin [] "run" [.runs script])
    ∃ summary, streamed.outcome = .ok summary ∧ summary.filesNew = 3 ∧ summary.errorCount = 2 ∧
      streamed.delivered.map Event.isError = [true, false, true] ∧
      ∃ lines, Delivers .backup (fun s n => { s with errorCount := n }) lines streamed.delivered
        summary := by
  intro line script sink streamed
  have hevaluated : (streamed.outcome.toOption.map fun summary =>
        (summary.filesNew, summary.errorCount), streamed.delivered.map Event.isError) =
      (some (3, 2), [true, false, true]) := by
    decide +kernel
  obtain ⟨hsome, hkinds⟩ := Prod.mk.inj hevaluated
  obtain ⟨summary, hsummary, hfields⟩ := Option.map_eq_some_iff.1 hsome
  obtain ⟨hnew, herrors⟩ := Prod.mk.inj hfields
  have hok : streamed.outcome = .ok summary := toOption_eq_some.1 hsummary
  obtain ⟨arguments, -, hdelivers⟩ := (backup_and_restore_deliver plain false .null
    (Session.begin [] "run" [.runs script])).1 sink [.backupPaths [.str "/data"]] summary hok
  exact ⟨summary, hok, hnew, herrors, hkinds, _, hdelivers⟩

end Repository

end BackupSteward
