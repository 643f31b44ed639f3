import BackupSteward.Proofs.Repository.Events
import Mathlib.Data.List.TakeWhile

/-!
# What a sink is given behind the summary

The summary of a backup or a restore is passed on as soon as it is read, and the engine may go on
reporting: its two pipes race, so that the report of a failed item can be read behind the summary
that was printed after it.  The file tells the events that a sink is given on either side of the
summary, and from this when the summary is the last one.
-/

namespace BackupSteward

open BackupSteward.Engine

variable {P S : Type}

/-! ### The messages on either side of the first summary -/

/-- The messages in front of the first summary. -/
def beforeSummary (messages : List (Event P S)) : List (Event P S) :=
  messages.takeWhile (!·.isSummary)

/-- The messages behind the first summary. -/
def behindSummary (messages : List (Event P S)) : List (Event P S) :=
  (messages.dropWhile (!·.isSummary)).drop 1

/-- Some events are of other kinds but for the last one, which is a summary. -/
def EndsInSummary (events : List (Event P S)) : Prop :=
  ∃ before summary, events = before ++ [.summary summary] ∧
    ∀ event ∈ before, event.isSummary = false

lemma beforeSummary_cons {event : Event P S} (h : event.isSummary = false)
    (messages : List (Event P S)) :
    beforeSummary (event :: messages) = event :: beforeSummary messages := by
  rw [beforeSummary, List.takeWhile_cons_of_pos (by rw [h]; rfl), beforeSummary]

lemma behindSummary_cons {event : Event P S} (h : event.isSummary = false)
    (messages : List (Event P S)) :
    behindSummary (event :: messages) = behindSummary messages := by
  rw [behindSummary, List.dropWhile_cons_of_pos (by rw [h]; rfl), behindSummary]

/-- A sink is told all messages in front of the first summary, the summary with the count of the
items that had failed by then, and the messages behind it but for further summaries. -/
lemma announced_around (recount : S → Nat → S) {messages : List (Event P S)} {first : S}
    (h : messages.findSome? Event.summary? = some first) (failed : Nat) :
    announced recount failed messages = beforeSummary messages ++
      .summary (recount first (failed + (beforeSummary messages).countP Event.isError)) ::
        (behindSummary messages).filter (!·.isSummary) := by
  induction messages generalizing failed with
  | nil => cases h
  | cons event messages ih =>
    cases event with
    | progress p =>
      have hrest := ih h failed
      rw [announced, hrest, beforeSummary_cons rfl, behindSummary_cons rfl,
        List.countP_cons_of_neg Bool.false_ne_true, List.cons_append]
    | itemError e =>
      have hrest := ih h (failed + 1)
      rw [announced, hrest, beforeSummary_cons rfl, behindSummary_cons rfl,
        List.countP_cons_of_pos rfl, List.cons_append, Nat.add_assoc, Nat.add_comm 1]
    | summary s =>
      cases h
      rfl

/-- Without a summary all messages are told as they are. -/
lemma announced_of_none (recount : S → Nat → S) {messages : List (Event P S)}
    (h : ∀ message ∈ messages, message.isSummary = false) (failed : Nat) :
    announced recount failed messages = messages := by
  induction messages generalizing failed with
  | nil => rfl
  | cons event messages ih =>
    obtain ⟨hevent, hrest⟩ := List.forall_mem_cons.1 h
    cases event with
    | progress p => rw [announced, ih hrest]
    | itemError e => rw [announced, ih hrest]
    | summary s => cases hevent

/-- Events that go on behind a summary without another one end in it only if they do not go on. -/
lemma endsInSummary_iff {before late : List (Event P S)} (summary : S)
    (hbefore : ∀ event ∈ before, event.isSummary = false)
    (hlate : ∀ event ∈ late, event.isSummary = false) :
    EndsInSummary (before ++ .summary summary :: late) ↔ late = [] := by
  constructor
  · rintro ⟨front, last, heq, -⟩
    rcases List.eq_nil_or_concat late with hnil | ⟨rest, event, rfl⟩
    · exact hnil
    -- the last event would be a summary that is not the first one
    · have hsplit : (before ++ .summary summary :: rest) ++ [event] = front ++ [.summary last] := by
        simpa using heq
      obtain ⟨-, hevent⟩ := List.append_inj' hsplit rfl
      cases hevent
      cases hlate (.summary last) (by simp)
  · rintro rfl
    exact ⟨before, summary, rfl, hbefore⟩

/-! ### What a sink is given -/

/-- What the sink of an operation has been given around the summary, when the lines of its process
were these.  `recount` puts a count of failed items into a summary. -/
structure GivenAround (op : Operation P S) (recount : S → Nat → S) (lines : List String)
    (delivered : List (Event P S)) : Prop where
  /-- There is one summary, with all other messages on the side on which they were read. -/
  around : ∃ first, op.firstSummary? lines = some first ∧
    delivered = beforeSummary (op.messages lines) ++
      .summary (recount first ((beforeSummary (op.messages lines)).countP Event.isError)) ::
        (behindSummary (op.messages lines)).filter (!·.isSummary)
  /-- The summary is the last event exactly if nothing but further summaries was read behind it. -/
  last_iff : EndsInSummary delivered ↔
    ∀ message ∈ behindSummary (op.messages lines), message.isSummary = true

/-- Where the messages are delivered, they are delivered around the summary. -/
lemma Delivers.givenAround {op : Operation P S} {recount : S → Nat → S} {lines : List String}
    {delivered : List (Event P S)} {summary : S} (h : Delivers op recount lines delivered summary) :
    GivenAround op recount lines delivered := by
  have hinOrder := h.inOrder
  cases hfirst : op.firstSummary? lines with
  | none =>
    -- then the summary that has been delivered is that of no message
    have hnone : ∀ message ∈ op.messages lines, message.isSummary = false := by
      intro message hmem
      have hsummary := List.findSome?_eq_none_iff.1 hfirst message hmem
      cases message with
      | progress p => rfl
      | itemError e => rfl
      | summary s => cases hsummary
    have honce := h.once
    rw [hinOrder, announced_of_none recount hnone 0] at honce
    rw [List.countP_eq_zero.2 fun message hmem => by simp [hnone message hmem]] at honce
    cases honce
  | some first =>
    rw [announced_around recount hfirst 0, Nat.zero_add] at hinOrder
    refine ⟨⟨first, hfirst, hinOrder⟩, ?_⟩
    have hbefore : ∀ event ∈ beforeSummary (op.messages lines), event.isSummary = false := by
      intro event hmem
      simpa using List.mem_takeWhile_imp hmem
    rw [hinOrder, endsInSummary_iff _ hbefore (by simp), List.filter_eq_nil_iff]
    simp

namespace Repository

variable {r : Repository} {takesOutput : Bool} {deadline : Value} {s : Session}

/-- A backup that returns a summary has run the engine. -/
lemma exists_stream_of_backup {sink : Option (Sink BackupProgress BackupSummary)}
    {options : List Step} {summary : BackupSummary}
    (h : (r.backup sink options takesOutput deadline s).outcome = .ok summary) :
    ∃ arguments started completed, Options.backupFromSteps options = .ok arguments ∧
      r.backup sink options takesOutput deadline s =
        stream .backup sink takesOutput (r.backupCall deadline arguments) started completed s := by
  unfold backup at h ⊢
  cases harguments : Options.backupFromSteps options with
  | error failure =>
    rw [harguments] at h
    cases h
  | ok arguments => exact ⟨arguments, _, _, rfl, rfl⟩

/-- A restore that returns a summary has run the engine. -/
lemma exists_stream_of_restore {snapshotId target : String}
    {sink : Option (Sink RestoreProgress RestoreSummary)} {options : List Step}
    {summary : RestoreSummary}
    (h : (r.restore snapshotId target sink options takesOutput deadline s).outcome =
      .ok summary) :
    ∃ arguments started completed, restoreArguments snapshotId target options = .ok arguments ∧
      r.restore snapshotId target sink options takesOutput deadline s =
        stream .restore sink takesOutput (r.restoreCall deadline snapshotId arguments) started
          completed s := by
  unfold restore at h ⊢
  cases harguments : restoreArguments snapshotId target options with
  | error failure =>
    rw [harguments] at h
    cases h
  | ok arguments => exact ⟨arguments, _, _, rfl, rfl⟩

/-- **The events that the sink of a backup or a restore is given end in the summary exactly if the
engine reports no progress and no failed item behind it.**  What it reports there is delivered
behind the summary, and there is never a second one. -/
theorem delivered_end_in_summary_iff (r : Repository) (takesOutput : Bool) (deadline : Value)
    (s : Session) :
    (∀ sink options summary,
      (r.backup (some sink) options takesOutput deadline s).outcome = .ok summary →
      ∃ arguments, Options.backupFromSteps options = .ok arguments ∧
        GivenAround .backup (fun s n => { s with errorCount := n })
          ((r.backupCall deadline arguments).texts s)
          (r.backup (some sink) options takesOutput deadline s).delivered) ∧
    ∀ snapshotId target sink options summary,
      (r.restore snapshotId target (some sink) options takesOutput deadline s).outcome =
        .ok summary →
      ∃ arguments, restoreArguments snapshotId target options = .ok arguments ∧
        GivenAround .restore (fun s n => { s with errorCount := n })
          ((r.restoreCall deadline snapshotId arguments).texts s)
          (r.restore snapshotId target (some sink) options takesOutput deadline s).delivered := by
  refine ⟨fun sink options summary h => ?_, fun snapshotId target sink options summary h => ?_⟩
  · obtain ⟨arguments, started, completed, harguments, hstream⟩ := exists_stream_of_backup h
    rw [hstream] at h ⊢
    exact ⟨arguments, harguments, (delivers_stream Operation.countIsField_backup
      (named_call r deadline (by decide) _) h).givenAround⟩
  · obtain ⟨arguments, started, completed, harguments, hstream⟩ := exists_stream_of_restore h
    rw [hstream] at h ⊢
    exact ⟨arguments, harguments, (delivers_stream Operation.countIsField_restore
      (named_call r deadline (by decide) _) h).givenAround⟩

/-- An item fails before the summary; behind it there is another summary, which is dropped. -/
theorem delivered_end_in_summary_repeated :
    let line (pipe : Pipe) (text : String) : Action := .write pipe (text ++ "\n").toUTF8.toList
    let script : Script := ⟨[
      line .stdout "\x7b\"message_type\": \"status\"\x7d",
      line .stderr "\x7b\"message_type\": \"error\"\x7d",
      line .stdout "\x7b\"message_type\": \"summary\", \"files_new\": 3\x7d",
      line .stdout "\x7b\"message_type\": \"summary\", \"files_new\": 4\x7d"],
      0, false, false, false⟩
    let s := Session.begin [] "run" [.runs script]
    let sink : Sink BackupProgress BackupSummary := ⟨true, fun _ => some "full"⟩
    let streamed := plain.backup (some sink) [.backupPaths [.str "/data"]] false .null s
    streamed.delivered.map Event.isSummary = [false, false, true] ∧
      (∃ summary, streamed.outcome = .ok summary) ∧ EndsInSummary streamed.delivered := by
  intro line script s sink streamed
  have hevaluated : (streamed.outcome.toOption.isSome, streamed.delivered.map Event.isSummary) =
      (true, [false, false, true]) := by
    decide +kernel
  obtain ⟨hsome, hkinds⟩ := Prod.mk.inj hevaluated
  obtain ⟨summary, hsummary⟩ := Option.isSome_iff_exists.1 hsome
  have hok : streamed.outcome = .ok summary := toOption_eq_some.1 hsummary
  obtain ⟨arguments, harguments, haround⟩ :=
    (delivered_end_in_summary_iff plain false .null s).1 sink [.backupPaths [.str "/data"]]
      summary hok
  obtain rfl : [.str "/data"] = arguments := Except.ok.inj harguments
  have hbehind : ∀ message ∈ behindSummary (Operation.backup.messages
      ((plain.backupCall .null [.str "/data"]).texts s)), message.isSummary = true := by
    decide +kernel
  exact ⟨hkinds, ⟨summary, hok⟩, haround.last_iff.2 hbehind⟩

/-- An item whose failure is read behind the summary is told to the sink behind it. -/
theorem late_error_behind_summary : ¬ ∀ (r : Repository) (sink : Sink BackupProgress BackupSummary)
    (options : List Step) (s : Session) (summary : BackupSummary),
    (r.backup (some sink) options false .null s).outcome = .ok summary →
    EndsInSummary (r.backup (some sink) options false .null s).delivered := by
  intro h
  let line (pipe : Pipe) (text : String) : Action := .write pipe (text ++ "\n").toUTF8.toList
  let script : Script := ⟨[
    line .stdout "\x7b\"message_type\": \"summary\", \"files_new\": 3\x7d",
    line .stderr "\x7b\"message_type\": \"error\", \"item\": \"/x\"\x7d"], 0, false, false, false⟩
  let s := Session.begin [] "run" [.runs script]
  let sink : Sink BackupProgress BackupSummary := ⟨false, fun _ => none⟩
  let streamed := plain.backup (some sink) [.backupPaths [.str "/data"]] false .null s
  have hevaluated : (streamed.outcome.toOption.isSome, streamed.delivered.map Event.isSummary) =
      (true, [true, false]) := by
    decide +kernel
  obtain ⟨hsome, hkinds⟩ := Prod.mk.inj hevaluated
  obtain ⟨summary, hsummary⟩ := Option.isSome_iff_exists.1 hsome
  obtain ⟨before, last, hdelivered, -⟩ := h plain sink [.backupPaths [.str "/data"]] s summary
    (toOption_eq_some.1 hsummary)
  have hkinds' : streamed.delivered.map Event.isSummary =
      before.map Event.isSummary ++ [true] := by
    rw [hdelivered, List.map_append]
    rfl
  have hlast := congrArg List.getLast? (hkinds.symm.trans hkinds')
  rw [List.getLast?_concat] at hlast
  cases hlast

end Repository

end BackupSteward
