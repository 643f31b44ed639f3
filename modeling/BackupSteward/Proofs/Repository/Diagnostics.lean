import BackupSteward.Proofs.Engine.Reading
import BackupSteward.Proofs.Repository.Streaming
import Mathlib.Data.List.DropRight

/-!
# Which lines are written for the caller

A backup or a restore reads its events off the lines of its process, and writes the lines in plain
text for a caller who takes output.  A line is read to find out whether it holds a JSON object, but
whether it is written is told by its first character alone.  So a line that begins like an object
and is none, such as one that breaks off, is neither an event nor written.  The file shows that this
is the only way in which a line in plain text is lost, whatever becomes of the process.
-/

namespace BackupSteward

open BackupSteward.Engine

variable {P S : Type}

/-! ### Lines in plain text -/

/-- A line says something in plain text: it is not blank, and it holds no JSON object. -/
def isDiagnostic (line : String) : Bool :=
  match decodeLine line with
  | .ok (some _) => false
  | _ => !Text.blank line

/-- Lines as they are written, each with a line feed behind it. -/
def verbatim (lines : List String) : String := String.join (lines.map (· ++ "\n"))

lemma verbatim_append (front back : List String) :
    verbatim (front ++ back) = verbatim front ++ verbatim back := by
  rw [verbatim, List.map_append, String.join_append, verbatim, verbatim]

namespace Streaming

/-- A line is written for a caller who takes output. -/
def isWritten (line : String) : Bool := !looksLikeObject line && !Text.blank line

/-- An object begins with a brace. -/
lemma looksLikeObject_of_decodes {line : String} {fields : Fields}
    (h : decodeLine line = .ok (some fields)) : looksLikeObject line = true := by
  have hbrace : (Text.trim line.toList).head? = some '{' := by
    by_contra hne
    rw [decodeLine, if_neg hne] at h
    cases h
  -- what is trimmed away behind the text leaves its first character
  have hfront : Text.trim line.toList <+: Text.trimLeft line.toList :=
    List.rdropWhile_prefix Text.isBlank _
  obtain ⟨behind, hbehind⟩ := hfront
  obtain ⟨rest, hrest⟩ : ∃ rest, Text.trim line.toList = '{' :: rest := by
    cases htrim : Text.trim line.toList with
    | nil =>
      rw [htrim] at hbrace
      cases hbrace
    | cons c rest =>
      rw [htrim] at hbrace
      cases hbrace
      exact ⟨rest, rfl⟩
  rw [looksLikeObject, ← hbehind, hrest]
  rfl

/-- Only a line that holds an object makes a collector pass an event on. -/
lemma decodes_of_event {op : Operation P S} {c : Collector S} {line : String}
    {collected : Collected P S} {event : Event P S} (hfeed : c.feed op line = .ok collected)
    (hevent : collected.event = some event) : ∃ fields, decodeLine line = .ok (some fields) := by
  unfold Collector.feed Operation.eventOfLine? at hfeed
  rcases hline : decodeLine line with fault | _ | fields
  · rw [hline] at hfeed
    cases hfeed
  · rw [hline] at hfeed
    cases hfeed
    cases hevent
  · exact ⟨fields, rfl⟩

section

variable {op : Operation P S} (sink : Option (Sink P S))

lemma written_notify (st : Streaming P S) (event : Event P S) (notices : List Notice) :
    (st.notify op sink event notices).state.written = st.written := by
  unfold notify
  cases sink with
  | none => rfl
  | some sink =>
    dsimp only
    split <;> rfl

/-- A line that can be read is written or not, whatever the collector and the sink make of it. -/
lemma written_handler {line : String} (h : op.Reads line) (pipe : Pipe) (st : Streaming P S) :
    (handler op sink true pipe line st).state.written =
      st.written ++ verbatim ([line].filter isWritten) := by
  obtain ⟨event, hevent⟩ := h
  unfold handler
  cases hfeed : st.collector.feed op line with
  | error fault => cases (Collector.feed_eq_error.1 hfeed).symm.trans hevent
  | ok collected =>
    dsimp only
    cases hpassed : collected.event with
    | some event =>
      obtain ⟨fields, hfields⟩ := decodes_of_event hfeed hpassed
      have hobject := looksLikeObject_of_decodes hfields
      simp [written_notify, isWritten, hobject, verbatim]
    | none =>
      dsimp only
      split
      case isTrue hobject => simp [Reaction.done, isWritten, hobject, verbatim]
      case isFalse hplain =>
        cases hblank : Text.blank line <;>
          simp [Reaction.done, forward, isWritten, hplain, hblank, verbatim]

/-- Of lines that can be read, those are written that are not left out one by one, in their
order. -/
lemma written_through {lines : List (Pipe × String)} (h : ∀ line ∈ lines, op.Reads line.2)
    (st : Streaming P S) :
    ((handler op sink true).through lines st).1.written =
      st.written ++ verbatim ((lines.map (·.2)).filter isWritten) := by
  induction lines generalizing st with
  | nil => simp [Handler.through, verbatim]
  | cons line lines ih =>
    obtain ⟨pipe, text⟩ := line
    have hreads := h (pipe, text) List.mem_cons_self
    have hrest := ih fun line hline => h line (List.mem_cons_of_mem _ hline)
    have htext : (text :: lines.map (·.2)).filter isWritten =
        [text].filter isWritten ++ (lines.map (·.2)).filter isWritten := List.filter_append [text] _
    rw [Handler.through, (handler_of_reads sink true hreads pipe st).1, hrest,
      written_handler sink hreads, List.map_cons, htext, verbatim_append, String.append_assoc]

end

end Streaming

/-! ### What is lost -/

namespace Streaming

/-- What is written is in plain text, and the rest of that begins like an object. -/
lemma isWritten_eq (line : String) :
    isWritten line = (isDiagnostic line && !looksLikeObject line) := by
  unfold isWritten isDiagnostic
  split
  case h_1 fields hfields => simp [looksLikeObject_of_decodes hfields]
  case h_2 => exact Bool.and_comm _ _

/-- A line in plain text is lost if it begins like an object. -/
def isLost (line : String) : Bool := isDiagnostic line && looksLikeObject line

lemma isLost_eq_false_iff {line : String} : isLost line = false ↔
    (looksLikeObject line = true → ∃ fields, decodeLine line = .ok (some fields)) := by
  unfold isLost
  constructor
  · intro hkept hobject
    rw [hobject, Bool.and_true] at hkept
    -- a line that begins with a brace is not blank
    have hsome : Text.blank line = false := by
      cases hblank : Text.blank line with
      | false => rfl
      | true =>
        rw [looksLikeObject, Text.trimLeft_of_all hblank] at hobject
        cases hobject
    unfold isDiagnostic at hkept
    split at hkept
    case h_1 fields hfields => exact ⟨fields, hfields⟩
    case h_2 => simp [hsome] at hkept
  · intro hdecodes
    cases hobject : looksLikeObject line with
    | false => exact Bool.and_false _
    | true =>
      obtain ⟨fields, hfields⟩ := hdecodes hobject
      rw [isDiagnostic, hfields]
      rfl

lemma length_verbatim_cons (line : String) (lines : List String) :
    (verbatim (line :: lines)).length = line.length + 1 + (verbatim lines).length := by
  have hone : "\n".length = 1 := rfl
  simp [verbatim, String.length_append, hone]

/-- What is written falls short of the lines in plain text by at least one character for each that
is lost. -/
lemma length_written_add_lost (lines : List String) :
    (verbatim (lines.filter isWritten)).length + lines.countP isLost ≤
      (verbatim (lines.filter isDiagnostic)).length := by
  induction lines with
  | nil => simp [verbatim]
  | cons line lines ih =>
    have hwritten := isWritten_eq line
    have hlost : isLost line = (isDiagnostic line && looksLikeObject line) := rfl
    cases hdiagnostic : isDiagnostic line with
    | false =>
      rw [hdiagnostic, Bool.false_and] at hwritten hlost
      rwa [List.filter_cons, hwritten, List.filter_cons, hdiagnostic, List.countP_cons, hlost]
    | true =>
      rw [hdiagnostic, Bool.true_and] at hwritten hlost
      rw [List.filter_cons, List.filter_cons, hdiagnostic, List.countP_cons, hwritten, hlost]
      cases looksLikeObject line with
      | false =>
        show (verbatim (line :: _)).length + (lines.countP isLost + 0) ≤
          (verbatim (line :: _)).length
        rw [length_verbatim_cons, length_verbatim_cons]
        omega
      | true =>
        show (verbatim (lines.filter isWritten)).length + (lines.countP isLost + 1) ≤
          (verbatim (line :: _)).length
        rw [length_verbatim_cons]
        omega

/-- Everything in plain text is written exactly if no line begins like an object and is none. -/
lemma verbatim_isWritten_iff (lines : List String) :
    verbatim (lines.filter isWritten) = verbatim (lines.filter isDiagnostic) ↔
      ∀ line ∈ lines, looksLikeObject line = true →
        ∃ fields, decodeLine line = .ok (some fields) := by
  have hlost : lines.countP isLost = 0 ↔ ∀ line ∈ lines, looksLikeObject line = true →
      ∃ fields, decodeLine line = .ok (some fields) := by
    simp only [List.countP_eq_zero, Bool.not_eq_true, isLost_eq_false_iff]
  rw [← hlost]
  constructor
  · intro hsame
    have hshort := length_written_add_lost lines
    rw [hsame] at hshort
    omega
  · intro hnone
    congr 1
    refine List.filter_congr fun line hline => ?_
    have hkept := List.countP_eq_zero.1 hnone line hline
    unfold isLost at hkept
    rw [isWritten_eq]
    cases hdiagnostic : isDiagnostic line <;> simp_all

end Streaming

namespace Repository

variable {op : Operation P S} {sink : Option (Sink P S)} {c : Call} {started : Notice}
  {completed : S → Notice} {s : Session}

/-- What an operation writes is what its handler has written. -/
lemma written_stream {takesOutput : Bool} :
    (stream op sink takesOutput c started completed s).session.written = s.written ++
      (c.run (Streaming.handler op sink takesOutput) .start s).2.1.written := by
  have hbefore : (c.run (Streaming.handler op sink takesOutput) .start
      (s.note [started])).2.2.written = s.written := rfl
  have hstate : (c.run (Streaming.handler op sink takesOutput) .start (s.note [started])).2.1 =
      (c.run (Streaming.handler op sink takesOutput) .start s).2.1 := rfl
  rw [← hstate, ← hbefore]
  unfold stream
  rcases c.run (Streaming.handler op sink takesOutput) .start (s.note [started]) with
    ⟨failure | ⟨⟩, st, t⟩
  · rfl
  · dsimp only
    cases st.collector.requireSummary op <;> rfl

/-- What is written for the caller between two texts, of some lines. -/
structure Writes (lines : List String) (before after : String) : Prop where
  /-- Of the lines in plain text, those are written that do not begin like an object, in their
  order. -/
  exactly : after = before ++ verbatim (lines.filter Streaming.isWritten)
  /-- They are all written if and only if every line that begins like an object is one. -/
  whole_iff : after = before ++ verbatim (lines.filter isDiagnostic) ↔
    ∀ line ∈ lines, Streaming.looksLikeObject line = true →
      ∃ fields, decodeLine line = .ok (some fields)

lemma Writes.of_exactly {lines : List String} {before after : String}
    (h : after = before ++ verbatim (lines.filter Streaming.isWritten)) :
    Writes lines before after where
  exactly := h
  whole_iff := by
    rw [h, String.append_right_inj, Streaming.verbatim_isWritten_iff]

/-- The lines that are heard of the process of an operation: none if its options are refused. -/
def delivered (arguments? : Except Failure (List Value)) (call : List Value → Call) (s : Session) :
    List String :=
  match arguments? with
  | .error _ => []
  | .ok arguments => (call arguments).texts s

/-- What a streaming operation writes whose calls are all named by their operation. -/
lemma writes_stream {arguments? : Except Failure (List Value)} {call : List Value → Call}
    (hnamed : ∀ arguments, (call arguments).Named) {started : List Value → Notice}
    {streamed : Streamed P S} (hstreamed : streamed = match arguments? with
      | .error failure => ⟨.error failure, [], s⟩
      | .ok arguments => stream op sink true (call arguments) (started arguments) completed s)
    (hreads : ∀ line ∈ delivered arguments? call s, op.Reads line) :
    Writes (delivered arguments? call s) s.written streamed.session.written := by
  subst hstreamed
  apply Writes.of_exactly
  rcases arguments? with failure | arguments
  · exact (String.append_empty).symm
  · have hheard : ∀ line ∈ (call arguments).heard s, op.Reads line.2 :=
      fun line hline => hreads line.2 (List.mem_map_of_mem hline)
    dsimp only
    rw [written_stream, Call.state_run (hnamed arguments).command_ne_nil,
      Streaming.written_through sink hheard]
    exact congrArg (s.written ++ ·) String.empty_append

/-- **A backup or a restore writes the lines in plain text that do not begin like an object, in the
order of their delivery.**  These are all lines in plain text exactly if every line that begins like
an object is one. -/
theorem diagnostics_written_iff (r : Repository) (deadline : Value) (s : Session) :
    (∀ sink options,
      let lines := delivered (Options.backupFromSteps options) (r.backupCall deadline) s
      (∀ line ∈ lines, Operation.backup.Reads line) →
        Writes lines s.written (r.backup sink options true deadline s).session.written) ∧
    ∀ snapshotId target sink options,
      let lines := delivered (restoreArguments snapshotId target options)
        (r.restoreCall deadline snapshotId) s
      (∀ line ∈ lines, Operation.restore.Reads line) →
        Writes lines s.written
          (r.restore snapshotId target sink options true deadline s).session.written := by
  constructor
  · intro sink options lines hreads
    exact writes_stream (fun arguments => named_call r deadline (by decide) _) rfl hreads
  · intro snapshotId target sink options lines hreads
    exact writes_stream (fun arguments => named_call r deadline (by decide) _) rfl hreads

/-- The process has failed, but what it has said in plain text is written: neither a blank line nor
an object is. -/
theorem diagnostics_written_failed :
    let line (pipe : Pipe) (text : String) : Action := .write pipe (text ++ "\n").toUTF8.toList
    let script : Script := ⟨[line .stdout "scanning", line .stdout " ",
      line .stdout " \x7b\"message_type\": \"verbose_status\"\x7d", line .stderr "[1]"],
      3, false, false, false⟩
    let s := Session.begin [] "run" [.runs script]
    let options := [Step.backupPaths [.str "/data"]]
    let lines := delivered (Options.backupFromSteps options) (plain.backupCall .null) s
    (∀ line ∈ lines, Operation.backup.Reads line) ∧
      (plain.backup none options true .null s).session.written = "scanning\n[1]\n" ∧
      (plain.backup none options true .null s).session.written =
        s.written ++ verbatim (lines.filter isDiagnostic) := by
  intro line script s options lines
  have hlines :
      lines = ["scanning", " ", " \x7b\"message_type\": \"verbose_status\"\x7d", "[1]"] := by
    decide +kernel
  have hreads : ∀ line ∈ lines, Operation.backup.Reads line := by
    have hall : lines.all fun line => (Operation.backup.eventOfLine? line).toOption.isSome := by
      decide +kernel
    intro line hline
    obtain ⟨event, hevent⟩ := Option.isSome_iff_exists.1 (List.all_eq_true.1 hall line hline)
    exact ⟨event, toOption_eq_some.1 hevent⟩
  obtain ⟨hexactly, hwhole⟩ := (diagnostics_written_iff plain .null s).1 none options hreads
  refine ⟨hreads, ?_, hwhole.2 ?_⟩
  · have hall : s.written ++ verbatim (lines.filter Streaming.isWritten) = "scanning\n[1]\n" := by
      rw [hlines]
      decide +kernel
    exact hexactly.trans hall
  · have hobjects : lines.all fun line =>
        !Streaming.looksLikeObject line || (decodeLine line).toOption.join.isSome := by
      decide +kernel
    intro line hline hobject
    have hdecodes := List.all_eq_true.1 hobjects line hline
    rw [hobject, Bool.not_true, Bool.false_or] at hdecodes
    obtain ⟨fields, hfields⟩ := Option.isSome_iff_exists.1 hdecodes
    exact ⟨fields, toOption_eq_some.1 (Option.join_eq_some_iff.1 hfields)⟩

/-- A message that breaks off is neither an event nor written. -/
theorem diagnostics_brace_lost : ¬ ∀ (r : Repository) (options : List Step) (s : Session),
    (∀ line ∈ delivered (Options.backupFromSteps options) (r.backupCall .null) s,
      Operation.backup.Reads line) →
    (r.backup none options true .null s).session.written = s.written ++
      verbatim ((delivered (Options.backupFromSteps options) (r.backupCall .null) s).filter
        isDiagnostic) := by
  intro h
  let broken := "\x7b\"message_type\": \"error\", \"error\": \x7b\"mess"
  let script : Script := ⟨[.write .stderr broken.toUTF8.toList], 1, false, false, false⟩
  let s := Session.begin [] "run" [.runs script]
  let options := [Step.backupPaths [.str "/data"]]
  have hlines :
      delivered (Options.backupFromSteps options) (plain.backupCall .null) s = [broken] := by
    decide +kernel
  have hreads : Operation.backup.Reads broken := by
    have hsome : (Operation.backup.eventOfLine? broken).toOption.isSome = true := by decide +kernel
    obtain ⟨event, hevent⟩ := Option.isSome_iff_exists.1 hsome
    exact ⟨event, toOption_eq_some.1 hevent⟩
  have hclaimed := h plain options s
  rw [hlines] at hclaimed
  have hwritten : (plain.backup none options true .null s).session.written = "" := by decide +kernel
  rw [hwritten] at hclaimed
  exact absurd (hclaimed (List.forall_mem_singleton.2 hreads)) (by decide +kernel)

end Repository

end BackupSteward
