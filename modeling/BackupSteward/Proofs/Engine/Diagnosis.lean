import BackupSteward.Proofs.Engine.Reading
import BackupSteward.Proofs.Text.Phrases
import BackupSteward.Repository.Basic
import Mathlib.Data.List.DropRight

/-!
# What is said of an engine that failed

An engine that ends with a status other than zero has failed, and what it said on its diagnostic
pipe tells why.  Only the last lines of that are kept, so that a long run needs no more memory than
a short one.  The file says which lines these are, and what their report makes of them.
-/

namespace BackupSteward.Engine

variable {σ : Type}

/-! ### The lines that are kept -/

/-- The diagnostic lines among some lines; an empty line is no diagnostic. -/
def diagnosticsAmong (lines : List (Pipe × String)) : List String :=
  (textsFrom .stderr lines).filter (· ≠ "")

lemma diagnosticsAmong_cons_stderr {text : String} (h : text ≠ "") (lines : List (Pipe × String)) :
    diagnosticsAmong ((.stderr, text) :: lines) = text :: diagnosticsAmong lines := by
  simp [diagnosticsAmong, textsFrom, h]

lemma diagnosticsAmong_cons_other {line : Pipe × String} (h : line.1 = .stderr → line.2 = "")
    (lines : List (Pipe × String)) :
    diagnosticsAmong (line :: lines) = diagnosticsAmong lines := by
  by_cases hpipe : line.1 = .stderr
  · simp [diagnosticsAmong, textsFrom, hpipe, h hpipe]
  · simp [diagnosticsAmong, textsFrom, hpipe]

/-- The last of some items and one more: what was no longer kept before is not missed. -/
lemma rtake_rtake_concat {α : Type} (n : Nat) (items : List α) (item : α) :
    (items.rtake n ++ [item]).rtake n = (items ++ [item]).rtake n := by
  cases n with
  | zero => simp
  | succ n =>
    rw [List.rtake_concat_succ, List.rtake_concat_succ, List.rtake, List.rtake, List.rtake,
      List.length_drop, List.drop_drop]
    congr 2
    omega

lemma remember_eq {text : String} (h : text ≠ "") (lines : List String) :
    remember lines text = (lines ++ [text]).rtake diagnosticsKept := if_neg h

/-- Of the diagnostic lines the last are kept. -/
lemma keptBehind_eq (lines : List (Pipe × String)) (before : List String) :
    keptBehind lines (before.rtake diagnosticsKept) =
      (before ++ diagnosticsAmong lines).rtake diagnosticsKept := by
  induction lines generalizing before with
  | nil => simp [keptBehind, diagnosticsAmong, textsFrom]
  | cons line lines ih =>
    obtain ⟨pipe, text⟩ := line
    by_cases hdiagnostic : pipe = .stderr ∧ text ≠ ""
    · obtain ⟨rfl, htext⟩ := hdiagnostic
      rw [diagnosticsAmong_cons_stderr htext, keptBehind, List.foldl_cons, if_pos rfl,
        remember_eq htext, rtake_rtake_concat, ← keptBehind, ih, List.append_assoc,
        List.singleton_append]
    · have hother : pipe = .stderr → text = "" := fun hpipe =>
        not_not.1 fun htext => hdiagnostic ⟨hpipe, htext⟩
      rw [diagnosticsAmong_cons_other hother, ← ih, keptBehind, List.foldl_cons]
      by_cases hpipe : pipe = .stderr
      · rw [if_pos hpipe, remember, if_pos (hother hpipe)]
        rfl
      · rw [if_neg hpipe]
        rfl

namespace Request

variable {r : Request} {handler : Handler σ} {state : σ} {start : Start}

/-- A process that ended by itself was given a handler that took all its lines, and of the
diagnostic ones among them the last are kept. -/
lemma diagnostics_of_outcome {finished : Finished}
    (h : (r.run start handler state).outcome = .ok finished) :
    finished.diagnostics =
      (diagnosticsAmong (r.given handler state start)).rtake diagnosticsKept := by
  obtain ⟨htaken, hkept⟩ := taken_of_outcome h
  rw [given_of_taken htaken, hkept]
  exact keptBehind_eq _ []

end Request

/-! ### The failure -/

/-- A line tells that another process holds the lock, whatever the case of its letters. -/
def TellsOfLock (line : String) : Prop :=
  ∃ marker ∈ lockMarkers, marker.toList <:+: line.toList.flatMap Text.lowered

/-- Lines show a lock exactly if one of them tells of it. -/
lemma showsLock_iff (lines : List String) :
    showsLock lines = true ↔ ∃ line ∈ lines, TellsOfLock line := by
  have hmarkers : ∀ marker ∈ lockMarkers, '\n' ∉ marker.toList ∧ marker.toList ≠ [] := by decide
  rw [showsLock, List.any_eq_true]
  constructor
  · rintro ⟨marker, hmarker, hmentions⟩
    obtain ⟨hline, hne⟩ := hmarkers marker hmarker
    obtain ⟨line, hmem, hmentions⟩ := (Text.mentions_joined_iff hline hne lines).1 hmentions
    exact ⟨line, hmem, marker, hmarker, Text.mentions_iff.1 hmentions⟩
  · rintro ⟨line, hmem, marker, hmarker, hinfix⟩
    obtain ⟨hline, hne⟩ := hmarkers marker hmarker
    exact ⟨marker, hmarker,
      (Text.mentions_joined_iff hline hne lines).2 ⟨line, hmem, Text.mentions_iff.2 hinfix⟩⟩

/-- What is known of an engine that ended by itself, by the lines that were given to its handler. -/
structure Diagnosed (given : List (Pipe × String)) (finished : Finished)
    (outcome : Except Failure Unit) : Prop where
  /-- Of the diagnostic lines the last are kept. -/
  kept : finished.diagnostics = (diagnosticsAmong given).rtake diagnosticsKept
  /-- A status other than zero is a failure, and zero is none. -/
  fails : (∃ failure, outcome = .error failure) ↔ finished.exitCode ≠ 0
  /-- The failure carries the status and the lines, and it is a lock if one of them tells of it. -/
  report (failure : Failure) : outcome = .error failure → ∃ report : Report,
    failure.report? = some report ∧ report.exitCode = .ok (.int finished.exitCode) ∧
      report.diagnostics = .ok (finished.diagnostics.map .str) ∧
      (report.kind = .repositoryLocked ∧ (∃ line ∈ finished.diagnostics, TellsOfLock line) ∨
        report.kind = .engine ∧ ¬ ∃ line ∈ finished.diagnostics, TellsOfLock line)

lemma Finished.report_of_check {finished : Finished} {binary operation invocation : String}
    {arguments : List String} {failure : Failure}
    (h : finished.check (binary :: operation :: arguments) invocation = .error failure) :
    ∃ report : Report, failure.report? = some report ∧
      report.exitCode = .ok (.int finished.exitCode) ∧
      report.diagnostics = .ok (finished.diagnostics.map .str) ∧
      (report.kind = .repositoryLocked ∧ (∃ line ∈ finished.diagnostics, TellsOfLock line) ∨
        report.kind = .engine ∧ ¬ ∃ line ∈ finished.diagnostics, TellsOfLock line) := by
  by_cases hcode : finished.exitCode = 0
  · cases ((Finished.check_eq finished _ invocation).1 hcode).symm.trans h
  rw [Finished.check_of_failed hcode] at h
  rw [← showsLock_iff]
  cases hlock : showsLock finished.diagnostics <;> rw [hlock] at h <;> cases h
  · exact ⟨_, rfl, rfl, rfl, .inr ⟨rfl, by simp⟩⟩
  · exact ⟨_, rfl, rfl, rfl, .inl ⟨rfl, rfl⟩⟩

/-- **What the engine said last tells why it failed.** -/
theorem failures_diagnosed (r : Repository) (subcommand : String) (arguments : List Value)
    (deadline : Value) (s : Session) (handler : Handler σ) (state : σ) {finished : Finished}
    (hdone : (((r.call subcommand arguments deadline).request s).run s.nextStart handler
      state).outcome = .ok finished) :
    Diagnosed (((r.call subcommand arguments deadline).request s).given handler state s.nextStart)
      finished ((r.call subcommand arguments deadline).run handler state s).1 := by
  have houtcome : ((r.call subcommand arguments deadline).run handler state s).1 =
      finished.check (r.call subcommand arguments deadline).command s.invocation := by
    rw [Call.run, hdone]
  rw [houtcome]
  refine ⟨Request.diagnostics_of_outcome hdone, ?_, fun failure h => Finished.report_of_check h⟩
  obtain ⟨hzero, hother⟩ := finished.check_eq (r.call subcommand arguments deadline).command
    s.invocation
  refine ⟨?_, hother⟩
  rintro ⟨failure, hfailure⟩ hcode
  cases (hzero hcode).symm.trans hfailure

/-- The line that tells of a lock has been followed by so many others that it is no longer kept; a
blank line does not count, and neither does one on the other pipe. -/
theorem failures_diagnosed_lock_dropped :
    let repository : Repository :=
      ⟨⟨.str "/srv/backup", .str "secret", [], .str "restic", [], none, .str ""⟩, "/srv/backup"⟩
    let errors := "Unable to create LOCK\n\n".toUTF8.toList ++
      (List.replicate 50 "wait\r\n".toUTF8.toList).flatten
    let script : Script :=
      ⟨[.write .stderr errors, .write .stdout "Unable to create LOCK".toUTF8.toList], 3,
        false, false, false⟩
    let s := Session.begin [] "run" [.runs script]
    let call := repository.call "unlock" [] .null
    ((call.request s).run s.nextStart Handler.silent ()).outcome =
        .ok ⟨3, List.replicate 50 "wait"⟩ ∧
      Diagnosed ((call.request s).given Handler.silent () s.nextStart)
        ⟨3, List.replicate 50 "wait"⟩ (call.run Handler.silent () s).1 := by
  intro repository errors script s call
  have hdone : ((call.request s).run s.nextStart Handler.silent ()).outcome =
      .ok ⟨3, List.replicate 50 "wait"⟩ := by
    rw [← toOption_eq_some]
    decide +kernel
  exact ⟨hdone, failures_diagnosed repository "unlock" [] .null s Handler.silent () hdone⟩

end BackupSteward.Engine
