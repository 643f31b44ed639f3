import BackupSteward.Proofs.Repository.Diagnostics
import BackupSteward.Proofs.Repository.Forget

/-!
# What forgetting and pruning write

Forgetting runs two processes and pruning one.  The lines of the last of them are written for a
caller who takes output, whatever becomes of the process, and nothing of what the listing prints is.
-/

namespace BackupSteward

open BackupSteward.Engine

namespace Engine

/-- The text of some lines that are forwarded: those that are not blank, each with a line feed. -/
def forwardedText (lines : List (Pipe × String)) : String :=
  verbatim ((lines.map (·.2)).filter fun line => !Text.blank line)

/-- The lines that are delivered of the process of a call whose lines are forwarded, until it ends
or is stopped. -/
def Call.forwarded (c : Call) (s : Session) : List (Pipe × String) :=
  (c.request s).given (Handler.forwarding true) "" s.nextStart

lemma forwardedText_cons (pipe : Pipe) (line : String) (lines : List (Pipe × String)) :
    forwardedText ((pipe, line) :: lines) = (forward true pipe line).1 ++ forwardedText lines := by
  unfold forwardedText forward
  rw [List.map_cons, List.filter_cons]
  cases Text.blank line with
  | true => exact String.empty_append.symm
  | false => exact verbatim_append [line] _

/-- Lines that are forwarded are all taken, and their text is written. -/
lemma Handler.through_forwarding (lines : List (Pipe × String)) (text : String) :
    (Handler.forwarding true).through lines text = (text ++ forwardedText lines, none) := by
  induction lines generalizing text with
  | nil => exact congrArg (·, none) String.append_empty.symm
  | cons line lines ih =>
    obtain ⟨pipe, line⟩ := line
    rw [forwardedText_cons, ← String.append_assoc, ← ih]
    rfl

/-- However a call ends, the text of the lines that were delivered is written. -/
lemma Call.state_forwarding (c : Call) (s : Session) :
    (c.run (Handler.forwarding true) "" s).2.1 = forwardedText (c.forwarded s) := by
  have hgiven : c.forwarded s = (c.request s).heard s.nextStart :=
    Request.given_of_taken (by rw [Handler.through_forwarding])
  rw [hgiven]
  show ((c.request s).run s.nextStart (Handler.forwarding true) "").state = _
  rw [Request.state_run, Handler.through_forwarding]
  exact String.empty_append

lemma Act.within_bind_written {α β : Type} {act : Act α} {next : α → Act β} {s : Session}
    (h : ∀ (a : α) (t : Session), ((next a).within t).2.written = t.written) :
    ((act >>= next).within s).2.written = (act.within s).2.written := by
  rcases hact : act.within s with ⟨failure | a, t⟩
  · rw [Act.within_bind_error hact]
  · rw [Act.within_bind_ok hact]
    exact h a t

end Engine

namespace Repository

lemma written_forwardOutput (r : Repository) (subcommand : String) (arguments : List Value)
    (deadline : Value) (s : Session) :
    ((r.forwardOutput subcommand arguments true deadline).within s).2.written =
      s.written ++ forwardedText ((r.call subcommand arguments deadline).forwarded s) := by
  rw [within_forwardOutput, ← Call.state_forwarding]
  rfl

lemma written_prune (r : Repository) (deadline : Value) (s : Session) :
    ((r.prune true deadline).within s).2.written =
      s.written ++ forwardedText ((r.call "prune" [] deadline).forwarded s) := by
  rw [prune, Act.within_bind_written fun _ _ => rfl, written_forwardOutput]

/-- The call that carries out a decision. -/
def decisionCall (r : Repository) (deadline : Value) (result : Retention) : Call :=
  if result.remove.isEmpty then r.call "prune" [] deadline
  else r.call "forget" (.str "--prune" :: result.removeIds.map .str) deadline

/-- What is written before a decision is carried out. -/
def announcement (result : Retention) : String :=
  if result.remove.isEmpty then "no snapshots to remove\n" else ""

lemma written_carryOut (r : Repository) (deadline : Value) (result : Retention) (s : Session) :
    ((r.carryOut true deadline result).within s).2.written =
      s.written ++ announcement result ++
        forwardedText ((r.decisionCall deadline result).forwarded s) := by
  unfold carryOut announcement decisionCall
  split
  · have hwrite : (Act.write "no snapshots to remove\n").within s =
      (.ok (), s.write "no snapshots to remove\n") := rfl
    show (((Act.write "no snapshots to remove\n") >>= fun _ => r.prune true deadline >>= fun _ =>
      pure result).within s).2.written = _
    rw [Act.within_bind_ok hwrite, Act.within_bind_written fun _ _ => rfl, written_prune]
    rfl
  · rw [Act.within_bind_written fun _ _ => rfl, written_forwardOutput, String.append_empty]

/-- Nothing is written while the snapshots are listed. -/
lemma written_snapshots (r : Repository) (options : List Step) (deadline : Value) (s : Session) :
    ((r.snapshots options deadline).within s).2.written = s.written := by
  cases hoptions : Options.queryFromSteps options with
  | error failure =>
    rw [snapshots, hoptions, Act.within_bind_error (Act.within_lift _ s)]
  | ok arguments =>
    have hwritten : ((r.query arguments deadline).run Handler.collecting [] s).2.2.written =
      s.written := rfl
    rw [within_snapshots hoptions, ← hwritten]
    rcases (r.query arguments deadline).run Handler.collecting [] s with ⟨failure | ⟨⟩, lines, t⟩
    · rfl
    · dsimp only
      cases Snapshot.decodeList lines.reverse <;> rfl

/-- **What forgetting and pruning write is the text of the lines of their last process, however that
ends.**  Pruning has one process.  Before forgetting has listed the snapshots and made a decision
nothing is written; if there is nothing to remove a line says so, and behind it stands the text of
the process that carries the decision out. -/
theorem written_by_last_process (r : Repository) (policy : Policy) (options : List Step)
    (deadline : Value) (s : Session) :
    ((r.prune true deadline).within s).2.written =
      s.written ++ forwardedText ((r.call "prune" [] deadline).forwarded s) ∧
    let listing := (r.snapshots options deadline).within s
    let written := ((r.forget policy true options deadline).within s).2.written
    listing.2.written = s.written ∧
      (∀ failure, listing.1 = .error failure → written = s.written) ∧
      ∀ found, listing.1 = .ok found →
        (∀ fault, Retention.select policy found = .error fault → written = s.written) ∧
        ∀ result, Retention.select policy found = .ok result →
          written = s.written ++ announcement result ++
            forwardedText ((r.decisionCall deadline result).forwarded listing.2) := by
  refine ⟨r.written_prune deadline s, ?_⟩
  intro listing written
  have hlisting : listing.2.written = s.written := r.written_snapshots options deadline s
  refine ⟨hlisting, fun failure hfailure => ?_, fun found hfound => ⟨fun fault hselect => ?_, ?_⟩⟩
  · have hrun : (r.snapshots options deadline).within s = (.error failure, listing.2) :=
      Prod.ext hfailure rfl
    show ((r.forget policy true options deadline).within s).2.written = _
    rw [forget_eq, Act.within_bind_error hrun, hlisting]
  · have hrun :
        (r.snapshots options deadline).within s = (.ok found, listing.2) := Prod.ext hfound rfl
    have hfault :
        (liftM (orFail (Retention.select policy found)) : Act Retention).within listing.2 =
        (.error (.fault fault), listing.2) := by
      rw [hselect]
      exact Act.within_lift _ _
    show ((r.forget policy true options deadline).within s).2.written = _
    rw [forget_eq, Act.within_bind_ok hrun, Act.within_bind_error hfault, hlisting]
  · intro result hselect
    have hrun :
        (r.snapshots options deadline).within s = (.ok found, listing.2) := Prod.ext hfound rfl
    show ((r.forget policy true options deadline).within s).2.written = _
    rw [within_forget hrun hselect, written_carryOut, ← hlisting]
    rfl

/-- Nothing is to be removed, and the process that prunes runs out of time after two lines. -/
theorem written_by_last_process_late :
    let listing : Start := .runs ⟨[.write .stdout "[]".toUTF8.toList,
      .write .stderr "loading".toUTF8.toList], 0, false, false, false⟩
    let pruning : Start := .runs ⟨[.write .stdout "counting\n".toUTF8.toList,
      .write .stderr " \nlocked\n".toUTF8.toList, .sleep 2, .write .stdout "done\n".toUTF8.toList],
      1, false, false, false⟩
    let s := Session.begin [] "run" [listing, pruning]
    let run := (sample.forget Policy.empty true [] (.int 1)).within s
    (∃ failure, run.1 = .error failure) ∧
      run.2.written = "no snapshots to remove\ncounting\nlocked\n" := by
  intro listing pruning s run
  have hfailed : run.1.toOption = none := by decide +kernel
  have hlisted : ((sample.snapshots [] (.int 1)).within s).1 = .ok [] :=
    toOption_eq_some.1 (by decide +kernel)
  have hordered : Retention.newestFirst [] = [] := List.mergeSort_nil
  have hselect : Retention.select Policy.empty [] = .ok ⟨[], [], []⟩ := by
    rw [Retention.select, hordered]
    rfl
  obtain ⟨-, -, -, hwritten⟩ := written_by_last_process sample Policy.empty [] (.int 1) s
  have htext : forwardedText ((sample.decisionCall (.int 1) ⟨[], [], []⟩).forwarded
      ((sample.snapshots [] (.int 1)).within s).2) = "counting\nlocked\n" := by
    decide +kernel
  refine ⟨?_, ?_⟩
  · cases hrun : run.1 with
    | error failure => exact ⟨failure, rfl⟩
    | ok result =>
      rw [hrun] at hfailed
      cases hfailed
  · have hall := (hwritten [] hlisted).2 _ hselect
    rw [htext] at hall
    exact hall

end Repository

end BackupSteward
