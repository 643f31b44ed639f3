import BackupSteward.Proofs.Repository.Related
import BackupSteward.Proofs.Repository.Streaming
import BackupSteward.Routine

/-!
# The course of the routine

A night's run starts at most four processes: the backup, a listing to print, and, when the policy
has rules, a second listing and the command that carries out the decision about it.  The file shows
that they come in this order and that none is started behind one that has not succeeded, and it says
for which outcomes of the backup, the listing and the forgetting the run ends with each of its exit
statuses.
-/

namespace BackupSteward

open BackupSteward.Engine

/-- The kind that a failure of the library is reported as.  Other failures have none. -/
def Failure.kind? (failure : Failure) : Option FailureKind := failure.report?.map (·.kind)

namespace Routine

/-- The repository and the policy that an environment describes. -/
def prepared (env : Environment) : Except Failure (Repository × Policy) := do
  let description ← env.description
  let repository ← orFail (Repository.ofDescription description)
  return (repository, ← env.policy)

section

variable (r : Repository) (policy : Policy) (paths : List Value) (s : Session)

/-! ### The operations -/

/-- The backup of the routine. -/
def streamed : Streamed BackupProgress BackupSummary :=
  r.backup (some ⟨false, fun _ => none⟩) (backupOptions paths) false .null s

/-- What the backup comes to. -/
def backedUp : Except Failure BackupSummary := (streamed r paths s).outcome

/-- The session behind the backup, with its events printed. -/
def afterBackup : Session :=
  (streamed r paths s).session.write
    (String.join ((streamed r paths s).delivered.map eventText))

/-- What listing the snapshots of the routine gives. -/
def listed : Except Failure (List Snapshot) := ((r.snapshots queryOptions .null).within s).1

/-- What forgetting by the policy gives. -/
def retained : Except Failure Retention := ((r.forget policy true queryOptions .null).within s).1

/-- The command of a listing, which is restricted to the tag of the routine. -/
def listCommand : List String :=
  Repository.commandLine r.description.binary.text "snapshots" r.description.flags
    ["--json", "--tag", "example"]

/-- The commands of a run, with some arguments of the backup and some decision. -/
def stages (arguments : List Value) (retention : Retention) : List (List String) :=
  [(r.backupCall .null arguments).command, listCommand r, listCommand r,
    r.decisionCommand retention]

variable {r policy paths s}

lemma listed_congr {t : Session} (h : s.Same t) : listed r t = listed r s :=
  (Repository.related_snapshots r.corresponds_same _ _ s t h).1

lemma retained_congr {t : Session} (h : s.Same t) : retained r policy t = retained r policy s :=
  (Repository.related_forget r.corresponds_same _ _ _ _ s t h).1

lemma queryOptions_eq : Options.queryFromSteps queryOptions =
    .ok [.str "--tag", .str "example"] := rfl

lemma command_query : (r.query [.str "--tag", .str "example"] .null).command = listCommand r := by
  rw [Repository.query, Repository.command_call]
  rfl

lemma runs_listing : (r.snapshots queryOptions .null).Runs (listCommand r) := by
  rw [← command_query]
  exact Repository.runs_snapshots queryOptions_eq .null

end

/-! ### The preparation -/

section

variable {env : Environment} {r : Repository} {policy : Policy}

/-- What the routine does about the outcome of its backup. -/
def goOn (r : Repository) (policy : Policy) : Except Failure BackupSummary → Act Int
  | .error failure => backupFailed failure
  | .ok summary => do
    Act.note (.routineDone summary.snapshotId summary.totalFilesProcessed summary.dataAdded)
    maintain r policy
    return 0

/-- A run is the preparation, the backup, and what is done about the outcome. -/
lemma run_eq (env : Environment) (paths : Value) :
    run env paths = (liftM (prepared env) : Act (Repository × Policy)) >>= fun found =>
      (liftM (backup found.1 paths) : Act (Except Failure BackupSummary)) >>=
        goOn found.1 found.2 := by
  simp only [prepared, Act.lift_bind, bind_assoc, Act.lift_pure, pure_bind]
  unfold run goOn
  rfl

/-- An environment that describes no repository or no policy is refused at once. -/
lemma within_run_of_error {failure : Failure} (h : prepared env = .error failure) (paths : Value)
    (s : Session) : (run env paths).within s = (.error failure, s) := by
  rw [run_eq, h]
  exact Act.within_bind_error (Act.within_lift _ s) _

/-- Behind the preparation there is the backup, and behind it what is done about its outcome. -/
lemma within_run_of_ok (h : prepared env = .ok (r, policy)) (paths : List Value) (s : Session) :
    (run env (.list paths)).within s =
      (goOn r policy (backedUp r paths s)).within (afterBackup r paths s) := by
  have hbackup : (liftM (backup r (.list paths)) : Act (Except Failure BackupSummary)).within s =
      (.ok (backedUp r paths s), afterBackup r paths s) := rfl
  rw [run_eq, h]
  exact (Act.within_bind_ok (Act.within_lift _ s) _).trans (Act.within_bind_ok hbackup _)

end

/-! ### A backup that fails -/

/-- What the run ends with when its backup has failed: a status for the failures of the library, and
the failure itself when it is none of those or the caller has given up. -/
def statusOf (failure : Failure) : Except Failure Int :=
  match failure.kind? with
  | none => .error failure
  | some .callerCancelled => .error failure
  | some .repositoryLocked => .ok 2
  | some _ => .ok 1

/-- A failure of the library for which the run ends with status one. -/
def Fails (failure : Failure) : Prop :=
  ∃ kind, failure.kind? = some kind ∧ kind ≠ .repositoryLocked ∧ kind ≠ .callerCancelled

lemma statusOf_spec (failure : Failure) :
    (statusOf failure = .ok 2 ↔ failure.kind? = some .repositoryLocked) ∧
      (statusOf failure = .ok 1 ↔ Fails failure) ∧ statusOf failure ≠ .ok 0 ∧
      (statusOf failure ≠ .ok 1 → statusOf failure ≠ .ok 2 →
        statusOf failure = .error failure) := by
  unfold statusOf Fails
  rcases failure.kind? with _ | kind
  · simp
  · cases kind <;> simp

/-- The routine starts no process behind a backup that has failed. -/
lemma within_backupFailed (failure : Failure) (s : Session) :
    ((backupFailed failure).within s).1 = statusOf failure ∧
      s.Reached [] ((backupFailed failure).within s).2 := by
  unfold backupFailed statusOf Failure.kind?
  rcases failure.report? with _ | ⟨kind, message, details⟩
  · exact ⟨rfl, .refl s⟩
  · cases kind <;> exact ⟨rfl, { Session.Reached.refl s with }⟩

/-! ### Listing and forgetting -/

section

variable {r : Repository} {policy : Policy} {s : Session}

/-- How the listing and the forgetting go in a session: the commands that are run, and what they
come to.  Each constructor names the operation that decides. -/
inductive Course (r : Repository) (policy : Policy) (s : Session) :
    List (List String) → Except Failure Unit → Prop
  | unlisted {failure : Failure} (hlisted : listed r s = .error failure) :
    Course r policy s [listCommand r] (.error failure)
  /-- A policy without rules keeps everything. -/
  | kept {found : List Snapshot} (hlisted : listed r s = .ok found)
    (hempty : policy.isEmpty = true) : Course r policy s [listCommand r] (.ok ())
  | undecided {found : List Snapshot} {failure : Failure} (hlisted : listed r s = .ok found)
    (hrules : policy.isEmpty = false)
    (hnone : ∀ found, listed r (s.later 1) = .ok found →
      ∀ result, Retention.select policy found ≠ .ok result)
    (hretained : retained r policy (s.later 1) = .error failure) :
    Course r policy s [listCommand r, listCommand r] (.error failure)
  | decided {found again : List Snapshot} {result : Retention} (hlisted : listed r s = .ok found)
    (hrules : policy.isEmpty = false) (hagain : listed r (s.later 1) = .ok again)
    (hselect : Retention.select policy again = .ok result) :
    Course r policy s [listCommand r, listCommand r, r.decisionCommand result]
      ((retained r policy (s.later 1)).map fun _ => ())

lemma Course.congr {t : Session} {commands : List (List String)} {result : Except Failure Unit}
    (h : Course r policy t commands result) (hsame : s.Same t) :
    Course r policy s commands result := by
  have hlater := hsame.drop 1
  cases h with
  | unlisted hlisted => exact .unlisted (listed_congr hsame ▸ hlisted)
  | kept hlisted hempty => exact .kept (listed_congr hsame ▸ hlisted) hempty
  | undecided hlisted hrules hnone hretained =>
    rw [listed_congr hlater] at hnone
    exact .undecided (listed_congr hsame ▸ hlisted) hrules hnone (retained_congr hlater ▸ hretained)
  | decided hlisted hrules hagain hselect =>
    rw [retained_congr hlater]
    exact .decided (listed_congr hsame ▸ hlisted) hrules (listed_congr hlater ▸ hagain) hselect

/-- The listing and the forgetting take their course, one process behind the other. -/
lemma course_maintain (r : Repository) (policy : Policy) (s : Session) :
    ∃ new, (maintain r policy).Orderly s new ∧
      Course r policy s (new.map (·.command)) ((maintain r policy).within s).1 := by
  obtain ⟨listing, hlisting, horderly⟩ := runs_listing.orderly s
  unfold maintain
  rcases hs : (r.snapshots queryOptions .null).within s with ⟨failure | found, t⟩
  · refine ⟨[listing], horderly.bind_error hs, ?_⟩
    rw [Act.within_bind_error hs, List.map_singleton, hlisting]
    exact .unlisted (by rw [listed, hs])
  have hlisted : listed r s = .ok found := by rw [listed, hs]
  have hreached := horderly.reached
  rw [hs] at hreached
  let shown := t.write (String.join (found.map snapshotText))
  have hwrite : (Act.write (String.join (found.map snapshotText))).within t = (.ok (), shown) := rfl
  have hsame : (s.later 1).Same shown := { hreached.same with }
  rw [Act.within_bind_ok hs, Act.within_bind_ok hwrite]
  cases hempty : policy.isEmpty with
  | true =>
    refine ⟨[listing], horderly.bind_ok hs ((Act.passive_write _).bind_orderly hwrite
      ((Act.passive_note .routineSkipsRetention).orderly shown)), ?_⟩
    rw [List.map_singleton, hlisting]
    exact .kept hlisted hempty
  | false =>
    obtain ⟨new, hforget, hdecides⟩ :=
      Repository.orderly_forget policy true .null shown queryOptions_eq
    rw [command_query] at hdecides
    have hlater : listed r (s.later 1) = ((r.snapshots queryOptions .null).within shown).1 :=
      (listed_congr hsame).symm
    refine ⟨listing :: new, horderly.bind_ok hs ((Act.passive_write _).bind_orderly hwrite
      (hforget.bind_passive fun _ => Act.passive_note _)), ?_⟩
    show Course r policy s _ ((r.forget policy true queryOptions .null >>= fun retention =>
      Act.note (.routineRetained retention.keep.length retention.remove.length)).within shown).1
    rw [Act.within_bind_note, List.map_cons, hlisting]
    show Course r policy s _ ((retained r policy shown).map _)
    rw [retained_congr hsame]
    generalize new.map (·.command) = commands at hdecides
    cases hdecides with
    | undecided hnone =>
      obtain ⟨failure, hfailure⟩ := Repository.forget_of_undecided policy true .null shown hnone
      have hretained : retained r policy (s.later 1) = .error failure :=
        (retained_congr hsame).symm.trans hfailure
      rw [hretained]
      show Course r policy s _ (.error failure)
      exact .undecided hlisted hempty (hlater ▸ hnone) hretained
    | decided hfound hselect => exact .decided hlisted hempty (hlater.trans hfound) hselect

end

/-! ### The whole run -/

section

variable {r : Repository} {policy : Policy} {paths : List Value} {s : Session}

variable (r s) in
/-- A backup whose options are refused starts no process. -/
lemma backedUp_of_refused {failure : Failure}
    (h : Options.backupFromSteps (backupOptions paths) = .error failure) :
    backedUp r paths s = .error failure ∧ s.Reached [] (afterBackup r paths s) := by
  unfold backedUp afterBackup streamed Repository.backup
  rw [h]
  exact ⟨rfl, { Session.Reached.refl s with }⟩

variable (r s) in
/-- Any other backup starts one, which has succeeded if there is a summary. -/
lemma ran_afterBackup {arguments : List Value}
    (h : Options.backupFromSteps (backupOptions paths) = .ok arguments) :
    ∃ child, Session.Ran (r.backupCall .null arguments).command s (afterBackup r paths s) child
      (∃ summary, backedUp r paths s = .ok summary) := by
  obtain ⟨child, hran⟩ := Repository.ran_stream
    (r.named_call .null (by decide : "backup" ≠ "") (.str "--json" :: arguments))
  unfold backedUp afterBackup streamed Repository.backup
  rw [h]
  exact ⟨child, { hran with }⟩

/-- How a run goes: its commands, and what it ends with. -/
inductive Goes (r : Repository) (policy : Policy) (paths : List Value) (s : Session) :
    List (List String) → Except Failure Int → Prop
  | refused {failure : Failure}
    (hoptions : Options.backupFromSteps (backupOptions paths) = .error failure)
    (hbackup : backedUp r paths s = .error failure) : Goes r policy paths s [] (statusOf failure)
  | failed {arguments : List Value} {failure : Failure}
    (hoptions : Options.backupFromSteps (backupOptions paths) = .ok arguments)
    (hbackup : backedUp r paths s = .error failure) :
    Goes r policy paths s [(r.backupCall .null arguments).command] (statusOf failure)
  | done {arguments : List Value} {summary : BackupSummary} {commands : List (List String)}
    {result : Except Failure Unit}
    (hoptions : Options.backupFromSteps (backupOptions paths) = .ok arguments)
    (hbackup : backedUp r paths s = .ok summary)
    (hcourse : Course r policy (s.later 1) commands result) :
    Goes r policy paths s ((r.backupCall .null arguments).command :: commands)
      (result.map fun _ => 0)

/-- A prepared run goes its way, and each of its processes but the last one has succeeded. -/
lemma goes_goOn (r : Repository) (policy : Policy) (paths : List Value) (s : Session) :
    let run := (goOn r policy (backedUp r paths s)).within (afterBackup r paths s)
    ∃ new, s.Reached new run.2 ∧ (∀ child ∈ new.dropLast, child.Succeeded) ∧
      Goes r policy paths s (new.map (·.command)) run.1 := by
  dsimp only
  rcases hoptions : Options.backupFromSteps (backupOptions paths) with failure | arguments
  · obtain ⟨hbackup, hreached⟩ := backedUp_of_refused r s hoptions
    obtain ⟨hstatus, hafter⟩ := within_backupFailed failure (afterBackup r paths s)
    rw [hbackup, goOn, hstatus]
    exact ⟨[], hreached.trans hafter, by simp, .refused hoptions hbackup⟩
  obtain ⟨backup, hran⟩ := ran_afterBackup r s hoptions
  rcases hbackup : backedUp r paths s with failure | summary
  · obtain ⟨hstatus, hafter⟩ := within_backupFailed failure (afterBackup r paths s)
    rw [goOn, hstatus]
    refine ⟨[backup], hran.reached.trans hafter, by simp, ?_⟩
    rw [List.map_singleton, hran.command_eq]
    exact .failed hoptions hbackup
  let noted := (afterBackup r paths s).note
    [.routineDone summary.snapshotId summary.totalFilesProcessed summary.dataAdded]
  have hnoted : s.Reached [backup] noted := { hran.reached with }
  obtain ⟨new, horderly, hcourse⟩ := course_maintain r policy noted
  rw [goOn, Act.within_bind_ok (Act.within_note _ _), Act.within_bind_pure]
  refine ⟨backup :: new, hnoted.trans horderly.reached, ?_, ?_⟩
  · intro child hmem
    rcases new with _ | ⟨next, new⟩
    · simp at hmem
    · rw [List.dropLast_cons_cons] at hmem
      rcases List.mem_cons.1 hmem with rfl | hmem
      · exact hran.succeeded ⟨summary, hbackup⟩
      · exact horderly.earlier child hmem
  · rw [List.map_cons, hran.command_eq]
    exact .done hoptions hbackup (hcourse.congr hnoted.same)

/-- Which commands a run starts. -/
structure Ordered (r : Repository) (policy : Policy) (paths : List Value) (s : Session)
    (commands : List (List String)) : Prop where
  /-- They come in a fixed order, and the last one is for the decision that the policy makes about
  the second listing. -/
  order : ∃ arguments retention, commands <+: stages r arguments retention ∧
    (0 < commands.length → Options.backupFromSteps (backupOptions paths) = .ok arguments) ∧
    (3 < commands.length → ∃ found, listed r (s.later 2) = .ok found ∧
      Retention.select policy found = .ok retention)
  /-- There is a backup unless its options are refused. -/
  backup_iff : 0 < commands.length ↔
    ∃ arguments, Options.backupFromSteps (backupOptions paths) = .ok arguments
  /-- There is a listing exactly behind a backup with a summary. -/
  listing_iff : 1 < commands.length ↔ ∃ summary, backedUp r paths s = .ok summary
  /-- There is a second one exactly when the first one can be read and the policy has rules. -/
  again_iff : 2 < commands.length ↔ 1 < commands.length ∧
    (∃ found, listed r (s.later 1) = .ok found) ∧ policy.isEmpty = false
  /-- There is a last process exactly when a decision is made about the second listing. -/
  last_iff : 3 < commands.length ↔ 2 < commands.length ∧
    ∃ found retention, listed r (s.later 2) = .ok found ∧
      Retention.select policy found = .ok retention

/-- What a run ends with. -/
structure Ends (r : Repository) (policy : Policy) (paths : List Value) (s : Session)
    (result : Except Failure Int) : Prop where
  /-- The backup found the repository locked.  A lock found by a later process has no status. -/
  two_iff : result = .ok 2 ↔
    ∃ failure, backedUp r paths s = .error failure ∧ failure.kind? = some .repositoryLocked
  /-- The backup failed for another reason that the library reports, other than the caller's. -/
  one_iff : result = .ok 1 ↔ ∃ failure, backedUp r paths s = .error failure ∧ Fails failure
  /-- All operations have succeeded that the policy asks for. -/
  zero_iff : result = .ok 0 ↔ (∃ summary, backedUp r paths s = .ok summary) ∧
    (∃ found, listed r (s.later 1) = .ok found) ∧
    (policy.isEmpty = false → ∃ retention, retained r policy (s.later 2) = .ok retention)
  /-- In every other case the failure of one of the three is passed on.  One of these failures
  stands for an engine that does not end, and a run that does not either. -/
  raises : result ≠ .ok 0 → result ≠ .ok 1 → result ≠ .ok 2 → ∃ failure, result = .error failure ∧
    (backedUp r paths s = .error failure ∨ listed r (s.later 1) = .error failure ∨
      retained r policy (s.later 2) = .error failure)

lemma Goes.ordered {commands : List (List String)} {result : Except Failure Int}
    (h : Goes r policy paths s commands result) : Ordered r policy paths s commands := by
  -- where no decision is made any will do, for the prefix does not reach its command
  let anything := Retention.outcome policy []
  cases h with
  | refused hoptions hbackup =>
    refine ⟨⟨[], anything, List.nil_prefix, ?_⟩, ?_, ?_, ?_, ?_⟩ <;> simp [hoptions, hbackup]
  | @failed arguments _ hoptions hbackup =>
    refine ⟨⟨arguments, anything, ⟨_, rfl⟩, ?_⟩, ?_, ?_, ?_, ?_⟩ <;> simp [hoptions, hbackup]
  | @done arguments _ _ _ hoptions hbackup hcourse =>
    cases hcourse with
    | unlisted hlisted =>
      refine ⟨⟨arguments, anything, ⟨_, rfl⟩, ?_⟩, ?_, ?_, ?_, ?_⟩ <;>
        simp [hoptions, hbackup, hlisted]
    | kept hlisted hempty =>
      refine ⟨⟨arguments, anything, ⟨_, rfl⟩, ?_⟩, ?_, ?_, ?_, ?_⟩ <;>
        simp [hoptions, hbackup, hempty]
    | undecided hlisted hrules hnone hretained =>
      rw [Session.later_later] at hnone
      refine ⟨⟨arguments, anything, ⟨_, rfl⟩, ?_⟩, ?_, ?_, ?_, ?_⟩
      · simp [hoptions]
      · simp [hoptions]
      · simp [hbackup]
      · simp [hlisted, hrules]
      · simpa using hnone
    | @decided _ _ result hlisted hrules hagain hselect =>
      rw [Session.later_later] at hagain
      refine ⟨⟨arguments, result, ⟨_, rfl⟩, ?_⟩, ?_, ?_, ?_, ?_⟩ <;>
        simp [hoptions, hbackup, hlisted, hrules, hagain, hselect]

lemma Goes.ends {commands : List (List String)} {result : Except Failure Int}
    (h : Goes r policy paths s commands result) : Ends r policy paths s result := by
  have hfailed {failure : Failure} (hbackup : backedUp r paths s = .error failure) :
      Ends r policy paths s (statusOf failure) := by
    obtain ⟨htwo, hone, hzero, hraised⟩ := statusOf_spec failure
    refine ⟨?_, ?_, ?_, fun _ hnot hnot' => ⟨failure, hraised hnot hnot', .inl hbackup⟩⟩
    · simp [hbackup, htwo]
    · simp [hbackup, hone]
    · simp [hbackup, hzero]
  cases h with
  | refused _ hbackup => exact hfailed hbackup
  | failed _ hbackup => exact hfailed hbackup
  | done _ hbackup hcourse =>
    cases hcourse with
    | unlisted hlisted => constructor <;> simp [hbackup, hlisted, Except.map]
    | kept hlisted hempty => constructor <;> simp [hbackup, hlisted, hempty, Except.map]
    | undecided hlisted hrules _ hretained =>
      rw [Session.later_later] at hretained
      constructor <;> simp [hbackup, hrules, hretained, Except.map]
    | decided hlisted hrules _ _ =>
      rw [Session.later_later]
      cases hretained : retained r policy (s.later (1 + 1)) <;>
        constructor <;> simp [hbackup, hlisted, hrules, hretained, Except.map]

end

/-- **The routine runs its processes in order, each only behind those that have succeeded, and its
exit status tells what has failed.** -/
theorem run_proceeds (env : Environment) (paths : List Value) (s : Session) :
    let run := (run env (.list paths)).within s
    (∀ failure, prepared env = .error failure → run = (.error failure, s)) ∧
    ∀ r policy, prepared env = .ok (r, policy) →
      ∃ new, s.Reached new run.2 ∧ (∀ child ∈ new.dropLast, child.Succeeded) ∧
        Ordered r policy paths s (new.map (·.command)) ∧ Ends r policy paths s run.1 := by
  intro run
  refine ⟨fun failure h => within_run_of_error h (.list paths) s, fun r policy h => ?_⟩
  have hrun : run = (goOn r policy (backedUp r paths s)).within (afterBackup r paths s) :=
    within_run_of_ok h paths s
  obtain ⟨new, hreached, hearlier, hgoes⟩ := goes_goOn r policy paths s
  rw [hrun]
  exact ⟨new, hreached, hearlier, hgoes.ordered, hgoes.ends⟩

/-- When the second listing fails nothing is forgotten, and the run gives no status. -/
theorem run_proceeds_relisting :
    let env : Environment := { values := [("RESTIC_REPOSITORY", "/srv/backup"),
      ("RESTIC_PASSWORD", "secret"), ("RESTICORCH_KEEP_LAST", "1")] }
    let listing := "[\x7b\"id\":\"a\",\"time\":\"2024-01-02T09:00:00Z\"\x7d]"
    let s := Session.begin [] "run" [Repository.printing "\x7b\"message_type\":\"summary\"\x7d",
      Repository.printing listing, .runs ⟨[], 1, false, false, false⟩]
    let run := (run env (.list [.str "/data"])).within s
    ∃ r policy new, prepared env = .ok (r, policy) ∧ s.Reached new run.2 ∧
      (∀ child ∈ new.dropLast, child.Succeeded) ∧ new.map (·.command) = [
        ["restic", "backup", "--json", "--exclude", "*.tmp", "--exclude", ".cache",
          "--tag", "example", "/data"],
        ["restic", "snapshots", "--json", "--tag", "example"],
        ["restic", "snapshots", "--json", "--tag", "example"]] ∧
      ∃ failure, run.1 = .error failure := by
  intro env listing s run
  have hprepared : (prepared env).toOption.isSome = true := by decide +kernel
  obtain ⟨⟨r, policy⟩, hsome⟩ := Option.isSome_iff_exists.1 hprepared
  have hfound := toOption_eq_some.1 hsome
  obtain ⟨new, hreached, hearlier, -, -⟩ := (run_proceeds env [.str "/data"] s).2 r policy hfound
  have hchildren : new = run.2.children := hreached.children.symm
  refine ⟨r, policy, new, hfound, hreached, hearlier, ?_, exists_error_iff.2 fun status h => ?_⟩
  · rw [hchildren]
    decide +kernel
  · have hnone : run.1.toOption = none := by decide +kernel
    rw [h] at hnone
    cases hnone

end Routine

end BackupSteward
