import BackupSteward.Proofs.Engine.Succession
import BackupSteward.Proofs.Retention.Partition
import BackupSteward.Repository.Maintenance

/-!
# What forgetting does to a repository

Forgetting lists the snapshots, decides which of them to keep, and tells the engine the
identifiers of the others.  The file follows the processes of one such operation: a listing that
comes to nothing is the last of them, and after any other there is one more, whose arguments are
fixed by the decision.
-/

namespace BackupSteward.Repository

open BackupSteward.Engine

/-! ### The listing -/

/-- The process of a query runs to its end, succeeds, and prints a list of snapshots. -/
def Lists (query : Request) (start : Start) (found : List Snapshot) : Prop :=
  ∃ lines, query.Succeeds Handler.collecting [] start lines ∧
    Snapshot.decodeList lines.reverse = .ok found

/-- Watching the process of a query: its lines are collected, the latest first. -/
def watchedQuery (query : Request) (limit : Option Seconds) (script : Script) :
    Watched (List String) :=
  query.watched query.operation limit script Handler.collecting []

/-- The process of a query gives no list of snapshots. -/
inductive ListingFails (query : Request) : Start → Prop
  | cannotStart (error : SystemError) : ListingFails query (.refused error)
  | badDeadline {script : Script} {fault : Fault} (hlimit : query.limit? = .error fault) :
    ListingFails query (.runs script)
  /-- The caller gives up, time is up, or there is another cause to stop the process. -/
  | stopped {script : Script} {limit : Option Seconds} {cause : Cause}
    (hlimit : query.limit? = .ok limit)
    (hcause : (watchedQuery query limit script).cause = some cause) :
    ListingFails query (.runs script)
  | exits {script : Script} (hcode : script.exitCode ≠ 0) : ListingFails query (.runs script)
  | unreadable {script : Script} {limit : Option Seconds} {failure : Failure}
    (hlimit : query.limit? = .ok limit)
    (hread : Snapshot.decodeList (watchedQuery query limit script).progress.state.reverse =
      .error failure) :
    ListingFails query (.runs script)

/-- A listing fails or it gives a list of snapshots, and not both. -/
lemma listingFails_iff {query : Request} {start : Start} :
    ListingFails query start ↔ ∀ found, ¬ Lists query start found := by
  constructor
  · rintro hfails found ⟨_, ⟨hlimit, hcause, hcode⟩, hread⟩
    cases hfails with
    | badDeadline h => cases h.symm.trans hlimit
    | stopped h h' =>
      cases h.symm.trans hlimit
      cases h'.symm.trans hcause
    | exits h => exact h hcode
    | unreadable h h' =>
      cases h.symm.trans hlimit
      cases h'.symm.trans hread
  -- each fact that a list of snapshots rests on is looked at in turn, and the first one that does
  -- not hold is the cause of the failure
  · intro hnone
    rcases start with error | script
    · exact .cannotStart error
    rcases hlimit : query.limit? with fault | limit
    · exact .badDeadline hlimit
    rcases hcause : (watchedQuery query limit script).cause with _ | cause
    · by_cases hcode : script.exitCode = 0
      · rcases hread : Snapshot.decodeList
            (watchedQuery query limit script).progress.state.reverse with failure | found
        · exact .unreadable hlimit hread
        · exact absurd ⟨_, .intro hlimit hcause hcode, hread⟩ (hnone found)
      · exact .exits hcode
    · exact .stopped hlimit hcause

/-! ### Calls -/

lemma command_call (r : Repository) (subcommand : String) (arguments : List Value)
    (deadline : Value) : (r.call subcommand arguments deadline).command =
      commandLine r.description.binary.text subcommand r.description.flags
        (arguments.map Value.text) := by
  simp [call, commandLine, Function.comp_def, Value.text]

lemma command_call_ne_nil (r : Repository) (subcommand : String) (arguments : List Value)
    (deadline : Value) : (r.call subcommand arguments deadline).command ≠ [] := by
  simp [command_call, commandLine]

lemma runs_call {σ : Type} (r : Repository) {subcommand : String} (h : subcommand ≠ "")
    (arguments : List Value) (deadline : Value) (handler : Handler σ) (state : σ) :
    (Act.call (r.call subcommand arguments deadline) handler state).Runs
      (r.call subcommand arguments deadline).command :=
  Act.runs_call (command_call_ne_nil r subcommand arguments deadline) h handler state

/-- The query that lists the snapshots which some arguments ask for. -/
def query (r : Repository) (arguments : List Value) (deadline : Value) : Call :=
  r.call "snapshots" (.str "--json" :: arguments) deadline

/-- Listing runs the query and reads what it has printed. -/
lemma within_snapshots {r : Repository} {options : List Step} {arguments : List Value}
    (hoptions : Options.queryFromSteps options = .ok arguments) (deadline : Value) (s : Session) :
    (r.snapshots options deadline).within s =
      match (r.query arguments deadline).run Handler.collecting [] s with
      | (.ok (), lines, t) =>
        match Snapshot.decodeList lines.reverse with
        | .ok found => (.ok found, t.note [.snapshotsListed r.label found.length])
        | .error failure => (.error failure, t)
      | (.error failure, _, t) => (.error failure, t) := by
  unfold snapshots collect
  rw [hoptions, Act.within_bind, Act.within_lift]
  simp only [Act.within_bind, Act.within_lift, Act.within_call, Act.within_pure, Act.within_note]
  rw [query]
  rcases (r.call "snapshots" (.str "--json" :: arguments) deadline).run Handler.collecting [] s
    with ⟨failure | ⟨⟩, lines, t⟩
  · rfl
  · dsimp only [Except.map]
    cases Snapshot.decodeList lines.reverse <;> rfl

section

variable {r : Repository} {options : List Step} {arguments : List Value}
  (hoptions : Options.queryFromSteps options = .ok arguments) (deadline : Value) (s : Session)

include hoptions

/-- Listing gives what the query lists. -/
theorem snapshots_eq_ok (found : List Snapshot) :
    ((r.snapshots options deadline).within s).1 = .ok found ↔
      Lists ((r.query arguments deadline).request s) s.nextStart found := by
  have hrun := Call.run_eq_ok (c := r.query arguments deadline)
    (command_call_ne_nil r _ _ deadline) (by simp [query, call]) Handler.collecting []
    (s := s)
  rw [within_snapshots hoptions]
  unfold Lists
  simp only [← hrun]
  rcases (r.query arguments deadline).run Handler.collecting [] s with ⟨failure | ⟨⟩, lines, t⟩
  · simp
  · cases hread : Snapshot.decodeList lines.reverse <;> simp [hread]

/-- Listing starts the process of the query, which has succeeded if there is a list. -/
lemma runs_snapshots :
    (r.snapshots options deadline).Runs (r.query arguments deadline).command := by
  have hcollect : (r.collect "snapshots" (.str "--json" :: arguments) deadline).Runs
      (r.query arguments deadline).command :=
    (r.runs_call (by decide) _ deadline _ _).bind fun _ => Act.passive_pure _
  rw [snapshots, hoptions]
  show ((r.collect "snapshots" (.str "--json" :: arguments) deadline) >>= _).Runs _
  refine hcollect.bind fun lines => ?_
  refine (Act.passive_lift _).bind fun found => ?_
  exact (Act.passive_note _).bind fun _ => Act.passive_pure found

/-- Listing starts the process of the query and no other. -/
lemma startsOne_snapshots : ∃ child, Session.Started (r.query arguments deadline).command s
    ((r.snapshots options deadline).within s).2 child :=
  (runs_snapshots hoptions deadline).startsOne s

end

/-! ### The decision carried out -/

lemma within_forwardOutput (r : Repository) (subcommand : String) (arguments : List Value)
    (takesOutput : Bool) (deadline : Value) (s : Session) :
    (r.forwardOutput subcommand arguments takesOutput deadline).within s =
      let x := (r.call subcommand arguments deadline).run (Handler.forwarding takesOutput) "" s
      (x.1, x.2.2.write x.2.1) := by
  rw [forwardOutput, Act.within_bind_ok (Act.within_get s), Act.within_bind_ok (Act.within_set s _)]
  dsimp only
  rcases ((r.call subcommand arguments deadline).run (Handler.forwarding takesOutput) "" s).1 with
    failure | ⟨⟩ <;> rfl

lemma runs_forwardOutput (r : Repository) {subcommand : String} (h : subcommand ≠ "")
    (arguments : List Value) (takesOutput : Bool) (deadline : Value) :
    (r.forwardOutput subcommand arguments takesOutput deadline).Runs
      (commandLine r.description.binary.text subcommand r.description.flags
        (arguments.map Value.text)) := by
  intro s
  obtain ⟨child, hran⟩ := Call.ran_run (command_call_ne_nil r subcommand arguments deadline) h
    (Handler.forwarding takesOutput) "" s
  rw [command_call] at hran
  refine ⟨child, ?_⟩
  rw [within_forwardOutput]
  exact { hran with succeeded := fun ⟨_, hok⟩ => hran.succeeded hok }

lemma runs_prune (r : Repository) (takesOutput : Bool) (deadline : Value) :
    (r.prune takesOutput deadline).Runs
      (commandLine r.description.binary.text "prune" r.description.flags []) :=
  (r.runs_forwardOutput (by decide : "prune" ≠ "") [] takesOutput deadline).bind fun _ =>
    Act.passive_note _

/-- What is done about a decision. -/
def carryOut (r : Repository) (takesOutput : Bool) (deadline : Value) (result : Retention) :
    Act Retention := do
  if result.remove.isEmpty then
    if takesOutput then Act.write "no snapshots to remove\n"
    r.prune takesOutput deadline
  else
    let removed := result.removeIds
    r.forwardOutput "forget" (.str "--prune" :: removed.map .str) takesOutput deadline
    Act.note (.snapshotsForgotten r.label removed)
  return result

lemma forget_eq (r : Repository) (policy : Policy) (takesOutput : Bool) (options : List Step)
    (deadline : Value) : r.forget policy takesOutput options deadline = (do
      let found ← r.snapshots options deadline
      let result ← orFail (Retention.select policy found)
      Act.note (.retentionComputed r.label result.keep.length result.remove.length)
      r.carryOut takesOutput deadline result) := rfl

/-- Behind a listing and a decision, forgetting is carrying the decision out. -/
lemma within_forget {r : Repository} {policy : Policy} {takesOutput : Bool} {options : List Step}
    {deadline : Value} {s t : Session} {found : List Snapshot} {result : Retention}
    (hrun : (r.snapshots options deadline).within s = (.ok found, t))
    (hselect : Retention.select policy found = .ok result) :
    (r.forget policy takesOutput options deadline).within s =
      (r.carryOut takesOutput deadline result).within
        (t.note [.retentionComputed r.label result.keep.length result.remove.length]) := by
  rw [forget_eq, Act.within_bind_ok hrun, hselect]
  exact (Act.within_bind_ok (Act.within_lift _ t) _).trans
    (Act.within_bind_ok (Act.within_note _ t) _)

/-- The command that carries out a decision. -/
def decisionCommand (r : Repository) (result : Retention) : List String :=
  if result.remove.isEmpty then
    commandLine r.description.binary.text "prune" r.description.flags []
  else
    commandLine r.description.binary.text "forget" r.description.flags
      ("--prune" :: result.removeIds)

/-- Carrying out a decision starts the process of its command. -/
lemma runs_carryOut (r : Repository) (takesOutput : Bool) (deadline : Value) (result : Retention) :
    (r.carryOut takesOutput deadline result).Runs (r.decisionCommand result) := by
  unfold carryOut decisionCommand
  have hprune := (r.runs_prune takesOutput deadline).bind fun _ => Act.passive_pure result
  split
  · split
    · exact (Act.quiet_write _).bind_runs (Act.passive_write _) fun _ => hprune
    · exact hprune
  · have := r.runs_forwardOutput (by decide : "forget" ≠ "")
      (.str "--prune" :: result.removeIds.map .str) takesOutput deadline
    simp only [List.map_cons, List.map_map, Function.comp_def, Value.text, List.map_id_fun',
      id_eq] at this
    exact this.bind fun _ => (Act.passive_note _).bind fun _ => Act.passive_pure result

lemma givesOnly_carryOut (r : Repository) (takesOutput : Bool) (deadline : Value)
    (result : Retention) : (r.carryOut takesOutput deadline result).GivesOnly result := by
  have hpure := Act.givesOnly_pure result
  unfold carryOut
  split
  · split
    · exact .of_bind fun _ => .of_bind fun _ => hpure
    · exact .of_bind fun _ => hpure
  · exact .of_bind fun _ => .of_bind fun _ => hpure

/-! ### One process behind the other -/

section

variable {r : Repository} {options : List Step} {arguments : List Value} (policy : Policy)
  (takesOutput : Bool) (deadline : Value) (s : Session)

/-- The commands of forgetting, given the query: there is one behind it exactly when a decision is
made about the snapshots that are listed. -/
inductive Decides (r : Repository) (policy : Policy) (options : List Step) (deadline : Value)
    (s : Session) (query : List String) : List (List String) → Prop
  | undecided (hnone : ∀ found, ((r.snapshots options deadline).within s).1 = .ok found →
      ∀ result, Retention.select policy found ≠ .ok result) :
    Decides r policy options deadline s query [query]
  | decided {found : List Snapshot} {result : Retention}
    (hfound : ((r.snapshots options deadline).within s).1 = .ok found)
    (hselect : Retention.select policy found = .ok result) :
    Decides r policy options deadline s query [query, r.decisionCommand result]

/-- Without a decision, forgetting fails. -/
lemma forget_of_undecided (hnone : ∀ found,
    ((r.snapshots options deadline).within s).1 = .ok found →
      ∀ result, Retention.select policy found ≠ .ok result) :
    ∃ failure, ((r.forget policy takesOutput options deadline).within s).1 = .error failure := by
  rw [forget_eq]
  rcases hs : (r.snapshots options deadline).within s with ⟨failure | found, t⟩
  · rw [Act.within_bind_error hs]
    exact ⟨failure, rfl⟩
  · rw [Act.within_bind_ok hs]
    rcases hselect : Retention.select policy found with fault | result
    · exact ⟨.fault fault, congrArg Prod.fst
        (Act.within_bind_error (Act.within_lift (orFail (.error fault)) t) _)⟩
    · exact absurd hselect (hnone found (by rw [hs]) result)

/-- **Forgetting starts its processes one behind the other**: the query, and behind it the command
for the decision. -/
theorem orderly_forget (hoptions : Options.queryFromSteps options = .ok arguments) :
    ∃ new, (r.forget policy takesOutput options deadline).Orderly s new ∧
      Decides r policy options deadline s (r.query arguments deadline).command
        (new.map (·.command)) := by
  obtain ⟨listing, hlisting, horderly⟩ := (runs_snapshots hoptions deadline).orderly s
  rw [forget_eq, ← hlisting]
  rcases hs : (r.snapshots options deadline).within s with ⟨failure | found, t⟩
  · exact ⟨[listing], horderly.bind_error hs, .undecided (by rintro found h; cases hs ▸ h)⟩
  have hlift : (liftM (orFail (Retention.select policy found)) : Act Retention).within t =
      (orFail (Retention.select policy found), t) := Act.within_lift _ t
  rcases hselect : Retention.select policy found with fault | result <;> rw [hselect] at hlift
  -- a policy that cannot be applied is a failure behind the listing
  · refine ⟨[listing], horderly.bind_ok hs
      (((Act.passive_lift _).orderly t).bind_error (by rw [hselect]; exact hlift)), .undecided ?_⟩
    rintro other h
    cases hs ▸ h
    simp [hselect]
  · obtain ⟨next, hnext, hcarry⟩ := (r.runs_carryOut takesOutput deadline result).orderly
      (t.note [.retentionComputed r.label result.keep.length result.remove.length])
    refine ⟨[listing, next], horderly.bind_ok hs ?_, ?_⟩
    · refine (Act.passive_lift _).bind_orderly (by rw [hselect]; exact hlift) ?_
      exact (Act.passive_note _).bind_orderly (Act.within_note _ t) hcarry
    · rw [List.map_cons, List.map_singleton, hnext]
      exact .decided (by rw [hs]) hselect

end

/-! ### The decision -/

/-- A command that carries out a decision about a listing and spares what is kept. -/
inductive Spares (r : Repository) (listing : List Snapshot) (result : Retention) :
    List String → Prop
  /-- When every listed snapshot is kept there is nothing to forget. -/
  | prune (hall : ∀ s ∈ listing, s ∈ result.keep) :
    Spares r listing result
      (commandLine r.description.binary.text "prune" r.description.flags [])
  /-- The identifiers are those of the snapshots that are not kept, from the newest to the
  oldest. -/
  | forget {ids : List String} (hsome : ids ≠ []) (hnodup : ids.Nodup)
    (hids : ids = ((Retention.newestFirst listing).map (·.id)).filter
      fun id => id ∉ result.keep.map (·.id))
    (hkeep : ∀ s ∈ result.keep, s.id ∉ ids) :
    Spares r listing result
      (commandLine r.description.binary.text "forget" r.description.flags ("--prune" :: ids))

lemma removeIds_eq {policy : Policy} {listing : List Snapshot} {result : Retention}
    (h : Retention.Partitions policy listing result) (hnodup : (listing.map (·.id)).Nodup) :
    result.removeIds = ((Retention.newestFirst listing).map (·.id)).filter
      fun id => id ∉ result.keep.map (·.id) := by
  have hordered : ((Retention.newestFirst listing).map (·.id)).Nodup :=
    ((Retention.isNewestFirst_newestFirst listing).perm.map (·.id)).nodup_iff.2 hnodup
  -- the marks say which places are removed; only when no identifier occurs twice do they say
  -- which identifiers
  rw [Retention.removeIds, h.remove_eq, h.keep_eq, passedOver, ← picked_map, ← picked_map]
  exact passedOver_eq_filter hordered (by simp)

lemma spares_decisionCommand {policy : Policy} {listing : List Snapshot} {result : Retention}
    (r : Repository) (h : Retention.Partitions policy listing result)
    (hnodup : (listing.map (·.id)).Nodup) :
    Spares r listing result (r.decisionCommand result) := by
  unfold decisionCommand
  split
  case isTrue hempty =>
    refine .prune fun s hs => ?_
    have hs := h.perm.mem_iff.2 hs
    rwa [List.isEmpty_iff.1 hempty, List.append_nil] at hs
  case isFalse hsome =>
    have hids := removeIds_eq h hnodup
    refine .forget ?_ ?_ hids fun s hs hmem => ?_
    · simpa [Retention.removeIds] using hsome
    · exact (h.remove_sublist.map (·.id)).nodup
        (((Retention.isNewestFirst_newestFirst listing).perm.map (·.id)).nodup_iff.2 hnodup)
    · rw [hids] at hmem
      have := List.of_mem_filter hmem
      exact absurd (List.mem_map_of_mem hs) (by simpa using this)

/-- What was listed decides which process comes next, whatever becomes of that process. -/
lemma forget_of_found {policy : Policy} (hpolicy : policy.HasTextTags) {r : Repository}
    {takesOutput : Bool} {options : List Step} {deadline : Value} {s t : Session}
    {found : List Snapshot} (hrun : (r.snapshots options deadline).within s = (.ok found, t))
    (hnodup : (found.map (·.id)).Nodup) :
    let run := (r.forget policy takesOutput options deadline).within s
    ∃ result next, Retention.select policy found = .ok result ∧
      (∀ given, run.1 = .ok given → given = result) ∧
      run.2.children = t.children ++ [next] ∧
      next.started = (t.starts.headD .idle).works ∧ Spares r found result next.command := by
  intro run
  have hselect := Retention.select_eq hpolicy found
  have hparts := Retention.partitions_outcome policy found
  generalize Retention.outcome policy (Retention.newestFirst found) = result at hselect hparts
  have hcarry : run = (r.carryOut takesOutput deadline result).within
      (t.note [.retentionComputed r.label result.keep.length result.remove.length]) :=
    within_forget hrun hselect
  obtain ⟨next, hnext⟩ := r.runs_carryOut takesOutput deadline result
    (t.note [.retentionComputed r.label result.keep.length result.remove.length])
  refine ⟨result, next, hselect, ?_, ?_, hnext.started_eq, ?_⟩
  · intro given hgiven
    rw [hcarry] at hgiven
    exact givesOnly_carryOut r takesOutput deadline result _ given _ (Prod.ext hgiven rfl)
  · rw [hcarry, hnext.children]
    rfl
  · rw [hnext.command_eq]
    exact spares_decisionCommand r hparts hnodup

/-- **Forgetting spares every snapshot it has decided to keep.**  A listing that fails is the last
process; after any other there is exactly one, which forgets the identifiers of the snapshots
that are not kept, or prunes when there are none. -/
theorem forget_spares_kept {policy : Policy} (hpolicy : policy.HasTextTags) (r : Repository)
    (takesOutput : Bool) (options : List Step) (deadline : Value) (s : Session) :
    let run := (r.forget policy takesOutput options deadline).within s
    (∀ failure, Options.queryFromSteps options = .error failure → run = (.error failure, s)) ∧
    ∀ arguments, Options.queryFromSteps options = .ok arguments →
      let query := (r.query arguments deadline).request s
      ∃ listing : Child, listing.command = query.command ∧
        listing.started = s.nextStart.works ∧
        (ListingFails query s.nextStart →
          run.2.children = s.children ++ [listing] ∧ ∃ failure, run.1 = .error failure) ∧
        (¬ ListingFails query s.nextStart → ∃ found, Lists query s.nextStart found) ∧
        ∀ found, Lists query s.nextStart found → (found.map (·.id)).Nodup →
          ∃ result next, Retention.select policy found = .ok result ∧
            (∀ given, run.1 = .ok given → given = result) ∧
            run.2.children = s.children ++ [listing, next] ∧
            next.started = ((s.starts.drop 1).headD .idle).works ∧
            Spares r found result next.command := by
  intro run
  refine ⟨fun failure hoptions => ?_, fun arguments hoptions => ?_⟩
  -- options that are refused are refused before any process
  · have hsnapshots : (r.snapshots options deadline).within s = (.error failure, s) := by
      rw [snapshots, hoptions]
      exact Act.within_bind_error (Act.within_lift _ s) _
    exact Act.within_bind_error hsnapshots _
  intro query
  obtain ⟨listing, hlisting⟩ := startsOne_snapshots (r := r) hoptions deadline s
  have hvalue := snapshots_eq_ok (r := r) hoptions deadline s
  refine ⟨listing, hlisting.command_eq, hlisting.started_eq, ?_, ?_, ?_⟩
  -- a failure of the listing is a failure of the whole, with no process behind it
  · intro hfails
    rcases hrun : (r.snapshots options deadline).within s with ⟨failure | found, t⟩
    · have : run = (.error failure, t) := Act.within_bind_error hrun _
      rw [hrun] at hlisting
      exact ⟨by rw [this, hlisting.children], failure, by rw [this]⟩
    · exact absurd ((hvalue found).1 (by rw [hrun])) (listingFails_iff.1 hfails found)
  · intro hnot
    exact Classical.not_forall_not.1 (mt listingFails_iff.2 hnot)
  · intro found hfound hnodup
    obtain ⟨t, hrun⟩ : ∃ t, (r.snapshots options deadline).within s = (.ok found, t) :=
      ⟨_, Prod.ext ((hvalue found).2 hfound) rfl⟩
    rw [hrun] at hlisting
    obtain ⟨result, next, hselect, hgives, hchildren, hstarted, hspares⟩ :=
      forget_of_found hpolicy hrun hnodup
    refine ⟨result, next, hselect, hgives, ?_, ?_, hspares⟩
    · rw [hchildren, hlisting.children, List.append_assoc, List.singleton_append]
    · rw [hstarted, hlisting.starts]

/-- A process that prints a line and succeeds. -/
def printing (line : String) : Start :=
  .runs ⟨[.write .stdout line.toUTF8.toList], 0, false, false, false⟩

/-- A repository in a directory, without a label. -/
def sample : Repository where
  description := {
    location := .str "/srv/backup", password := .str "secret", flags := ["--no-cache"]
    binary := .str "restic", environment := [], workdir := none, label := .str "" }
  shown := "/srv/backup"

/-- Of two snapshots of one day the older is forgotten. -/
theorem forget_spares_kept_daily :
    let policy : Policy := { Policy.empty with daily := .number 1 }
    let line := "[\x7b\"id\":\"b\",\"time\":\"2024-01-02T23:00:00Z\"\x7d," ++
      "\x7b\"id\":\"a\",\"time\":\"2024-01-02T09:00:00Z\"\x7d]"
    let s := Session.begin [] "run" [printing line]
    policy.HasTextTags ∧
      ∃ listing next, ((sample.forget policy false [] .null).within s).2.children =
        [listing, next] ∧ listing.command = ["restic", "snapshots", "--no-cache", "--json"] ∧
        next.command = ["restic", "forget", "--no-cache", "--prune", "a"] := by
  intro policy line s
  let found := [Retention.sample "b" 2 23 0 [], Retention.sample "a" 2 9 0 []]
  have htags : policy.HasTextTags := by simp [policy, Policy.HasTextTags, Policy.empty]
  have hlists : Lists ((sample.query [] .null).request s) s.nextStart found := by
    let script : Script := ⟨[.write .stdout line.toUTF8.toList], 0, false, false, false⟩
    have hcause : (watchedQuery ((sample.query [] .null).request s) none script).cause = none :=
      Option.isNone_iff_eq_none.1 (by decide +kernel)
    have hlines : (watchedQuery ((sample.query [] .null).request s) none script).progress.state =
        [line] := by
      decide +kernel
    have hread : Snapshot.decodeList [line] = .ok found :=
      toOption_eq_some.1 (by decide +kernel)
    exact ⟨[line], hlines ▸ .intro rfl hcause rfl, hread⟩
  have hordered : Retention.newestFirst found = found :=
    Retention.newestFirst_of_descending (by unfold Retention.Descending; decide)
  obtain ⟨listing, hcommand, -, -, -, hafter⟩ :=
    (forget_spares_kept htags sample false [] .null s).2 [] rfl
  obtain ⟨result, next, hselect, -, hchildren, -, hnext⟩ := hafter found hlists (by decide)
  refine ⟨htags, listing, next, hchildren, ?_, ?_⟩
  · rw [hcommand]
    decide
  rw [Retention.select_eq htags, hordered] at hselect
  cases hselect
  generalize next.command = command at hnext
  cases hnext with
  | prune hall => exact absurd (hall (Retention.sample "a" 2 9 0 []) (by decide)) (by decide)
  | forget hsome hnodup hids hkeep =>
    rw [hids, hordered]
    decide

end BackupSteward.Repository
