import BackupSteward.Proofs.Repository.Environment
import BackupSteward.Proofs.Retention.Acceptance

/-!
# What escapes from the settings of the policy

A variable that is no number, or a negative one, is reported as a failure of configuration, however
long it is.  The number of hours is also made a duration, and durations have a bound.  Beyond it a
fault escapes, unless one of the other variables is reported before.
-/

namespace BackupSteward

/-- Hours make a duration of at most 999999999 whole days. -/
lemma Duration.ofHours?_eq_none_iff (hours : Nat) :
    ofHours? hours = none ↔ 24000000000 ≤ hours := by
  have hdays : Int.fdiv ((hours : Int) * 3600000000) microsPerDay = (hours / 24 : Nat) := by
    rw [microsPerDay, Int.fdiv_eq_ediv_of_nonneg _ (by decide)]
    omega
  show (if -maxDays ≤ _ ∧ _ ≤ maxDays then _ else _) = none ↔ _
  rw [hdays, maxDays, ite_eq_right_iff]
  constructor
  · intro h
    by_contra hlt
    have hbounds :
        -999999999 ≤ ((hours / 24 : Nat) : Int) ∧ ((hours / 24 : Nat) : Int) ≤ 999999999 := by
      omega
    cases h hbounds
  · rintro h ⟨-, hle⟩
    omega

namespace Environment

/-- The setting with the count of a rule. -/
def settingOf : Rule → String
  | .last => "LAST"
  | .hourly => "HOURLY"
  | .daily => "DAILY"
  | .weekly => "WEEKLY"
  | .monthly => "MONTHLY"
  | .yearly => "YEARLY"

/-- The variable of a setting gives a count: it is not set or holds white space only, and the count
is zero, or it holds a number. -/
def Gives (env : Environment) (setting : String) (n : Nat) : Prop :=
  match env.get? (keepVariable setting) with
  | none => n = 0
  | some text => if Text.blank text then n = 0 else Number.wholeNumber? text = some (n : Int)

/-- What escapes from the settings: the hours are more than a duration can hold, and nothing is
wrong with the counts, which are read before the duration is made. -/
structure PolicyEscapes (env : Environment) (fault : Fault) : Prop where
  fault : fault = .overflow
  hours : ∃ hours, env.Gives "WITHIN_HOURS" hours ∧ 24000000000 ≤ hours
  counts : ∀ rule, ∃ n, env.Gives (settingOf rule) n

/-- A count is what its variable gives, and if that gives none it is reported. -/
lemma keepCount_cases (env : Environment) (setting : String) :
    (∃ n, env.keepCount setting = .ok n ∧ ∀ m, env.Gives setting m ↔ m = n) ∨
      ∃ failure, env.keepCount setting = .error failure ∧ failure.IsConfiguration ∧
        ∀ m, ¬ env.Gives setting m := by
  unfold keepCount Gives
  dsimp only
  cases env.get? (keepVariable setting) with
  | none => exact .inl ⟨0, rfl, fun m => Iff.rfl⟩
  | some text =>
    dsimp only
    split
    case isTrue => exact .inl ⟨0, rfl, fun m => Iff.rfl⟩
    case isFalse =>
      split
      case h_1 n hnumber =>
        refine .inl ⟨n, rfl, fun m => ?_⟩
        rw [hnumber, Option.some.injEq]
        exact ⟨fun h => (Int.ofNat.inj h).symm, fun h => h ▸ rfl⟩
      case h_2 hother =>
        exact .inr ⟨_, rfl, ⟨_, rfl, rfl⟩, fun m h => hother m h⟩

lemma keepCount_eq_ok_iff {env : Environment} {setting : String} {n : Nat} :
    env.keepCount setting = .ok n ↔ env.Gives setting n := by
  rcases env.keepCount_cases setting with ⟨m, hm, hgives⟩ | ⟨failure, hfailure, -, hnone⟩
  · rw [hm, Except.ok.injEq, hgives, eq_comm]
  · rw [hfailure]
    exact iff_of_false (fun h => nomatch h) (hnone n)

/-- If a variable that is read gives no count, that is reported, and then nothing escapes. -/
lemma settles_keepCount_bind {env : Environment} {setting : String}
    (hread : ∀ fault, env.PolicyEscapes fault → ∃ n, env.Gives setting n)
    {rest : Nat → Except Failure Policy}
    (hrest : ∀ n, env.Gives setting n → Settles (fun _ => True) env.PolicyEscapes (rest n)) :
    Settles (fun _ => True) env.PolicyEscapes (env.keepCount setting >>= rest) := by
  rcases env.keepCount_cases setting with
    ⟨n, hn, hgives⟩ | ⟨failure, hfailure, hconfiguration, hnone⟩
  · rw [hn]
    exact hrest n ((hgives n).2 rfl)
  · rw [hfailure]
    refine .reported hconfiguration fun fault hescapes => ?_
    obtain ⟨n, hn⟩ := hread fault hescapes
    exact hnone n hn

lemma Gives.unique {env : Environment} {setting : String} {m n : Nat} (hm : env.Gives setting m)
    (hn : env.Gives setting n) : m = n :=
  Except.ok.inj ((keepCount_eq_ok_iff.2 hm).symm.trans (keepCount_eq_ok_iff.2 hn))

/-- A policy is made, or a count is refused, or the fault of the duration escapes. -/
theorem settles_policy (env : Environment) :
    Settles (fun _ => True) env.PolicyEscapes env.policy := by
  have hcount (rule : Rule) (fault : Fault) (h : env.PolicyEscapes fault) :
      ∃ n, env.Gives (settingOf rule) n := h.counts rule
  unfold policy
  refine settles_keepCount_bind (fun fault h => h.hours.imp fun _ => And.left)
    fun hours hhours => ?_
  refine settles_keepCount_bind (hcount .last) fun last hlast => ?_
  refine settles_keepCount_bind (hcount .hourly) fun hourly hhourly => ?_
  refine settles_keepCount_bind (hcount .daily) fun daily hdaily => ?_
  refine settles_keepCount_bind (hcount .weekly) fun weekly hweekly => ?_
  refine settles_keepCount_bind (hcount .monthly) fun monthly hmonthly => ?_
  refine settles_keepCount_bind (hcount .yearly) fun yearly hyearly => ?_
  have hcounts (rule : Rule) : ∃ n, env.Gives (settingOf rule) n := by
    cases rule with
    | last => exact ⟨last, hlast⟩
    | hourly => exact ⟨hourly, hhourly⟩
    | daily => exact ⟨daily, hdaily⟩
    | weekly => exact ⟨weekly, hweekly⟩
    | monthly => exact ⟨monthly, hmonthly⟩
    | yearly => exact ⟨yearly, hyearly⟩
  have hescapes (fault : Fault) :
      env.PolicyEscapes fault ↔ fault = .overflow ∧ 24000000000 ≤ hours := by
    constructor
    · rintro ⟨rfl, ⟨_, hhours', hle⟩, -⟩
      exact ⟨rfl, hhours.unique hhours' ▸ hle⟩
    · rintro ⟨rfl, hle⟩
      exact ⟨rfl, ⟨hours, hhours, hle⟩, hcounts⟩
  have hlimit := Duration.ofHours?_eq_none_iff hours
  -- the duration is made opaque, or the kernel computes with the microseconds of an hour
  generalize Duration.ofHours? hours = limit at hlimit ⊢
  by_cases hzero : hours = 0
  · rw [if_pos hzero]
    refine .value trivial fun fault hfault => ?_
    have hle := ((hescapes fault).1 hfault).2
    omega
  · rw [if_neg hzero]
    rcases limit with _ | d
    · refine .escaped fun fault => ?_
      rw [hescapes]
      exact and_iff_left (hlimit.1 rfl)
    · refine .value trivial fun fault hfault => ?_
      cases hlimit.2 ((hescapes fault).1 hfault).2

/-- The tags that the environment gives. -/
def givenTags (env : Environment) : List String :=
  match env.get? (keepVariable "TAGS") with
  | none => []
  | some text => tagList text

/-- The policy of some counts, a time and some tags. -/
def policyOf (count : Rule → Nat) (within : Option Duration) (tags : List String) : Policy :=
  ⟨.number (count .last), .number (count .hourly), .number (count .daily), .number (count .weekly),
    .number (count .monthly), .number (count .yearly), within, tags.map .str⟩

/-- What the variables give makes the policy. -/
lemma policy_of_gives {env : Environment} {hours : Nat} {count : Rule → Nat}
    {within : Option Duration} (hcount : ∀ rule, env.Gives (settingOf rule) (count rule))
    (hhours : env.Gives "WITHIN_HOURS" hours)
    (hwithin : if hours = 0 then within = none
      else ∃ d, Duration.ofHours? hours = some d ∧ within = some d) :
    env.policy = .ok (policyOf count within env.givenTags) := by
  have hkeep (rule : Rule) : env.keepCount (settingOf rule) = .ok (count rule) :=
    keepCount_eq_ok_iff.2 (hcount rule)
  have hlast : env.keepCount "LAST" = .ok (count .last) := hkeep .last
  have hhourly : env.keepCount "HOURLY" = .ok (count .hourly) := hkeep .hourly
  have hdaily : env.keepCount "DAILY" = .ok (count .daily) := hkeep .daily
  have hweekly : env.keepCount "WEEKLY" = .ok (count .weekly) := hkeep .weekly
  have hmonthly : env.keepCount "MONTHLY" = .ok (count .monthly) := hkeep .monthly
  have hyearly : env.keepCount "YEARLY" = .ok (count .yearly) := hkeep .yearly
  rw [policy, keepCount_eq_ok_iff.2 hhours, ok_bind, hlast, ok_bind, hhourly, ok_bind,
    hdaily, ok_bind, hweekly, ok_bind, hmonthly, ok_bind, hyearly, ok_bind]
  by_cases hzero : hours = 0
  · rw [if_pos hzero] at hwithin ⊢
    rw [hwithin]
    rfl
  · rw [if_neg hzero] at hwithin ⊢
    obtain ⟨d, hd, rfl⟩ := hwithin
    rw [hd]
    rfl

/-- Which faults escape, and that there is a value or a report exactly if none does. -/
lemma Settles.reported_iff {α : Type} {kind : α → Prop} {escapes : Fault → Prop}
    {x : Except Failure α} (h : Settles kind escapes x) :
    (∀ fault, x = .error (.fault fault) ↔ escapes fault) ∧
      (((∃ a, x = .ok a) ∨ ∃ failure, x = .error failure ∧ failure.IsConfiguration) ↔
        ∀ fault, ¬ escapes fault) := by
  cases h with
  | value hkind hnone =>
    exact ⟨fun fault => iff_of_false (fun h => nomatch h) (hnone fault),
      iff_of_true (.inl ⟨_, rfl⟩) hnone⟩
  | reported hfailure hnone =>
    refine ⟨fun fault => iff_of_false ?_ (hnone fault), iff_of_true (.inr ⟨_, rfl, hfailure⟩) hnone⟩
    rintro ⟨⟩
    obtain ⟨report, hreport, -⟩ := hfailure
    cases hreport
  | @escaped fault hfault =>
    refine ⟨fun other => ?_, iff_of_false ?_ fun h => h fault ((hfault fault).2 rfl)⟩
    · rw [hfault other, Except.error.injEq, Failure.fault.injEq, eq_comm]
    · rintro (⟨a, ha⟩ | ⟨failure, hfailure, report, hreport, -⟩)
      · cases ha
      · cases hfailure
        cases hreport

/-- **A policy is made or refused as a failure of configuration exactly if no fault escapes**, and
what escapes is that the hours, where all counts are fine, are more than a duration can hold.  A
policy that is made would be accepted from settings as well. -/
theorem policy_reported_iff (env : Environment) :
    (∀ fault, env.policy = .error (.fault fault) ↔ env.PolicyEscapes fault) ∧
      (((∃ p, env.policy = .ok p ∧ p.Accepted) ∨
        ∃ failure, env.policy = .error failure ∧ failure.IsConfiguration) ↔
          ∀ fault, ¬ env.PolicyEscapes fault) := by
  obtain ⟨hfaults, hreported⟩ := (settles_policy env).reported_iff
  refine ⟨hfaults, Iff.trans (or_congr_left (exists_congr fun p => ?_)) hreported⟩
  exact ⟨And.left, fun h => ⟨h, accepted_of_policy h⟩⟩

/-- Hours beyond the durations are not reported. -/
theorem hours_beyond_durations_escape :
    let env : Environment := { values := [("RESTICORCH_KEEP_WITHIN_HOURS", "24000000000")] }
    env.policy = .error (.fault .overflow) ∧
      ¬ ∀ env : Environment, (∃ p, env.policy = .ok p ∧ p.Accepted) ∨
        ∃ failure, env.policy = .error failure ∧ failure.IsConfiguration := by
  intro env
  have hpolicy : env.policy = .error (.fault .overflow) := by
    subst env
    rfl
  refine ⟨hpolicy, fun h => ?_⟩
  rcases h env with ⟨p, hp, -⟩ | ⟨failure, hfailure, report, hreport, -⟩
  · cases hpolicy.symm.trans hp
  · cases hpolicy.symm.trans hfailure
    cases hreport

end Environment

end BackupSteward
