import BackupSteward.Failure.Basic

/-!
# Retention policies

What to keep: a number of recent snapshots, of hours, days, weeks, months and years, everything
within some time of the newest snapshot, and everything with one of some tags.  A snapshot is
kept if any rule keeps it.
-/

namespace BackupSteward

/-- The rules that keep a counted number of snapshots, each the newest one of a period; for
`last` every snapshot is a period of its own. -/
inductive Rule where
  | last
  | hourly
  | daily
  | weekly
  | monthly
  | yearly
  deriving DecidableEq, Repr

namespace Rule

/-- The counted rules, in the order in which they are applied. -/
def all : List Rule := [last, hourly, daily, weekly, monthly, yearly]

/-- The name of a rule. -/
def name : Rule → String
  | last => "last"
  | hourly => "hourly"
  | daily => "daily"
  | weekly => "weekly"
  | monthly => "monthly"
  | yearly => "yearly"

end Rule

/-- How many periods a counted rule keeps.  Zero switches the rule off, and -1 is no limit.  A
truth value counts as one or zero and is shown as it was given. -/
inductive Count where
  | number (n : Int)
  | switch (on : Bool)
  deriving DecidableEq, Repr

namespace Count

/-- The count as a number. -/
def amount : Count → Int
  | number n => n
  | switch on => if on then 1 else 0

/-- The count as it was given. -/
def value : Count → Value
  | number n => .int n
  | switch on => .bool on

/-- The count a value stands for: a whole number from -1 on. -/
def ofValue? : Value → Option Count
  | .int n => if -1 ≤ n then some (number n) else none
  | .bool b => some (switch b)
  | _ => none

/-- Every count from a value is -1 or more. -/
theorem neg_one_le_amount {v : Value} {c : Count} (h : ofValue? v = some c) : -1 ≤ c.amount := by
  unfold ofValue? at h
  split at h
  · split at h
    · cases h; assumption
    · cases h
  · rename_i b
    cases h
    cases b <;> simp [amount]
  · cases h

end Count

/-- A retention policy. -/
structure Policy where
  last : Count
  hourly : Count
  daily : Count
  weekly : Count
  monthly : Count
  yearly : Count
  /-- Everything within this time of the newest snapshot is kept. -/
  within : Option Duration
  /-- Everything with one of these tags is kept.  Values other than texts match no tag. -/
  tags : List Value

namespace Policy

/-- The policy without rules. -/
def empty : Policy :=
  ⟨.number 0, .number 0, .number 0, .number 0, .number 0, .number 0, none, []⟩

/-- The count of a rule. -/
def count (p : Policy) : Rule → Count
  | .last => p.last
  | .hourly => p.hourly
  | .daily => p.daily
  | .weekly => p.weekly
  | .monthly => p.monthly
  | .yearly => p.yearly

/-- Whether everything within some time of the newest snapshot is kept. -/
def hasWithin (p : Policy) : Bool :=
  match p.within with
  | some d => d.micros ≠ 0
  | none => false

/-- Whether a policy has no rule. -/
def isEmpty (p : Policy) : Bool :=
  Rule.all.all (fun r => (p.count r).amount = 0) && !p.hasWithin && p.tags.isEmpty

/-- The name of the setting that gives a rule its count. -/
def countName (r : Rule) : String := "keep_" ++ r.name

/-- The names of all settings. -/
def settingNames : List String := Rule.all.map countName ++ ["keep_within", "keep_tags"]

/-- The count a setting gives a rule; none at all switches the rule off. -/
def countSetting (settings : Fields) (r : Rule) : Except PolicyProblem Count :=
  match settings.get? (countName r) with
  | none => .ok (.number 0)
  | some v => (Count.ofValue? v).elim (.error (.badCount r.name v)) .ok

/-- The problem of a setting, if it has one. -/
def problem? {α : Type} : Except PolicyProblem α → Option PolicyProblem
  | .ok _ => none
  | .error p => some p

/-- The time within which everything is kept. -/
def withinSetting (settings : Fields) : Except Fault (Option Duration) :=
  match settings.get? "keep_within" with
  | none | some .null => .ok none
  | some (.span d) => .ok (some d)
  | some _ => .error .badType

/-- The tags with which everything is kept. -/
def tagsSetting (settings : Fields) : Except Fault (List Value) :=
  match settings.get? "keep_tags" with
  | none => .ok []
  | some v => v.items

/-- The policy that settings describe.  Settings of the wrong type are faults; all others that
are invalid are reported together. -/
def ofSettings (settings : Fields) : Except Failure Policy := do
  if settings.names.any fun n => !settingNames.contains n then throw (.fault .badType)
  let counts := fun r => countSetting settings r
  let within ← orFail (withinSetting settings)
  let tags ← orFail (tagsSetting settings)
  let problems := Rule.all.filterMap (fun r => problem? (counts r)) ++
    (match within with
    | some d => if d.micros < 0 then [.negativeWithin d] else []
    | none => [])
  match counts .last, counts .hourly, counts .daily, counts .weekly, counts .monthly,
      counts .yearly, problems with
  | .ok last, .ok hourly, .ok daily, .ok weekly, .ok monthly, .ok yearly, [] =>
    return { last, hourly, daily, weekly, monthly, yearly, within, tags }
  | _, _, _, _, _, _, problems => throw (.invalidPolicy problems)

end Policy

end BackupSteward
