import BackupSteward.Retention.Policy
import BackupSteward.Snapshot.Basic

/-!
# Applying a policy

Snapshots are ordered from the newest to the oldest; of equal instants the one listed first
comes first.  A counted rule goes through them in this order and keeps each snapshot whose
period differs from that of the snapshot kept before, until its count is used up.
-/

namespace BackupSteward

/-- Why a snapshot is kept. -/
inductive Reason where
  /-- The policy has no rule, so everything is kept. -/
  | noPolicy
  | rule (r : Rule)
  | within
  | tag
  deriving DecidableEq, Repr

/-- A reason in words. -/
def Reason.text : Reason → String
  | noPolicy => "no policy"
  | rule r => r.name
  | within => "within"
  | tag => "tag"

/-- What becomes of the snapshots of a listing; both lists begin with the newest. -/
structure Retention where
  keep : List Snapshot
  remove : List Snapshot
  /-- The reasons of each kept snapshot, by identifier. -/
  reasons : List (String × List Reason)

namespace Retention

/-- The snapshots from the newest to the oldest; equal instants keep the order of the
listing. -/
def newestFirst (snapshots : List Snapshot) : List Snapshot :=
  snapshots.mergeSort fun a b => b.time.instant ≤ a.time.instant

/-- The period a snapshot belongs to under a rule, in the clock of the snapshot; `place` counts
the snapshots before it. -/
def period (r : Rule) (place : Nat) (m : Moment) : List Nat :=
  match r with
  | .last => [place]
  | .hourly => [m.year, m.month, m.day, m.hour]
  | .daily => [m.year, m.month, m.day]
  | .weekly =>
    let (year, week) := Calendar.isoWeek m.year m.month m.day
    [year, week]
  | .monthly => [m.year, m.month]
  | .yearly => [m.year]

/-- Which of some snapshots a counted rule keeps, given what is left of its count and the
period of the snapshot it kept last. -/
def marksFrom (r : Rule) :
    (place : Nat) → (left : Int) → (last : Option (List Nat)) → List Snapshot → List Bool
  | _, _, _, [] => []
  | place, left, last, s :: rest =>
    let p := period r place s.time
    if left = 0 then false :: marksFrom r (place + 1) left last rest
    else if last = some p then false :: marksFrom r (place + 1) left last rest
    else true :: marksFrom r (place + 1) (if 0 < left then left - 1 else left) (some p) rest

/-- Which of the ordered snapshots a counted rule keeps. -/
def marks (r : Rule) (count : Int) (ordered : List Snapshot) : List Bool :=
  marksFrom r 0 count none ordered

/-- Which of the ordered snapshots are within some time of the newest. -/
def withinMarks (d : Duration) (ordered : List Snapshot) : List Bool :=
  match ordered with
  | [] => []
  | newest :: _ =>
    ordered.map fun s => newest.time.instant - s.time.instant ≤ d.micros

/-- Which of the ordered snapshots carry one of some tags. -/
def tagMarks (tags : List Value) (ordered : List Snapshot) : List Bool :=
  let wanted := tags.filterMap fun v =>
    match v with
    | .str s => some s
    | _ => none
  ordered.map fun s => s.tags.any wanted.contains

/-- Adds a reason where it is marked. -/
def addReason (why : List (List Reason)) (reason : Reason) (marked : List Bool) :
    List (List Reason) :=
  List.zipWith (fun why m => if m then why ++ [reason] else why) why marked

/-- The rules of a policy that are switched on, each with what it keeps of the ordered
snapshots. -/
def columns (p : Policy) (ordered : List Snapshot) : List (Reason × List Bool) :=
  (Rule.all.filter fun r => (p.count r).amount ≠ 0).map
      (fun r => (.rule r, marks r (p.count r).amount ordered)) ++
    (match p.within with
    | some d => if d.micros ≠ 0 then [(.within, withinMarks d ordered)] else []
    | none => []) ++
    (if p.tags.isEmpty then [] else [(.tag, tagMarks p.tags ordered)])

/-- The reasons to keep each of the ordered snapshots. -/
def reasonsFor (p : Policy) (ordered : List Snapshot) : List (List Reason) :=
  if p.isEmpty then ordered.map fun _ => [.noPolicy]
  else (columns p ordered).foldl (fun why c => addReason why c.1 c.2) (ordered.map fun _ => [])

/-- Notes the reasons of an identifier, in place of those noted before. -/
def note (reasons : List (String × List Reason)) (id : String) (why : List Reason) :
    List (String × List Reason) :=
  match reasons with
  | [] => [(id, why)]
  | (i, w) :: rest => if i = id then (i, why) :: rest else (i, w) :: note rest id why

/-- Applies a policy to a listing.  Tags that cannot be compared are a fault. -/
def select (p : Policy) (snapshots : List Snapshot) : Except Fault Retention :=
  if p.tags.all Value.comparable then
    let ordered := newestFirst snapshots
    let judged := ordered.zip (reasonsFor p ordered)
    let kept := judged.filter fun j => !j.2.isEmpty
    .ok {
      keep := kept.map (·.1)
      remove := (judged.filter fun j => j.2.isEmpty).map (·.1)
      reasons := kept.foldl (fun rs j => note rs j.1.id j.2) [] }
  else .error .badType

/-- The identifiers of the snapshots to remove. -/
def removeIds (r : Retention) : List String := r.remove.map (·.id)

end Retention

end BackupSteward
