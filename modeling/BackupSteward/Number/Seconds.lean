import BackupSteward.Value

/-!
# Seconds

Time limits: whole seconds or a double.  A truth value counts as one second or none.
-/

namespace BackupSteward

/-- A count of seconds. -/
inductive Seconds where
  | whole (n : Int)
  | double (x : Double)
  deriving DecidableEq, Repr

namespace Seconds

/-- The limit that a value stands for; only numbers are limits. -/
def ofValue : Value → Except Fault Seconds
  | .int n => .ok (whole n)
  | .bool b => .ok (whole (if b then 1 else 0))
  | .double x => .ok (double x)
  | _ => .error .badType

/-- The exact length, unless it is no finite number. -/
def toRat? : Seconds → Option Rat
  | whole n => some n
  | double x => x.toRat?

/-- The shortest time that the clock can tell from none. -/
def resolution : Rat := mkRat 1 1000000000

/-- Whether the limit has passed as soon as it is set: it is negative, none at all, shorter than
the clock can tell, or no number. -/
def passesAtOnce (limit : Seconds) : Bool :=
  match limit.toRat?, limit with
  | some length, _ => decide (length < resolution)
  | none, .double (.infinite negative) => negative
  | none, _ => true

/-- Whether the limit can be added to a clock reading: a whole number has to be within the
range of doubles. -/
def inRange : Seconds → Bool
  | whole n => (Double.ofInt? n).isSome
  | double _ => true

/-- The limit in a sentence. -/
def prose : Seconds → Except Fault String
  | whole n => ((Double.ofInt? n).map Double.prose).elim (.error .overflow) .ok
  | double x => .ok x.prose

end Seconds

end BackupSteward
