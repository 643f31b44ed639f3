import BackupSteward.Value

/-!
# Reports of failures

What a caller sees of a failure: its kind, a sentence, and details by name.
-/

namespace BackupSteward

/-- The kinds of failure a caller may want to tell apart. -/
inductive FailureKind where
  /-- Any failure of this library. -/
  | any
  /-- Options, a repository description or a policy are invalid. -/
  | configuration
  /-- The engine cannot be started. -/
  | processStart
  /-- The engine ended with a non-zero status. -/
  | engine
  /-- Another process holds the lock of the repository. -/
  | repositoryLocked
  /-- The engine's output does not have the expected form. -/
  | parseIntegrity
  /-- The engine succeeded without a summary. -/
  | missingSummary
  /-- A listed snapshot is malformed. -/
  | invalidSnapshot
  /-- The operation was given up. -/
  | operationCancelled
  /-- The caller gave the operation up. -/
  | callerCancelled
  deriving DecidableEq, Repr

namespace FailureKind

/-- The kind that a kind is a special case of. -/
def parent? : FailureKind → Option FailureKind
  | any => none
  | repositoryLocked => some engine
  | missingSummary | invalidSnapshot => some parseIntegrity
  | callerCancelled => some operationCancelled
  | configuration | processStart | engine | parseIntegrity | operationCancelled => some any

/-- A kind and the kinds it is a special case of, the narrowest first. -/
def ancestry (k : FailureKind) : List FailureKind :=
  match k.parent? with
  | none => [k]
  | some p =>
    match p.parent? with
    | none => [k, p]
    | some g => [k, p, g]

/-- Whether a failure of this kind comes from the engine itself. -/
def isEngine (k : FailureKind) : Bool := k.ancestry.contains engine

/-- Whether a failure of this kind also cancels the task it happens in. -/
def isCancellation (k : FailureKind) : Bool := k = callerCancelled

end FailureKind

/-- The report of a failure. -/
structure Report where
  kind : FailureKind
  message : String
  /-- More about the failure, by name as a rule. -/
  details : Value

namespace Report

/-- The report as one text: the message, and behind it the details if there are any. -/
def text (r : Report) : String :=
  if r.details.truthy then r.message ++ " | Details: " ++ r.details.text else r.message

/-- The detail of a name.  Other values than records have no details by name. -/
def detail? (r : Report) (name : String) : Except Fault (Option Value) :=
  match r.details with
  | .record fields => .ok (Fields.get? fields name)
  | _ => .error .badMember

/-- The exit status of the engine, as the details have it. -/
def exitCode (r : Report) : Except Fault Value :=
  (r.detail? "exit_code").map fun v => v.getD .null

/-- The diagnostic lines of the engine, as the details have them. -/
def diagnostics (r : Report) : Except Fault (List Value) := do
  match ← r.detail? "stderr" with
  | none => return []
  | some v => v.items

end Report

end BackupSteward
