/-!
# Faults

What can go wrong with loosely typed data apart from the failures that the library reports by
its own messages.  A fault carries no message; its kind says enough.
-/

namespace BackupSteward

/-- A misuse of a value. -/
inductive Fault where
  /-- The value has the right type but makes no sense. -/
  | badValue
  /-- The value has a type that the operation does not take. -/
  | badType
  /-- The number is too large for the result. -/
  | overflow
  /-- There is no element at that place. -/
  | badIndex
  /-- There is no element of that name. -/
  | badKey
  /-- The operation asked for is none of this type of value. -/
  | badMember
  /-- The text nests more deeply than it can be read. -/
  | tooDeep
  /-- The bytes are no text. -/
  | undecodable
  /-- There is no home directory to start a path from. -/
  | homeless
  deriving DecidableEq, Repr

end BackupSteward
