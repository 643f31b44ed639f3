/-!
# The engine's pipes

The engine prints on two pipes: what it has to say, and its diagnostics.
-/

namespace BackupSteward

/-- The pipe a line arrives on. -/
inductive Pipe where
  | stdout
  | stderr
  deriving DecidableEq, Repr

namespace Pipe

/-- The name of a pipe. -/
def name : Pipe → String
  | stdout => "stdout"
  | stderr => "stderr"

/-- The other pipe. -/
def other : Pipe → Pipe
  | stdout => stderr
  | stderr => stdout

end Pipe

end BackupSteward
