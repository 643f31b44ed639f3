import BackupSteward.Engine.Run
import BackupSteward.Text.Lowered

/-!
# Why an engine failed

An engine that ends with a non-zero status has failed; its last diagnostic lines tell whether
another process holds the lock of the repository.
-/

namespace BackupSteward.Engine

/-- What the engine says when another process holds the lock. -/
def lockMarkers : List String := ["repository is already locked", "unable to create lock"]

/-- Whether diagnostic lines, joined by line feeds, show that the repository is locked. -/
def showsLock (lines : List String) : Bool :=
  lockMarkers.any (Text.mentions (String.intercalate "\n" lines))

/-- What is said of diagnostics in the place of their last line when there are none. -/
def noDiagnostics : String := "no diagnostic output"

/-- The last of some diagnostics. -/
def lastLine (diagnostics : Value) : Except Fault String :=
  if diagnostics.truthy then
    diagnostics.elements.map fun lines => (lines.getLast?.map Value.text).getD noDiagnostics
  else .ok noDiagnostics

/-- Raises the failure that a non-zero exit status stands for.  Command, status and diagnostics
may be as a caller has them; where they are not lines of text and the like, that is a fault. -/
def checkStatus (command exitCode diagnostics : Value) (invocation : String) :
    Except Failure Unit :=
  if exitCode.isZero then .ok ()
  else do
    match subcommand? (← orFail command.elements) with
    | none => throw (.fault .badIndex)
    | some operation =>
      let last ← orFail (lastLine diagnostics)
      let lines ← orFail (diagnostics.items.bind Value.allTexts)
      if showsLock lines then
        throw (.repositoryLocked operation.text exitCode diagnostics invocation)
      else throw (.engineFailed operation.text exitCode diagnostics last invocation)

/-- Raises the failure of an engine that ended with a non-zero status. -/
def Finished.check (f : Finished) (command : List String) (invocation : String) :
    Except Failure Unit :=
  checkStatus (Value.texts command) (.int f.exitCode) (Value.texts f.diagnostics) invocation

end BackupSteward.Engine
