import BackupSteward.Engine.Session
import BackupSteward.Repository.Description
import BackupSteward.Repository.Location

/-!
# Repositories

A repository that operations work on: its description, and what it is called in the log.
-/

namespace BackupSteward

open BackupSteward.Engine

/-- A repository. -/
structure Repository where
  description : Description
  /-- The location without the password in it. -/
  shown : String

namespace Repository

/-- The repository of a description.  A malformed location is a fault. -/
def ofDescription (description : Description) : Except Fault Repository :=
  (Location.masked description.location.text).map fun shown => { description, shown }

/-- The repository at a location. -/
def create (location password : Value) (steps : List Step) (settings : Fields) :
    Except Failure Repository := do
  orFail (ofDescription (← Description.create location password steps settings))

/-- What a repository is called in the log: its label, or else its location. -/
def label (r : Repository) : Value :=
  if r.description.label.truthy then r.description.label else .str r.shown

/-- A repository as it is written in messages. -/
def repr (r : Repository) : String := "Repo(uri=" ++ Text.quoted r.shown ++ ")"

/-- The argument vector of an engine command: executable, subcommand, global flags, and then
the arguments. -/
def commandLine {α : Type} (binary subcommand : α) (flags arguments : List α) : List α :=
  binary :: subcommand :: flags ++ arguments

/-- The engine call for a subcommand. -/
def call (r : Repository) (subcommand : String) (arguments : List Value)
    (deadline : Value) : Call :=
  { command := (commandLine r.description.binary (.str subcommand)
      (r.description.flags.map .str) arguments).map Value.text
    environment := r.description.engineVariables
    workdir := r.description.workdir
    deadline
    operation := subcommand }

end Repository

end BackupSteward
