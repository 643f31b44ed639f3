import BackupSteward.Options.Render

/-!
# Repository descriptions

Where a repository is, the password that opens it, and how to call the engine for it.  A
description is checked as a whole when it is made, and all that is wrong with it is reported
together.
-/

namespace BackupSteward

/-- A valid repository description. -/
structure Description where
  /-- A path or the address of a backend. -/
  location : Value
  password : Value
  /-- The flags of every engine command. -/
  flags : List String
  /-- The engine's executable. -/
  binary : Value
  /-- Variables for the engine, such as the credentials of a backend. -/
  environment : List (String × String)
  /-- The directory to run the engine in; none is that of the caller. -/
  workdir : Option Path
  /-- The name of the repository in the log; if it is empty the location stands for it. -/
  label : Value

namespace Description

/-- The names of the fields of a description. -/
def fieldNames : List String := ["uri", "password", "flags", "binary", "env", "cwd", "repo_id"]

/-- Whether a text looks like a flag. -/
def isFlag (s : String) : Bool := s.toList.head? = some '-'

/-- The flags that some values are, if all of them look like flags. -/
def flags? : List Value → Option (List String)
  | [] => some []
  | .str s :: vs => if isFlag s then (flags? vs).map (s :: ·) else none
  | _ :: _ => none

/-- Whether a text can be the name of a variable. -/
def isVariableName (s : String) : Bool := s ≠ "" && !s.toList.contains '='

/-- The variables that some fields are, if all names are possible and all values are texts. -/
def textVariables? : Fields → Option (List (String × String))
  | [] => some []
  | (name, .str s) :: rest =>
    if isVariableName name then (textVariables? rest).map ((name, s) :: ·) else none
  | _ :: _ => none

/-- The variables that a value stands for. -/
def environment? : Value → Option (List (String × String))
  | .record fields => textVariables? fields
  | _ => none

/-- The working directory that a value names. -/
def workdirOf : Value → Except Fault (Option Path)
  | .null => .ok none
  | v => v.toPath.map some

/-- What is wrong with the parts of a description. -/
def problems (location password binary : Value) (flags : List Value) (environment : Value) :
    List DescriptionProblem :=
  (if !location.truthy || Text.blank location.text then [.emptyLocation] else []) ++
    (if !password.truthy then [.emptyPassword] else []) ++
    (if !binary.truthy then [.emptyBinary] else []) ++
    (if (flags? flags).isNone then [.badFlags flags] else []) ++
    (if (environment? environment).isNone then [.badVariables] else [])

/-- The description that fields hold.  Unknown fields, missing ones, and flags or a working
directory of the wrong type are faults; everything else is reported together. -/
def ofFields (fields : Fields) : Except Failure Description := do
  if fields.names.any fun n => !fieldNames.contains n then throw (.fault .badType)
  match fields.get? "uri", fields.get? "password" with
  | some location, some password =>
    let flags ← orFail (Step.listIn fields "flags")
    let workdir ← orFail (workdirOf ((fields.get? "cwd").getD .null))
    let binary := (fields.get? "binary").getD (.str "restic")
    let vars := (fields.get? "env").getD (.record [])
    match problems location password binary flags vars, flags? flags, environment? vars with
    | [], some flags, some environment =>
      return { location, password, flags, binary, environment, workdir
               label := (fields.get? "repo_id").getD (.str "") }
    | problems, _, _ => throw (.invalidDescription problems)
  | _, _ => throw (.fault .badType)

/-- The fields of a description. -/
def toFields (d : Description) : Fields :=
  [("uri", d.location), ("password", d.password), ("flags", .tuple (d.flags.map .str)),
    ("binary", d.binary), ("env", .record (d.environment.map fun v => (v.1, .str v.2))),
    ("cwd", (d.workdir.map .path).getD .null), ("repo_id", d.label)]

/-- The description with some fields replaced. -/
def withUpdates (d : Description) (updates : Fields) : Except Failure Description :=
  ofFields (d.toFields.putAll updates)

/-- The variables that every engine process gets: those of the description, the location and
the password. -/
def engineVariables (d : Description) : Fields :=
  let own : Fields := d.environment.map fun v => (v.1, .str v.2)
  (own.put "RESTIC_REPOSITORY" d.location).put "RESTIC_PASSWORD" d.password

/-- A description as it is written in messages, without the password and the variables. -/
def repr (d : Description) : String :=
  "RepoConfig(uri=" ++ d.location.repr ++ ", flags=" ++ (Value.tuple (d.flags.map .str)).repr ++
    ", binary=" ++ d.binary.repr ++ ", cwd=" ++ ((d.workdir.map Value.path).getD .null).repr ++
    ", repo_id=" ++ d.label.repr ++ ")"

/-! ## Descriptions from options -/

/-- The name and value that an item of a sequence stands for; the name need not be a text. -/
def pairOf (item : Value) : Except Fault (Value × Value) :=
  match item.items with
  | .ok [name, value] => if name.comparable then .ok (name, value) else .error .badType
  | .ok _ => .error .badValue
  | .error f => .error f

/-- The variables that a sequence of names and values stands for, the later of two with one
name in the place of the earlier; nothing when a name is no text. -/
def collectPairs : List Value → Fields → Except Fault (Option Fields)
  | [], found => .ok (some found)
  | item :: items, found =>
    match pairOf item with
    | .error f => .error f
    | .ok (.str name, value) => collectPairs items (found.put name value)
    | .ok _ => (collectPairs items found).map fun _ => none

/-- The variables that a record or a sequence of names and values stands for; null when they
are not named by texts. -/
def variablesFrom : Value → Except Fault Value
  | .record fields => .ok (.record fields)
  | v =>
    match v.items with
    | .error f => .error f
    | .ok items => (collectPairs items []).map fun found => (found.map .record).getD .null

/-- The description that a complete record of arguments makes. -/
def ofArguments (fields : Fields) : Except Failure Description := do
  let flags ← orFail (Step.listIn fields "flags")
  let environment ← orFail (variablesFrom ((fields.get? "env").getD (.record [])))
  let binary := match fields.get? "binary" with
    | some v => if v.truthy then v else .str "restic"
    | none => .str "restic"
  ofFields [("uri", (fields.get? "uri").getD .null),
    ("password", (fields.get? "password").getD .null), ("flags", .tuple flags),
    ("binary", binary), ("env", environment), ("cwd", (fields.get? "cwd").getD .null),
    ("repo_id", (fields.get? "repo_id").getD (.str ""))]

/-- Sets those of some fields that a record has already. -/
def putKnown (fields : Fields) (settings : Fields) : Fields :=
  settings.foldl (fun fs s => if (fs.get? s.1).isSome then fs.put s.1 s.2 else fs) fields

/-- The description of a repository with some options.  Settings are applied behind the
options; those of unknown fields count for nothing, and the location and the password cannot
be given twice. -/
def create (location password : Value) (steps : List Step) (settings : Fields) :
    Except Failure Description := do
  if settings.names.any fun n => n = "uri" || n = "password" then throw (.fault .badType)
  let start := (Step.emptyRepository.put "uri" (.str location.text)).put "password" password
  let fields ← orFail (Step.applyAll steps start)
  ofArguments (putKnown fields settings)

end Description

end BackupSteward
