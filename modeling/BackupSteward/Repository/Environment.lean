import BackupSteward.FileTree
import BackupSteward.Repository.Description
import BackupSteward.Retention.Policy
import BackupSteward.Text.ShellWords

/-!
# Settings from the environment

A repository description and a retention policy from the variables of a process.  The password
may stand in a file instead of a variable, and the path of that file may start from a home
directory.
-/

namespace BackupSteward

/-- The home directories of accounts. -/
structure Accounts where
  /-- That of the account under which the process runs. -/
  own : Option String := none
  /-- Those of accounts by name. -/
  named : List (String × String) := []

/-- What a process finds around it: variables by name, files, and accounts. -/
structure Environment where
  values : List (String × String)
  /-- The current directory. -/
  files : FileTree := .empty
  /-- The directories above the current one, which by default is the only entry of the root. -/
  above : List FileTree.Level := [⟨"work", []⟩]
  accounts : Accounts := {}

namespace Environment

/-- The value of a variable. -/
def get? (env : Environment) (name : String) : Option String :=
  (env.values.find? fun v => v.1 = name).map (·.2)

/-- The value of a variable, unless it is empty. -/
def given? (env : Environment) (name : String) : Option String :=
  (env.get? name).filter (· ≠ "")

/-- The current directory, as a place in the tree of files. -/
def here (env : Environment) : FileTree.Place := ⟨env.files, env.above⟩

/-! ## The password -/

/-- The account from whose home directory a path starts: its name stands behind a tilde, and a
tilde alone stands for the process itself. -/
def account? (path : Path) : Option String :=
  match path.slashes, path.parts with
  | 0, first :: _ =>
    match first.toList with
    | '~' :: name => some (String.ofList name)
    | _ => none
  | _, _ => none

/-- The home directory of an account.  For the process itself a variable comes first. -/
def home? (env : Environment) (account : String) : Option String :=
  if account = "" then (env.get? "HOME").or env.accounts.own
  else (env.accounts.named.find? fun a => a.1 = account).map (·.2)

/-- A path with the home directory in place of a tilde at its start. -/
def expandHome (env : Environment) (path : Path) : Except Fault Path :=
  match account? path with
  | none => .ok path
  | some account =>
    if account.toList.contains '\x00' then .error .badValue
    else
      match env.home? account with
      | none => .error .homeless
      | some home =>
        let trimmed := String.ofList (home.toList.reverse.dropWhile (· = '/')).reverse
        if trimmed.toList.head? = some '~' then .error .homeless
        else
          let start := Path.ofString (if trimmed = "" then "/" else trimmed)
          .ok { start with parts := start.parts ++ path.parts.tail }

/-- Every line end as a single line feed. -/
def unixLines : List Char → List Char
  | '\r' :: '\n' :: rest => '\n' :: unixLines rest
  | '\r' :: rest => '\n' :: unixLines rest
  | c :: rest => c :: unixLines rest
  | [] => []

/-- The password in a file, without the white space around it. -/
def passwordFromFile (env : Environment) (name : String) : Except Failure String := do
  let path ← orFail (env.expandHome (Path.ofString name))
  if path.toString.toList.contains '\x00' then throw (.fault .badValue)
  match env.here.read path with
  | .error problem =>
    let error : SystemError := ⟨problem.number, problem.text, some path.toString⟩
    throw (.unreadablePasswordFile name error.text)
  | .ok content =>
    match Text.decode? content with
    | none => throw (.fault .undecodable)
    | some text =>
      let password := String.ofList (Text.trim (unixLines text.toList))
      if password = "" then throw (.unreadablePasswordFile name "file is empty")
      return password

/-- The password. -/
def password (env : Environment) : Except Failure String :=
  match env.given? "RESTIC_PASSWORD" with
  | some password => .ok password
  | none =>
    match env.given? "RESTIC_PASSWORD_FILE" with
    | none => .error .missingPassword
    | some name => env.passwordFromFile name

/-! ## The repository -/

/-- The flags of every engine command, written as shell words. -/
def flags (env : Environment) : Except Fault (List String) :=
  match env.given? "RESTICORCH_FLAGS" with
  | none => .ok []
  | some text => (Text.shellWords? text).elim (.error .badValue) .ok

/-- The description of the repository. -/
def description (env : Environment) : Except Failure Description := do
  match env.given? "RESTIC_REPOSITORY" with
  | none => throw .missingRepository
  | some location =>
    let password ← env.password
    let flags ← orFail env.flags
    let steps := match env.given? "RESTICORCH_BINARY" with
      | none => [Step.globalFlags (flags.map .str)]
      | some binary => [Step.globalFlags (flags.map .str), Step.binary (.str binary)]
    Description.create (.str location) (.str password) steps []

/-! ## The retention policy -/

/-- The name of the variable for a setting of the policy. -/
def keepVariable (setting : String) : String := "RESTICORCH_KEEP_" ++ setting

/-- The count in a variable: a number that is not negative, and zero if there is none. -/
def keepCount (env : Environment) (setting : String) : Except Failure Nat :=
  let name := keepVariable setting
  match env.get? name with
  | none => .ok 0
  | some text =>
    if Text.blank text then .ok 0
    else
      match Number.wholeNumber? text with
      | some (.ofNat n) => .ok n
      | _ => .error (.invalidKeepVariable name text)

/-- The pieces between commas, without white space around them and without blank ones. -/
def tagList (text : String) : List String :=
  ((Text.pieces ',' text.toList).map fun piece => String.ofList (Text.trim piece)).filter
    (· ≠ "")

/-- The retention policy. -/
def policy (env : Environment) : Except Failure Policy := do
  let hours ← env.keepCount "WITHIN_HOURS"
  let last ← env.keepCount "LAST"
  let hourly ← env.keepCount "HOURLY"
  let daily ← env.keepCount "DAILY"
  let weekly ← env.keepCount "WEEKLY"
  let monthly ← env.keepCount "MONTHLY"
  let yearly ← env.keepCount "YEARLY"
  let within ←
    if hours = 0 then pure none
    else
      match Duration.ofHours? hours with
      | none => throw (.fault .overflow)
      | some d => pure (some d)
  let tags := match env.get? (keepVariable "TAGS") with
    | none => []
    | some text => tagList text
  return {
    last := .number last
    hourly := .number hourly
    daily := .number daily
    weekly := .number weekly
    monthly := .number monthly
    yearly := .number yearly
    within
    tags := tags.map .str }

end Environment

end BackupSteward
