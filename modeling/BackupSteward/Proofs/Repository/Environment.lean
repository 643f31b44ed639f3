import BackupSteward.Proofs.FileTree
import BackupSteward.Proofs.Repository.Creation
import BackupSteward.Proofs.Text.ShellWords
import BackupSteward.Proofs.Text.Utf8
import BackupSteward.Repository.Environment

/-!
# What escapes from the environment

Settings that make no sense are to be reported as a failure of configuration.  A missing variable, a
password file that cannot be opened and a description that does not hold together are.  What the
home directory, the name and the bytes of the password file and the quotes of the flags bring about
is not: there a fault escapes, and the file says exactly when.
-/

namespace BackupSteward

namespace Description

/-- What every description fulfils. -/
structure IsValid (d : Description) : Prop where
  location : d.location.truthy = true
  location_text : Text.blank d.location.text = false
  password : d.password.truthy = true
  binary : d.binary.truthy = true
  flags : ∀ flag ∈ d.flags, isFlag flag = true
  names : ∀ v ∈ d.environment, isVariableName v.1 = true

lemma isFlag_of_flags? {values : List Value} {flags : List String}
    (h : flags? values = some flags) :
    ∀ flag ∈ flags, isFlag flag = true := by
  induction values generalizing flags with
  | nil =>
    cases h
    simp
  | cons v values ih =>
    cases v with
    | str s =>
      rw [flags?] at h
      obtain ⟨hs, h⟩ := Option.ite_none_right_eq_some.1 h
      obtain ⟨rest, hrest, rfl⟩ := Option.map_eq_some_iff.1 h
      exact List.forall_mem_cons.2 ⟨hs, ih hrest⟩
    | _ => cases h

lemma isVariableName_of_textVariables? {fields : Fields} {vars : List (String × String)}
    (h : textVariables? fields = some vars) : ∀ v ∈ vars, isVariableName v.1 = true := by
  induction fields generalizing vars with
  | nil =>
    cases h
    simp
  | cons field fields ih =>
    obtain ⟨name, v⟩ := field
    cases v with
    | str s =>
      rw [textVariables?] at h
      obtain ⟨hname, h⟩ := Option.ite_none_right_eq_some.1 h
      obtain ⟨rest, hrest, rfl⟩ := Option.map_eq_some_iff.1 h
      exact List.forall_mem_cons.2 ⟨hname, ih hrest⟩
    | _ => cases h

lemma environment?_eq_some {v : Value} {vars : List (String × String)}
    (h : environment? v = some vars) :
    ∃ fields, v = .record fields ∧ textVariables? fields = some vars := by
  cases v with
  | record fields => exact ⟨fields, rfl, h⟩
  | _ => cases h

/-- Parts without a problem make a valid description. -/
lemma isValid_of_problems {parts : Parts} {password : Value} {flags : List String}
    {environment : List (String × String)} (hproblems : parts.problems password = [])
    (hflags : flags? parts.flags = some flags)
    (henvironment : environment? parts.environment = some environment) (workdir : Option Path) :
    IsValid ⟨parts.location, password, flags, parts.binary, environment, workdir, parts.label⟩ := by
  obtain ⟨fields, -, hfields⟩ := environment?_eq_some henvironment
  simp only [Parts.problems, problems, List.append_eq_nil_iff, ite_eq_right_iff, List.cons_ne_self,
    imp_false, Bool.or_eq_true, not_or, Bool.not_eq_true', Bool.not_eq_false,
    Bool.not_eq_true] at hproblems
  obtain ⟨⟨⟨⟨⟨hlocation, htext⟩, hpassword⟩, hbinary⟩, -⟩, -⟩ := hproblems
  exact ⟨hlocation, htext, hpassword, hbinary, isFlag_of_flags? hflags,
    isVariableName_of_textVariables? hfields⟩

/-- Parts are refused as a failure of configuration, or they make a valid description. -/
lemma ofFields_cases (parts : Parts) (password : Value) {workdir : Option Path}
    (hworkdir : workdirOf parts.workdir = .ok workdir) :
    (∃ d, ofFields (parts.fields password) = .ok d ∧ d.IsValid) ∨
      ∃ problems, ofFields (parts.fields password) = .error (.invalidDescription problems) := by
  rw [ofFields_parts, hworkdir, Options.orFail_ok, ok_bind]
  split
  case h_1 hproblems hflags henvironment =>
    exact .inl ⟨_, rfl, isValid_of_problems hproblems hflags henvironment workdir⟩
  case h_2 => exact .inr ⟨_, rfl⟩

end Description

/-- A failure is one of configuration. -/
def Failure.IsConfiguration (failure : Failure) : Prop :=
  ∃ report, failure.report? = some report ∧ report.kind = .configuration

namespace Environment

variable {α : Type}

/-- A program gives a value of some kind, or it fails for a reason of configuration, or one fault
escapes from it. -/
inductive Settles (kind : α → Prop) (escapes : Fault → Prop) : Except Failure α → Prop
  | value {a : α} (hkind : kind a) (hnone : ∀ fault, ¬ escapes fault) : Settles kind escapes (.ok a)
  | reported {failure : Failure} (hfailure : failure.IsConfiguration)
    (hnone : ∀ fault, ¬ escapes fault) : Settles kind escapes (.error failure)
  | escaped {fault : Fault} (hfault : ∀ other, escapes other ↔ other = fault) :
    Settles kind escapes (.error (.fault fault))

lemma Settles.congr {kind : α → Prop} {escapes other : Fault → Prop} {x : Except Failure α}
    (h : Settles kind escapes x) (hiff : ∀ fault, escapes fault ↔ other fault) :
    Settles kind other x := by
  obtain rfl : escapes = other := funext fun fault => propext (hiff fault)
  exact h

/-- What escapes from the tilde at the start of a path. -/
inductive HomeEscapes (env : Environment) (path : Path) : Fault → Prop
  /-- The name of no account holds the character of number zero. -/
  | unnamable {account : String} (haccount : account? path = some account)
    (hzero : '\x00' ∈ account.toList) : HomeEscapes env path .badValue
  /-- The account has no home directory, or one that starts with a tilde itself. -/
  | homeless {account : String} (haccount : account? path = some account)
    (hzero : '\x00' ∉ account.toList)
    (hhome : ∀ home, env.home? account = some home → home.toList.head? = some '~') :
    HomeEscapes env path .homeless

/-- What escapes from reading the password in a file. -/
inductive FileEscapes (env : Environment) (name : String) : Fault → Prop
  | home {fault : Fault} (hfault : HomeEscapes env (Path.ofString name) fault) :
    FileEscapes env name fault
  /-- The name of no file holds the character of number zero. -/
  | unnamable {path : Path} (hpath : env.expandHome (Path.ofString name) = .ok path)
    (hzero : '\x00' ∈ path.toString.toList) : FileEscapes env name .badValue
  /-- The content of the file is not the encoding of any text. -/
  | undecodable {path : Path} {content : Text.Bytes}
    (hpath : env.expandHome (Path.ofString name) = .ok path)
    (hzero : '\x00' ∉ path.toString.toList) (hread : env.here.read path = .ok content)
    (hcontent : ∀ text, Text.encode text ≠ content) : FileEscapes env name .undecodable

/-- What escapes from the password, where it has to be read from a file. -/
def PasswordEscapes (env : Environment) (fault : Fault) : Prop :=
  env.given? "RESTIC_PASSWORD" = none ∧
    ∃ name, env.given? "RESTIC_PASSWORD_FILE" = some name ∧ FileEscapes env name fault

/-- What escapes from the flags: they leave a quote open, or end with a backslash. -/
def FlagsEscape (env : Environment) (fault : Fault) : Prop :=
  fault = .badValue ∧ ∃ text, env.given? "RESTICORCH_FLAGS" = some text ∧
    ¬ Text.ShellWords.Closed text.toList

/-- What escapes from the description of the repository. -/
inductive Escapes (env : Environment) : Fault → Prop
  | password {location : String} {fault : Fault}
    (hlocation : env.given? "RESTIC_REPOSITORY" = some location)
    (hfault : PasswordEscapes env fault) : Escapes env fault
  /-- The flags are read behind the password. -/
  | flags {location password : String} {fault : Fault}
    (hlocation : env.given? "RESTIC_REPOSITORY" = some location)
    (hpassword : env.password = .ok password) (hfault : FlagsEscape env fault) : Escapes env fault

/-! ### The password -/

lemma ne_empty_of_given? {env : Environment} {name value : String}
    (h : env.given? name = some value) : value ≠ "" := by
  simpa using (Option.filter_eq_some_iff.1 h).2

/-- A home directory begins with a tilde exactly if it does so without the slashes at its end. -/
lemma head?_trimmed (home : List Char) :
    (home.reverse.dropWhile (· = '/')).reverse.head? = some '~' ↔ home.head? = some '~' := by
  have hsplit : (home.reverse.dropWhile (· = '/')).reverse ++
      (home.reverse.takeWhile (· = '/')).reverse = home := by
    rw [← List.reverse_append, List.takeWhile_append_dropWhile, List.reverse_reverse]
  cases htrimmed : (home.reverse.dropWhile (· = '/')).reverse with
  | cons c rest =>
    rw [htrimmed] at hsplit
    rw [← hsplit]
    rfl
  | nil =>
    rw [htrimmed, List.nil_append] at hsplit
    refine iff_of_false (fun h => nomatch h) fun hhead => ?_
    -- nothing but slashes is left
    have hmem : '~' ∈ home.reverse.takeWhile (· = '/') := by
      rw [← List.mem_reverse, hsplit]
      exact List.mem_of_mem_head? hhead
    simpa using List.all_eq_true.1 List.all_takeWhile _ hmem

/-- Where a path starts from the home directory of an account, a fault escapes for the name of the
account or for its home directory. -/
lemma homeEscapes_iff {env : Environment} {path : Path} {account : String} {fault : Fault}
    (haccount : account? path = some account) : HomeEscapes env path fault ↔
      '\x00' ∈ account.toList ∧ fault = .badValue ∨
        '\x00' ∉ account.toList ∧ fault = .homeless ∧
          ∀ home, env.home? account = some home → home.toList.head? = some '~' := by
  constructor
  · rintro (⟨haccount', hzero⟩ | ⟨haccount', hzero, hhome⟩)
    · obtain rfl := Option.some.inj (haccount.symm.trans haccount')
      exact .inl ⟨hzero, rfl⟩
    · obtain rfl := Option.some.inj (haccount.symm.trans haccount')
      exact .inr ⟨hzero, rfl, hhome⟩
  · rintro (⟨hzero, rfl⟩ | ⟨hzero, rfl, hhome⟩)
    · exact .unnamable haccount hzero
    · exact .homeless haccount hzero hhome

/-- A path is expanded, or a fault escapes. -/
theorem settles_expandHome (env : Environment) (path : Path) :
    Settles (fun _ => True) (HomeEscapes env path) (orFail (env.expandHome path)) := by
  unfold expandHome
  cases haccount : account? path with
  | none =>
    refine .value trivial ?_
    rintro fault (⟨haccount', -⟩ | ⟨haccount', -⟩)
    · cases haccount.symm.trans haccount'
    · cases haccount.symm.trans haccount'
  | some account =>
    refine Settles.congr ?_ fun fault => (homeEscapes_iff haccount).symm
    dsimp only
    split_ifs with hzero
    · rw [List.contains_iff_mem] at hzero
      exact .escaped fun other => by simp [hzero]
    rw [List.contains_iff_mem] at hzero
    cases hhome : env.home? account with
    | none => exact .escaped fun other => by simp [hzero]
    | some home =>
      dsimp only
      rw [String.toList_ofList]
      split
      case isTrue htilde =>
        rw [head?_trimmed] at htilde
        exact .escaped fun other => by simp [hzero, htilde]
      case isFalse htilde =>
        rw [head?_trimmed] at htilde
        exact .value trivial fun fault => by simp [hzero, htilde]

lemma isConfiguration_unreadable (name reason : String) :
    (Failure.unreadablePasswordFile name reason).IsConfiguration := ⟨_, rfl, rfl⟩

/-- Where the path is known, a fault escapes for its characters or for the bytes of the file. -/
lemma fileEscapes_iff {env : Environment} {name : String} {path : Path} {fault : Fault}
    (hpath : env.expandHome (Path.ofString name) = .ok path)
    (hhome : ∀ fault, ¬ HomeEscapes env (Path.ofString name) fault) :
    FileEscapes env name fault ↔
      '\x00' ∈ path.toString.toList ∧ fault = .badValue ∨
        '\x00' ∉ path.toString.toList ∧ fault = .undecodable ∧
          ∃ content, env.here.read path = .ok content ∧ Text.decode? content = none := by
  constructor
  · rintro (hhome' | ⟨hpath', hzero⟩ | ⟨hpath', hzero, hread, hcontent⟩)
    · exact absurd hhome' (hhome fault)
    · obtain rfl := Except.ok.inj (hpath.symm.trans hpath')
      exact .inl ⟨hzero, rfl⟩
    · obtain rfl := Except.ok.inj (hpath.symm.trans hpath')
      exact .inr ⟨hzero, rfl, _, hread, Text.decode?_eq_none_iff.2 hcontent⟩
  · rintro (⟨hzero, rfl⟩ | ⟨hzero, rfl, content, hread, hcontent⟩)
    · exact .unnamable hpath hzero
    · exact .undecodable hpath hzero hread (Text.decode?_eq_none_iff.1 hcontent)

/-- What is made of a password file, where its path is known. -/
lemma passwordFromFile_of_expandHome {env : Environment} {name : String} {path : Path}
    (hpath : env.expandHome (Path.ofString name) = .ok path) :
    env.passwordFromFile name =
      if path.toString.toList.contains '\x00' then .error (.fault .badValue)
      else
        match env.here.read path with
        | .error problem =>
          let error : SystemError := ⟨problem.number, problem.text, some path.toString⟩
          .error (.unreadablePasswordFile name error.text)
        | .ok content =>
          match Text.decode? content with
          | none => .error (.fault .undecodable)
          | some text =>
            let password := String.ofList (Text.trim (unixLines text.toList))
            if password = "" then .error (.unreadablePasswordFile name "file is empty")
            else .ok password := by
  rw [passwordFromFile, hpath]
  rfl

/-- A password file is read, or refused, or a fault escapes. -/
theorem settles_passwordFromFile (env : Environment) (name : String) :
    Settles (· ≠ "") (FileEscapes env name) (env.passwordFromFile name) := by
  have hexpanded := settles_expandHome env (Path.ofString name)
  cases hpath : env.expandHome (Path.ofString name) with
  | error fault =>
    rw [hpath] at hexpanded
    rw [passwordFromFile, hpath]
    cases hexpanded with
    | reported hfailure hnone =>
      obtain ⟨report, hreport, -⟩ := hfailure
      cases hreport
    | escaped hfault =>
      refine .escaped fun other => ⟨?_, fun h => .home ((hfault other).2 h)⟩
      rintro (hother | ⟨hpath', -⟩ | ⟨hpath', -⟩)
      · exact (hfault other).1 hother
      · cases hpath.symm.trans hpath'
      · cases hpath.symm.trans hpath'
  | ok path =>
    rw [hpath] at hexpanded
    rw [passwordFromFile_of_expandHome hpath]
    cases hexpanded with
    | value _ hhome =>
      refine Settles.congr ?_ fun fault => (fileEscapes_iff hpath hhome).symm
      split_ifs with hzero
      · rw [List.contains_iff_mem] at hzero
        exact .escaped fun other => by simp [hzero]
      rw [List.contains_iff_mem] at hzero
      cases hread : env.here.read path with
      | error problem =>
        exact .reported (isConfiguration_unreadable name _) fun fault => by simp [hzero]
      | ok content =>
        dsimp only
        cases hcontent : Text.decode? content with
        | none => exact .escaped fun other => by simp [hzero, hcontent]
        | some text =>
          dsimp only
          split_ifs with hpassword
          · exact .reported (isConfiguration_unreadable name _) fun fault => by
              simp [hzero, hcontent]
          · exact .value hpassword fun fault => by simp [hzero, hcontent]

/-- The password is found, or refused, or a fault escapes. -/
theorem settles_password (env : Environment) :
    Settles (· ≠ "") (PasswordEscapes env) env.password := by
  unfold password
  cases hpassword : env.given? "RESTIC_PASSWORD" with
  | some password =>
    refine .value (ne_empty_of_given? hpassword) ?_
    rintro fault ⟨hnone, -⟩
    cases hpassword.symm.trans hnone
  | none =>
    cases hfile : env.given? "RESTIC_PASSWORD_FILE" with
    | none =>
      refine .reported ⟨_, rfl, rfl⟩ ?_
      rintro fault ⟨-, name, hname, -⟩
      cases hfile.symm.trans hname
    | some name =>
      refine (settles_passwordFromFile env name).congr fun fault => ?_
      simp [PasswordEscapes, hpassword, hfile]

/-- **The password that was written to a file is read from it**, from an absolute path whatever the
current directory is, without the white space around it. -/
theorem password_of_insert {env : Environment} {name text : String} {path : Path}
    {tree : FileTree} (hpassword : env.given? "RESTIC_PASSWORD" = none)
    (hname : env.given? "RESTIC_PASSWORD_FILE" = some name)
    (hpath : env.expandHome (Path.ofString name) = .ok path)
    (hzero : '\x00' ∉ path.toString.toList)
    (hfile : (env.here.start path).node = tree.insert path.parts (.file (Text.encode text)))
    (hparts : FileTree.Place.LeadsDown path.parts)
    (hlength : path.toString.utf8ByteSize ≤ FileTree.maxPath)
    (htext : String.ofList (Text.trim (unixLines text.toList)) ≠ "") :
    env.password = .ok (String.ofList (Text.trim (unixLines text.toList))) := by
  have hread : env.here.read path = .ok (Text.encode text) :=
    FileTree.Place.read_insert hfile hparts hlength
  rw [password, hpassword, hname]
  show env.passwordFromFile name = _
  rw [passwordFromFile_of_expandHome hpath, if_neg (mt List.contains_iff_mem.1 hzero), hread]
  dsimp only
  rw [Text.decode?_eq_some_iff.2 rfl]
  exact if_neg htext

example : password {
    values := [("RESTIC_PASSWORD_FILE", "/srv/password")]
    above := [⟨"work", [("srv", .directory [("password", .file [0x70, 0x0A])])]⟩] } = .ok "p" := rfl

example : password {
    values := [("RESTIC_PASSWORD_FILE", "~backup/password")]
    above := [⟨"work", [("srv", .directory [("password", .file [0x70, 0x0A])])]⟩]
    accounts := { named := [("backup", "/srv/")] } } = .ok "p" := rfl

/-! ### The flags -/

/-- The flags are split into words, or a fault escapes. -/
theorem settles_flags (env : Environment) :
    Settles (fun _ => True) (FlagsEscape env) (orFail env.flags) := by
  unfold flags
  cases htext : env.given? "RESTICORCH_FLAGS" with
  | none =>
    refine .value trivial ?_
    rintro fault ⟨-, text, htext', -⟩
    cases htext.symm.trans htext'
  | some text =>
    dsimp only
    cases hwords : Text.shellWords? text with
    | none =>
      have hopen := (Text.shellWords?_eq_none_iff text).1 hwords
      exact .escaped fun other => ⟨And.left, fun h => ⟨h, text, htext, hopen⟩⟩
    | some words =>
      refine .value trivial ?_
      rintro fault ⟨-, text', htext', hopen⟩
      obtain rfl := Option.some.inj (htext.symm.trans htext')
      cases hwords.symm.trans ((Text.shellWords?_eq_none_iff text).2 hopen)

/-! ### The description -/

/-- The parts that an environment gives to a description, apart from the password. -/
def partsFrom (env : Environment) (location : String) (flags : List String) :
    Description.Parts where
  location := .str location
  flags := flags.map .str
  binary := .str ((env.given? "RESTICORCH_BINARY").getD "restic")
  environment := .record []
  workdir := .null
  label := .str ""

/-- The options that an environment gives. -/
def stepsFrom (env : Environment) (flags : List String) : List Step :=
  match env.given? "RESTICORCH_BINARY" with
  | none => [Step.globalFlags (flags.map .str)]
  | some binary => [Step.globalFlags (flags.map .str), Step.binary (.str binary)]

lemma create_stepsFrom (env : Environment) (location password : String) (flags : List String) :
    Description.create (.str location) (.str password) (env.stepsFrom flags) [] =
      Description.ofFields ((env.partsFrom location flags).fields (.str password)) := by
  have htexts : (flags.map Value.str).map Value.text = flags := by
    rw [List.map_map]
    exact List.map_id flags
  unfold partsFrom stepsFrom
  cases hbinary : env.given? "RESTICORCH_BINARY" with
  | none =>
    simp only [Step.globalFlags, Step.appendTexts, htexts]
    rfl
  | some binary =>
    have htruthy : (Value.str binary).truthy = true :=
      bne_iff_ne.2 (ne_empty_of_given? hbinary)
    simp only [Step.globalFlags, Step.appendTexts, htexts]
    show Description.ofFields (Description.Parts.fields ⟨.str location, flags.map .str,
      if (Value.str binary).truthy then .str binary else .str "restic", .record [], .null, .str ""⟩
        (.str password)) = _
    rw [if_pos htruthy]
    rfl

/-- A description is made, or refused, or a fault escapes. -/
theorem settles_description (env : Environment) :
    Settles Description.IsValid env.Escapes env.description := by
  unfold description
  cases hlocation : env.given? "RESTIC_REPOSITORY" with
  | none =>
    refine .reported ⟨_, rfl, rfl⟩ ?_
    rintro fault (⟨hlocation', -⟩ | ⟨hlocation', -⟩)
    · cases hlocation.symm.trans hlocation'
    · cases hlocation.symm.trans hlocation'
  | some location =>
    dsimp only
    have hpasswords := settles_password env
    generalize hpassword : env.password = password? at hpasswords
    cases hpasswords with
    | reported hfailure hnone =>
      refine .reported hfailure ?_
      rintro fault (⟨-, hfault⟩ | ⟨-, hpassword', -⟩)
      · exact hnone fault hfault
      · cases hpassword.symm.trans hpassword'
    | escaped hfault =>
      refine .escaped fun other => ⟨?_, fun h => .password hlocation ((hfault other).2 h)⟩
      rintro (⟨-, hother⟩ | ⟨-, hpassword', -⟩)
      · exact (hfault other).1 hother
      · cases hpassword.symm.trans hpassword'
    | @value password _ hnone =>
      -- behind the password only the flags can let a fault escape
      have hescapes (fault : Fault) : FlagsEscape env fault ↔ env.Escapes fault := by
        refine ⟨.flags hlocation hpassword, ?_⟩
        rintro (⟨-, hfault⟩ | ⟨-, -, hfault⟩)
        · exact absurd hfault (hnone fault)
        · exact hfault
      refine Settles.congr ?_ hescapes
      have hflags := settles_flags env
      generalize orFail env.flags = flags? at hflags
      cases hflags with
      | reported hfailure hnone => exact .reported hfailure hnone
      | escaped hfault => exact .escaped hfault
      | @value flags _ hnone =>
        show Settles _ _
          (Description.create (.str location) (.str password) (env.stepsFrom flags) [])
        rw [create_stepsFrom]
        rcases Description.ofFields_cases (env.partsFrom location flags) (.str password) rfl with
          ⟨d, hd, hvalid⟩ | ⟨problems, hproblems⟩
        · rw [hd]
          exact .value hvalid hnone
        · rw [hproblems]
          exact .reported ⟨_, rfl, rfl⟩ hnone

/-- **A description is made or refused as a failure of configuration exactly if no fault escapes**
from the home directory, the name or the bytes of the password file, or the flags. -/
theorem description_reported_iff (env : Environment) :
    (∀ fault, env.description = .error (.fault fault) ↔ env.Escapes fault) ∧
      (((∃ d, env.description = .ok d ∧ d.IsValid) ∨
        ∃ failure, env.description = .error failure ∧ failure.IsConfiguration) ↔
          ∀ fault, ¬ env.Escapes fault) := by
  have hsettles := settles_description env
  generalize env.description = description? at hsettles
  cases hsettles with
  | value hvalid hnone =>
    exact ⟨fun fault => iff_of_false (fun h => nomatch h) (hnone fault),
      iff_of_true (.inl ⟨_, rfl, hvalid⟩) hnone⟩
  | reported hfailure hnone =>
    refine ⟨fun fault => iff_of_false ?_ (hnone fault), iff_of_true (.inr ⟨_, rfl, hfailure⟩) hnone⟩
    rintro ⟨⟩
    obtain ⟨report, hreport, -⟩ := hfailure
    cases hreport
  | @escaped fault hfault =>
    refine ⟨fun other => ?_, iff_of_false ?_ fun h => h fault ((hfault fault).2 rfl)⟩
    · rw [hfault other]
      constructor
      · rintro ⟨⟩
        rfl
      · rintro rfl
        rfl
    · rintro (⟨d, hd, -⟩ | ⟨failure, hfailure, report, hreport, -⟩)
      · cases hd
      · cases hfailure
        cases hreport

/-- A quote that the flags leave open is not reported, and neither is a byte of the password file
that no text has. -/
theorem open_quote_escapes :
    let quote : Environment := { values := [("RESTIC_REPOSITORY", "/repo"),
      ("RESTIC_PASSWORD", "pw"), ("RESTICORCH_FLAGS", "--pack-size \"16")] }
    let byte : Environment := {
      values := [("RESTIC_REPOSITORY", "/repo"), ("RESTIC_PASSWORD_FILE", "/etc/pw")]
      above := [⟨"home", [("etc", .directory [("pw", .file [0xFF])])]⟩] }
    quote.description = .error (.fault .badValue) ∧
      byte.description = .error (.fault .undecodable) ∧
      ¬ ∀ env : Environment, (∃ d, env.description = .ok d ∧ d.IsValid) ∨
        ∃ failure, env.description = .error failure ∧ failure.IsConfiguration := by
  intro quote byte
  have hquote : quote.description = .error (.fault .badValue) := rfl
  have hbyte : byte.description = .error (.fault .undecodable) := rfl
  refine ⟨hquote, hbyte, fun h => ?_⟩
  rcases h quote with ⟨d, hd, -⟩ | ⟨failure, hfailure, report, hreport, -⟩
  · cases hquote.symm.trans hd
  · cases hquote.symm.trans hfailure
    cases hreport

end Environment

end BackupSteward
