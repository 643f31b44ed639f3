import BackupSteward.Proofs.Engine.Variables
import BackupSteward.Proofs.Options.Growth
import BackupSteward.Repository.Basic

/-!
# How a repository is made with a password

The options and settings of a repository neither read the password nor set it.  So two repositories
that are made in the same way but for the password are the same but for the password, or are refused
for the same reason.
-/

namespace BackupSteward

/-! ### Records of arguments -/

namespace Step

/-- Two records of arguments that agree in all but the password, and name each variable once. -/
structure Twins (p q : Fields) : Prop where
  agree (name : String) : name ≠ "password" → q.get? name = p.get? name
  distinct {vars : Fields} : variablesIn p = .ok vars → vars.names.Nodup

variable {p q : Fields}

lemma Twins.put (h : Twins p q) {name : String} {v : Value}
    (hvars : name = "env" → ∀ vars : Fields, v = .record vars → vars.names.Nodup) :
    Twins (p.put name v) (q.put name v) where
  agree field hfield := by
    rw [Fields.get?_put, Fields.get?_put, h.agree field hfield]
  distinct {vars} hvariables := by
    by_cases henv : name = "env"
    · subst henv
      rw [variablesIn, Fields.get?_put, if_pos rfl] at hvariables
      split at hvariables
      case h_1 hnone => cases hnone
      case h_2 hrecord =>
        cases hrecord
        cases hvariables
        exact hvars rfl vars rfl
      case h_3 => cases hvariables
    · rw [variablesIn_put v henv] at hvariables
      exact h.distinct hvariables

lemma Twins.put_of_ne (h : Twins p q) {name : String} (v : Value) (hname : name ≠ "env") :
    Twins (p.put name v) (q.put name v) :=
  h.put fun henv => absurd henv hname

mutual

/-- A change of the kind that options make does the same whatever the password is. -/
theorem twins_apply : ∀ (step : Step) {p q r : Fields}, Offered step → Twins p q →
    apply step p = .ok r → ∃ t, apply step q = .ok t ∧ Twins r t
  | append field texts, p, q, r, hoffered, h, hr => by
    rw [Offered] at hoffered
    have hpassword : field ≠ "password" := fun heq => absurd hoffered (by rw [heq]; decide)
    have henv : field ≠ "env" := fun heq => absurd hoffered (by rw [heq]; decide)
    have hlist : listIn q field = listIn p field := by rw [listIn, h.agree field hpassword, listIn]
    rw [apply] at hr ⊢
    rw [hlist]
    cases hxs : listIn p field with
    | error fault =>
      rw [hxs] at hr
      cases hr
    | ok xs =>
      rw [hxs] at hr
      cases hr
      exact ⟨_, rfl, h.put_of_ne _ henv⟩
  | assign field value, p, q, r, hoffered, h, hr => by
    rw [Offered] at hoffered
    rw [apply] at hr ⊢
    cases hr
    exact ⟨_, rfl, h.put_of_ne value (not_mem_listFields hoffered).2⟩
  | addVariables more, p, q, r, hoffered, h, hr => by
    have hvars : variablesIn q = variablesIn p := by
      rw [variablesIn, h.agree "env" (by decide), variablesIn]
    rw [apply] at hr ⊢
    rw [hvars]
    cases hp : variablesIn p with
    | error fault =>
      rw [hp] at hr
      cases hr
    | ok vars =>
      rw [hp] at hr
      cases hr
      refine ⟨_, rfl, h.put fun _ => ?_⟩
      rintro _ ⟨⟩
      exact Fields.nodup_putAll (h.distinct hp) more
  | sequence steps, p, q, r, hoffered, h, hr => by
    rw [Offered] at hoffered
    rw [apply] at hr ⊢
    exact twins_applyAll steps hoffered h hr

/-- Several changes of the kind that options make do the same whatever the password is. -/
theorem twins_applyAll : ∀ (steps : List Step) {p q r : Fields}, AllOffered steps → Twins p q →
    applyAll steps p = .ok r → ∃ t, applyAll steps q = .ok t ∧ Twins r t
  | [], p, q, r, _, h, hr => by
    rw [applyAll] at hr ⊢
    cases hr
    exact ⟨q, rfl, h⟩
  | step :: steps, p, q, r, hoffered, h, hr => by
    rw [AllOffered] at hoffered
    rw [applyAll] at hr ⊢
    cases hp : apply step p with
    | error fault =>
      rw [hp] at hr
      cases hr
    | ok u =>
      obtain ⟨v, hq, huv⟩ := twins_apply step hoffered.1 h hp
      rw [hp] at hr
      rw [hq]
      exact twins_applyAll steps hoffered.2 huv hr

end

end Step

namespace Description

open Step

/-- Settings that a caller can give: a record of variables names each of them once. -/
def ProperSettings (settings : Fields) : Prop :=
  ∀ vars : Fields, ("env", .record vars) ∈ settings → vars.names.Nodup

/-- Neither the location nor the password is among some settings. -/
def Spares (settings : Fields) : Prop :=
  ∀ setting ∈ settings, setting.1 ≠ "uri" ∧ setting.1 ≠ "password"

lemma putKnown_cons (fields : Fields) (setting : String × Value) (settings : Fields) :
    putKnown fields (setting :: settings) =
      putKnown (if (fields.get? setting.1).isSome then fields.put setting.1 setting.2 else fields)
        settings :=
  rfl

lemma get?_putKnown {name : String} {settings : Fields} (h : ∀ setting ∈ settings, setting.1 ≠ name)
    (fields : Fields) : (putKnown fields settings).get? name = fields.get? name := by
  induction settings generalizing fields with
  | nil => rfl
  | cons setting settings ih =>
    obtain ⟨hne, hrest⟩ := List.forall_mem_cons.1 h
    rw [putKnown_cons, ih hrest]
    split
    · rw [Fields.get?_put, if_neg hne]
    · rfl

lemma twins_putKnown {settings : Fields} (hspares : Spares settings)
    (hproper : ProperSettings settings) {p q : Fields} (h : Twins p q) :
    Twins (putKnown p settings) (putKnown q settings) := by
  induction settings generalizing p q with
  | nil => exact h
  | cons setting settings ih =>
    obtain ⟨name, v⟩ := setting
    obtain ⟨hname, hrest⟩ := List.forall_mem_cons.1 hspares
    have hproper' : ProperSettings settings :=
      fun vars hvars => hproper vars (List.mem_cons_of_mem _ hvars)
    rw [putKnown_cons, putKnown_cons, h.agree name hname.2]
    apply ih hrest hproper'
    split
    · refine h.put ?_
      rintro rfl vars rfl
      exact hproper vars List.mem_cons_self
    · exact h

/-! ### Descriptions -/

/-- A description with another password. -/
def withPassword (d : Description) (password : Value) : Description := { d with password }

/-- The variables of a description. -/
def ownVariables (d : Description) : Fields := d.environment.map fun v => (v.1, .str v.2)

lemma map_of_textVariables? {vars : Fields} {environment : List (String × String)}
    (h : textVariables? vars = some environment) :
    (environment.map fun v => (v.1, .str v.2)) = vars := by
  induction vars generalizing environment with
  | nil =>
    cases h
    rfl
  | cons field vars ih =>
    obtain ⟨name, v⟩ := field
    cases v with
    | str text =>
      rw [textVariables?] at h
      split at h
      case isTrue =>
        obtain ⟨rest, hrest, rfl⟩ := Option.map_eq_some_iff.1 h
        rw [List.map_cons, ih hrest]
      case isFalse => cases h
    | _ => cases h

/-- All of a description but the password, before it is checked. -/
structure Parts where
  location : Value
  flags : List Value
  binary : Value
  environment : Value
  workdir : Value
  label : Value

/-- The fields of a description with some parts and a password. -/
def Parts.fields (parts : Parts) (password : Value) : Fields :=
  [("uri", parts.location), ("password", password), ("flags", .tuple parts.flags),
    ("binary", parts.binary), ("env", parts.environment), ("cwd", parts.workdir),
    ("repo_id", parts.label)]

/-- What is wrong with a description of some parts. -/
def Parts.problems (parts : Parts) (password : Value) : List DescriptionProblem :=
  Description.problems parts.location password parts.binary parts.flags parts.environment

/-- A description has some parts and a password. -/
structure Made (parts : Parts) (password : Value) (d : Description) : Prop where
  location : d.location = parts.location
  password : d.password = password
  environment : environment? parts.environment = some d.environment

lemma ofFields_parts (parts : Parts) (password : Value) :
    ofFields (parts.fields password) = (do
      let workdir ← orFail (workdirOf parts.workdir)
      match parts.problems password, flags? parts.flags, environment? parts.environment with
      | [], some flags, some environment =>
        .ok ⟨parts.location, password, flags, parts.binary, environment, workdir, parts.label⟩
      | problems, _, _ => .error (.invalidDescription problems)) := rfl

/-- A description is refused or not whatever the password is, if there is one. -/
lemma ofFields_withPassword (parts : Parts) {p q : Value} (hp : p.truthy = true)
    (hq : q.truthy = true) :
    ofFields (parts.fields q) = (ofFields (parts.fields p)).map (·.withPassword q) := by
  have hproblems : parts.problems q = parts.problems p := by
    rw [Parts.problems, problems, hq, Parts.problems, problems, hp]
  rw [ofFields_parts, ofFields_parts, hproblems]
  cases workdirOf parts.workdir with
  | error fault => rfl
  | ok workdir =>
    show (match parts.problems p, flags? parts.flags, environment? parts.environment with
      | [], some flags, some environment => _
      | problems, _, _ => _) = Except.map _ (match parts.problems p, flags? parts.flags,
          environment? parts.environment with
      | [], some flags, some environment => _
      | problems, _, _ => _)
    split <;> rfl

lemma made_of_ofFields {parts : Parts} {p : Value} {d : Description}
    (h : ofFields (parts.fields p) = .ok d) : Made parts p d := by
  rw [ofFields_parts] at h
  obtain ⟨workdir, -, h⟩ := bind_eq_ok.1 h
  split at h
  case h_1 henvironment =>
    cases h
    exact ⟨rfl, rfl, henvironment⟩
  case h_2 => cases h

/-- The parts that a complete record of arguments gives. -/
def partsOf (fields : Fields) : Except Failure Parts := do
  let flags ← orFail (listIn fields "flags")
  let environment ← orFail (variablesFrom ((fields.get? "env").getD (.record [])))
  let binary := match fields.get? "binary" with
    | some v => if v.truthy then v else .str "restic"
    | none => .str "restic"
  return ⟨(fields.get? "uri").getD .null, flags, binary, environment,
    (fields.get? "cwd").getD .null, (fields.get? "repo_id").getD (.str "")⟩

lemma ofArguments_eq (fields : Fields) :
    ofArguments fields = (do
      let parts ← partsOf fields
      ofFields (parts.fields ((fields.get? "password").getD .null))) := by
  unfold ofArguments partsOf
  cases listIn fields "flags" with
  | error fault => rfl
  | ok flags =>
    cases variablesFrom ((fields.get? "env").getD (.record [])) with
    | error fault => rfl
    | ok environment => rfl

lemma partsOf_twins {p q : Fields} (h : Twins p q) : partsOf q = partsOf p := by
  unfold partsOf listIn
  rw [h.agree "flags" (by decide), h.agree "env" (by decide), h.agree "binary" (by decide),
    h.agree "uri" (by decide), h.agree "cwd" (by decide), h.agree "repo_id" (by decide)]

lemma partsOf_eq_ok {fields : Fields} {parts : Parts} (h : partsOf fields = .ok parts) :
    parts.location = (fields.get? "uri").getD .null ∧
      variablesFrom ((fields.get? "env").getD (.record [])) = .ok parts.environment := by
  unfold partsOf at h
  obtain ⟨flags, -, h⟩ := bind_eq_ok.1 h
  obtain ⟨environment, henvironment, h⟩ := bind_eq_ok.1 h
  cases h
  refine ⟨rfl, ?_⟩
  cases hfrom : variablesFrom ((fields.get? "env").getD (.record [])) <;>
    rw [hfrom] at henvironment <;> cases henvironment
  rfl

/-! ### Variables -/

lemma nodup_collectPairs {items : List Value} {found vars : Fields} (h : found.names.Nodup)
    (hvars : collectPairs items found = .ok (some vars)) : vars.names.Nodup := by
  induction items generalizing found with
  | nil =>
    cases hvars
    exact h
  | cons item items ih =>
    rw [collectPairs] at hvars
    split at hvars
    case h_1 => cases hvars
    case h_2 name v _ => exact ih (Fields.nodup_put h name v) hvars
    case h_3 =>
      cases hrest : collectPairs items found <;> rw [hrest] at hvars <;> cases hvars

lemma nodup_variablesFrom {v : Value} {vars : Fields}
    (h : ∀ own : Fields, v = .record own → own.names.Nodup)
    (hvars : variablesFrom v = .ok (.record vars)) : vars.names.Nodup := by
  unfold variablesFrom at hvars
  split at hvars
  case h_1 own =>
    cases hvars
    exact h vars rfl
  case h_2 =>
    split at hvars
    case h_1 => cases hvars
    case h_2 items _ =>
      rcases hfound : collectPairs items [] with fault | _ | found <;> rw [hfound] at hvars <;>
        cases hvars
      exact nodup_collectPairs (show (Fields.names []).Nodup from List.nodup_nil) hfound

/-- A description that is made of arguments with each variable once has each variable once. -/
lemma nodup_of_made {fields : Fields} {parts : Parts} {password : Value} {d : Description}
    (hdistinct : ∀ vars, variablesIn fields = .ok vars → vars.names.Nodup)
    (hparts : partsOf fields = .ok parts) (hmade : Made parts password d) :
    d.ownVariables.names.Nodup := by
  obtain ⟨-, hfrom⟩ := partsOf_eq_ok hparts
  have henvironment := hmade.environment
  cases hrecord : parts.environment with
  | record own =>
    rw [hrecord] at hfrom henvironment
    have hown : d.ownVariables = own := map_of_textVariables? henvironment
    rw [hown]
    refine nodup_variablesFrom (fun vars hvars => ?_) hfrom
    cases hget : fields.get? "env" with
    | none =>
      rw [hget] at hvars
      cases hvars
      exact List.nodup_nil
    | some v =>
      rw [hget] at hvars
      cases hvars
      exact hdistinct vars (by rw [variablesIn, hget])
  | _ =>
    rw [hrecord] at henvironment
    cases henvironment

/-! ### Making a description -/

/-- The arguments of a repository before any option is applied. -/
def blankArguments (location password : Value) : Fields :=
  (emptyRepository.put "uri" (.str location.text)).put "password" password

lemma twins_blankArguments (location p q : Value) :
    Twins (blankArguments location p) (blankArguments location q) where
  agree name hname := by
    have hput : ∀ password, (blankArguments location password).get? name =
        (emptyRepository.put "uri" (.str location.text)).get? name := by
      intro password
      rw [blankArguments, Fields.get?_put, if_neg hname.symm]
    rw [hput, hput]
  distinct {vars} hvars := by
    cases hvars
    exact List.nodup_nil

lemma ready_blankArguments (location password : Value) :
    Ready (blankArguments location password) where
  lists := by
    simp [listFields, HoldsList, blankArguments, emptyRepository, Fields.get?]
  environment := ⟨[], rfl⟩

lemma spares_iff {settings : Fields} :
    Spares settings ↔ ¬ (settings.names.any fun n => n = "uri" || n = "password") = true := by
  simp [Spares, Fields.names]

/-- Settings that name the location or the password are refused. -/
lemma create_of_not_spares {settings : Fields} (h : ¬ Spares settings) (location password : Value)
    (steps : List Step) : create location password steps settings = .error (.fault .badType) := by
  rw [create, if_pos (not_not.1 (mt spares_iff.2 h))]
  rfl

/-- What options and settings make of the arguments of a repository. -/
structure Completes (location password : Value) (steps : List Step) (settings fields : Fields) :
    Prop where
  create_eq : create location password steps settings = ofArguments fields
  location : fields.get? "uri" = some (.str location.text)
  password : fields.get? "password" = some password

lemma completes_of_applyAll {location password : Value} {steps : List Step}
    {settings fields : Fields} (hoffered : AllOffered steps) (hspares : Spares settings)
    (hfields : applyAll steps (blankArguments location password) = .ok fields) :
    Completes location password steps settings (putKnown fields settings) := by
  obtain ⟨fields', hfields', hgrows⟩ :=
    grows_applyAll steps hoffered (ready_blankArguments location password)
  cases hfields.symm.trans hfields'
  have huri := hgrows.fixed "uri" (by decide) (by decide) (by decide)
  have hpassword := hgrows.fixed "password" (by decide) (by decide) (by decide)
  refine ⟨?_, ?_, ?_⟩
  · rw [create, if_neg (spares_iff.1 hspares)]
    show (do
      let fields ← orFail (applyAll steps (blankArguments location password))
      ofArguments (putKnown fields settings)) = _
    rw [hfields]
    rfl
  · rw [get?_putKnown fun setting hsetting => (hspares setting hsetting).1, huri]
    rfl
  · rw [get?_putKnown fun setting hsetting => (hspares setting hsetting).2, hpassword]
    rfl

/-- With two passwords, options and settings make arguments that agree in all but these. -/
lemma exists_completes {steps : List Step} {settings : Fields} (hoffered : AllOffered steps)
    (hspares : Spares settings) (hproper : ProperSettings settings) (location p q : Value) :
    ∃ a b, Twins a b ∧ Completes location p steps settings a ∧
      Completes location q steps settings b := by
  obtain ⟨a, ha, -⟩ := grows_applyAll steps hoffered (ready_blankArguments location p)
  obtain ⟨b, hb, htwins⟩ := twins_applyAll steps hoffered (twins_blankArguments location p q) ha
  exact ⟨_, _, twins_putKnown hspares hproper htwins, completes_of_applyAll hoffered hspares ha,
    completes_of_applyAll hoffered hspares hb⟩

/-- With another password a description is made that differs in it only, or is refused for the same
reason. -/
theorem create_withPassword {steps : List Step} {settings : Fields} (hoffered : AllOffered steps)
    (hproper : ProperSettings settings) (location : Value) {p q : Value} (hp : p.truthy = true)
    (hq : q.truthy = true) :
    create location q steps settings =
      (create location p steps settings).map (·.withPassword q) := by
  by_cases hspares : Spares settings
  · obtain ⟨a, b, htwins, ha, hb⟩ := exists_completes hoffered hspares hproper location p q
    rw [ha.create_eq, hb.create_eq, ofArguments_eq, ofArguments_eq, partsOf_twins htwins,
      ha.password, hb.password]
    cases partsOf a with
    | error failure => rfl
    | ok parts => exact ofFields_withPassword parts hp hq
  · rw [create_of_not_spares hspares, create_of_not_spares hspares]
    rfl

/-- A description has the location and the password that it is made with, and names each variable
once. -/
theorem create_eq_ok {steps : List Step} {settings : Fields} (hoffered : AllOffered steps)
    (hproper : ProperSettings settings) {location password : Value} {d : Description}
    (h : create location password steps settings = .ok d) :
    d.location = .str location.text ∧ d.password = password ∧ d.ownVariables.names.Nodup := by
  by_cases hspares : Spares settings
  case neg =>
    rw [create_of_not_spares hspares] at h
    cases h
  obtain ⟨a, b, htwins, ha, -⟩ :=
    exists_completes hoffered hspares hproper location password password
  rw [ha.create_eq, ofArguments_eq, ha.password] at h
  obtain ⟨parts, hparts, hd⟩ := bind_eq_ok.1 h
  have hmade := made_of_ofFields hd
  refine ⟨?_, hmade.password, nodup_of_made (fun vars => htwins.distinct) hparts hmade⟩
  rw [hmade.location, (partsOf_eq_ok hparts).1, ha.location]
  rfl

end Description

end BackupSteward
