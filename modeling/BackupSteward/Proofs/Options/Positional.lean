import BackupSteward.Proofs.Options.Composition

/-!
# Backup paths and flags

The arguments of a backup are flags with one value each, in a fixed order, and behind them the
paths.  Nothing stands between the two, so that the same arguments may be those of several options:
paths that begin like a flag and its value are also the arguments of options that give this flag.
The file tells when paths can be taken for flags, and shows that arguments without such paths tell
the options.
-/

namespace BackupSteward

namespace Options

open Step

/-- The flags of a backup, in the order in which they are rendered. -/
def flagOrder : List String := ["--exclude", "--iexclude", "--tag", "--host", "--parent"]

/-- The flags that are given once for each of several values. -/
def repeatedFlags : List String := ["--exclude", "--iexclude", "--tag"]

/-- A flag may stand in front of one that comes later in the order, and of itself if it is
repeated. -/
def Precedes (flag other : String) : Prop :=
  [flag, other].Sublist flagOrder ∨ flag = other ∧ flag ∈ repeatedFlags

instance (flag other : String) : Decidable (Precedes flag other) :=
  inferInstanceAs (Decidable (_ ∨ _))

/-- What the options of a backup supply, further flags apart. -/
structure BackupOptions where
  paths : List String
  excludes : List String
  excludesAnyCase : List String
  tags : List String
  host : Value
  parent : Value

/-- Flags with their values, as they are rendered. -/
def written (flags : List (String × Value)) : List Value :=
  flags.flatMap fun flag => [.str flag.1, flag.2]

namespace BackupOptions

variable (o : BackupOptions)

/-- The values that are given for a flag. -/
def values (flag : String) : List Value :=
  if flag = "--exclude" then o.excludes.map .str
  else if flag = "--iexclude" then o.excludesAnyCase.map .str
  else if flag = "--tag" then o.tags.map .str
  else if flag = "--host" then if o.host.truthy then [o.host] else []
  else if flag = "--parent" then if o.parent.truthy then [o.parent] else []
  else []

/-- The flags that are given, with their values. -/
def flags : List (String × Value) :=
  flagOrder.flatMap fun flag => (o.values flag).map fun value => (flag, value)

/-- The arguments of a backup with these options. -/
def arguments : List Value := written o.flags ++ o.paths.map .str

/-- A flag with a value may follow the flags that are given. -/
structure MayFollow (flag value : String) : Prop where
  known : flag ∈ flagOrder
  given : flag ∈ repeatedFlags ∨ value ≠ ""
  inOrder : ∀ earlier ∈ o.flags, Precedes earlier.1 flag

/-- The paths do not begin with a flag and its value that may follow the flags that are given, with
another path behind. -/
def Positional : Prop :=
  ∀ flag value rest, o.paths = flag :: value :: rest → rest ≠ [] → ¬ o.MayFollow flag value

variable {o}

/-! ### The flags -/

lemma mem_flags {flag : String} {value : Value} :
    (flag, value) ∈ o.flags ↔ flag ∈ flagOrder ∧ value ∈ o.values flag := by
  simp [flags]

/-- A flag that is not repeated has one value at most, and that counts as given. -/
lemma values_cases {flag : String} (hflag : flag ∈ flagOrder) (o : BackupOptions) :
    flag ∈ repeatedFlags ∨ o.values flag = [] ∨
      ∃ value, value.truthy = true ∧ o.values flag = [value] := by
  simp only [flagOrder, List.mem_cons, List.not_mem_nil, or_false] at hflag
  rcases hflag with rfl | rfl | rfl | rfl | rfl
  · exact .inl (by decide)
  · exact .inl (by decide)
  · exact .inl (by decide)
  · cases hhost : o.host.truthy
    · exact .inr (.inl (by simp [values, hhost]))
    · exact .inr (.inr ⟨o.host, hhost, by simp [values, hhost]⟩)
  · cases hparent : o.parent.truthy
    · exact .inr (.inl (by simp [values, hparent]))
    · exact .inr (.inr ⟨o.parent, hparent, by simp [values, hparent]⟩)

/-- The flags stand in their order. -/
lemma pairwise_flags (o : BackupOptions) :
    o.flags.Pairwise fun earlier later => Precedes earlier.1 later.1 := by
  rw [flags, List.pairwise_flatMap]
  constructor
  · intro flag hflag
    rw [List.pairwise_map]
    rcases values_cases hflag o with hrepeated | hnil | ⟨value, -, hone⟩
    · exact List.pairwise_of_forall fun _ _ => .inr ⟨rfl, hrepeated⟩
    · rw [hnil]
      exact .nil
    · rw [hone]
      exact List.pairwise_singleton _ _
  · have horder : flagOrder.Pairwise Precedes := by decide
    refine horder.imp fun h first hfirst second hsecond => ?_
    obtain ⟨_, -, rfl⟩ := List.mem_map.1 hfirst
    obtain ⟨_, -, rfl⟩ := List.mem_map.1 hsecond
    exact h

/-- The flags tell their values. -/
lemma values_of_flags {flag : String} (hflag : flag ∈ flagOrder) (o : BackupOptions) :
    (o.flags.filterMap fun given => if given.1 = flag then some given.2 else none) =
      o.values flag := by
  simp only [flagOrder, List.mem_cons, List.not_mem_nil, or_false] at hflag
  rcases hflag with rfl | rfl | rfl | rfl | rfl <;> simp [flags, flagOrder, List.filterMap_map]

/-- Where a flag stands behind those of some options, it may follow them. -/
lemma mayFollow_of_flags {o o' : BackupOptions} {flag value : String}
    {more : List (String × Value)} (h : o'.flags = o.flags ++ (flag, .str value) :: more) :
    o.MayFollow flag value := by
  have hmem : (flag, .str value) ∈ o'.flags := by simp [h]
  obtain ⟨hknown, hvalue⟩ := mem_flags.1 hmem
  refine ⟨hknown, ?_, fun earlier hearlier => ?_⟩
  · rcases values_cases hknown o' with hrepeated | hnil | ⟨other, hgiven, hone⟩
    · exact .inl hrepeated
    · rw [hnil] at hvalue
      cases hvalue
    · rw [hone, List.mem_singleton] at hvalue
      subst hvalue
      exact .inr (by simpa [Value.truthy] using hgiven)
  · have hpairwise := pairwise_flags o'
    rw [h, List.pairwise_append] at hpairwise
    exact hpairwise.2.2 earlier hearlier _ List.mem_cons_self

/-- If a flag may follow, none that comes behind it in the order has been given. -/
lemma MayFollow.values_eq_nil {flag value later : String} (h : o.MayFollow flag value)
    (hlater : later ∈ flagOrder) (hnot : ¬ Precedes later flag) : o.values later = [] := by
  rw [List.eq_nil_iff_forall_not_mem]
  intro other hother
  exact hnot (h.inOrder (later, other) (mem_flags.2 ⟨hlater, hother⟩))

/-- With one more value for a flag that may follow, the flags are those before and this one. -/
lemma MayFollow.flags_eq {flag value : String} (h : o.MayFollow flag value) {o' : BackupOptions}
    (hsame : ∀ other, other ≠ flag → o'.values other = o.values other)
    (hgrown : o'.values flag = o.values flag ++ [.str value]) :
    o'.flags = o.flags ++ [(flag, .str value)] := by
  obtain ⟨front, behind, horder⟩ := List.append_of_mem h.known
  have hapart : flagOrder.Pairwise fun first later => first ≠ later ∧ ¬ Precedes later first := by
    decide
  rw [horder, List.pairwise_append, List.pairwise_cons] at hapart
  obtain ⟨-, ⟨hbehind, -⟩, hfront⟩ := hapart
  have hbefore : (front.flatMap fun other => (o'.values other).map fun v => (other, v)) =
      front.flatMap fun other => (o.values other).map fun v => (other, v) :=
    List.flatMap_congr fun other hmem => by
      rw [hsame other (hfront other hmem flag List.mem_cons_self).1]
  have hnone (other : String) (hmem : other ∈ behind) : o.values other = [] :=
    h.values_eq_nil (by simp [horder, hmem]) (hbehind other hmem).2
  have hafter : (behind.flatMap fun other => (o.values other).map fun v => (other, v)) = [] :=
    List.flatMap_eq_nil_iff.2 fun other hmem => by rw [hnone other hmem, List.map_nil]
  have hafter' : (behind.flatMap fun other => (o'.values other).map fun v => (other, v)) = [] :=
    List.flatMap_eq_nil_iff.2 fun other hmem => by
      rw [hsame other (hbehind other hmem).1.symm, hnone other hmem, List.map_nil]
  rw [flags, flags, horder, List.flatMap_append, List.flatMap_append, List.flatMap_cons,
    List.flatMap_cons, hbefore, hafter, hafter', hgrown]
  simp

/-- Options that give one more flag than others, with any paths. -/
lemma MayFollow.exists_options {flag value : String} (h : o.MayFollow flag value)
    (paths : List String) :
    ∃ o' : BackupOptions, o'.paths = paths ∧ o'.flags = o.flags ++ [(flag, .str value)] := by
  have hknown := h.known
  simp only [flagOrder, List.mem_cons, List.not_mem_nil, or_false] at hknown
  rcases hknown with rfl | rfl | rfl | rfl | rfl
  · refine ⟨{ o with paths := paths, excludes := o.excludes ++ [value] }, rfl,
      h.flags_eq (fun other hne => ?_) ?_⟩
    · simp [values, hne]
    · simp [values]
  · refine ⟨{ o with paths := paths, excludesAnyCase := o.excludesAnyCase ++ [value] }, rfl,
      h.flags_eq (fun other hne => ?_) ?_⟩
    · simp [values, hne]
    · simp [values]
  · refine ⟨{ o with paths := paths, tags := o.tags ++ [value] }, rfl,
      h.flags_eq (fun other hne => ?_) ?_⟩
    · simp [values, hne]
    · simp [values]
  · refine ⟨{ o with paths := paths, host := .str value }, rfl,
      h.flags_eq (fun other hne => ?_) ?_⟩
    · simp [values, hne]
    · have hvalue : value ≠ "" := h.given.resolve_left (by decide)
      rw [h.values_eq_nil (by decide) (by decide)]
      simp [values, Value.truthy, hvalue]
  · refine ⟨{ o with paths := paths, parent := .str value }, rfl,
      h.flags_eq (fun other hne => ?_) ?_⟩
    · simp [values, hne]
    · have hvalue : value ≠ "" := h.given.resolve_left (by decide)
      rw [h.values_eq_nil (by decide) (by decide)]
      simp [values, Value.truthy, hvalue]

/-! ### Two readings of the same arguments -/

/-- Two lists of flags with paths behind them that make the same arguments: where there are fewer
paths, there are more flags, and these are written as the other paths. -/
lemma exists_more_flags {flags flags' : List (String × Value)} {paths paths' : List String}
    (h : written flags ++ paths.map .str = written flags' ++ paths'.map .str)
    (hlength : paths'.length ≤ paths.length) :
    ∃ more, flags' = flags ++ more ∧ paths.map .str = written more ++ paths'.map .str := by
  induction flags generalizing flags' with
  | nil => exact ⟨flags', rfl, h⟩
  | cons flag flags ih =>
    cases flags' with
    | nil =>
      have hlengths := congrArg List.length h
      simp [written] at hlengths
      omega
    | cons flag' flags' =>
      obtain ⟨name, value⟩ := flag
      obtain ⟨name', value'⟩ := flag'
      simp only [written, List.flatMap_cons, List.cons_append, List.nil_append, List.cons.injEq,
        Value.str.injEq] at h
      obtain ⟨rfl, rfl, hrest⟩ := h
      obtain ⟨more, rfl, hpaths⟩ := ih hrest
      exact ⟨more, rfl, hpaths⟩

lemma map_str_inj {texts others : List String} (h : texts.map Value.str = others.map Value.str) :
    texts = others :=
  List.map_injective_iff.2 (fun _ _ => Value.str.inj) h

/-- Behind fewer flags stand more paths. -/
lemma suffix_of_length_le {o o' : BackupOptions} (h : o.arguments = o'.arguments)
    (hlength : o.paths.length ≤ o'.paths.length) : o.paths <:+ o'.paths := by
  obtain ⟨more, -, hpaths⟩ := exists_more_flags h.symm hlength
  obtain ⟨front, back, hsplit, -, hback⟩ := List.map_eq_append_iff.1 hpaths
  rw [hsplit, map_str_inj hback]
  exact List.suffix_append front o.paths

/-- Paths that cannot be taken for flags are among the paths, however the arguments are read. -/
lemma Positional.suffix {o o' : BackupOptions} (hpositional : o.Positional)
    (h : o.arguments = o'.arguments) (hsome : o'.paths ≠ []) : o.paths <:+ o'.paths := by
  rcases Nat.le_total o.paths.length o'.paths.length with hlength | hlength
  · exact suffix_of_length_le h hlength
  obtain ⟨more, hflags, hpaths⟩ := exists_more_flags h hlength
  cases more with
  | nil =>
    have hsame : o.paths = o'.paths := map_str_inj hpaths
    exact hsame ▸ List.suffix_refl o.paths
  | cons flag more =>
    -- the first flag that is given only in the other reading stands among the paths
    obtain ⟨name, value⟩ := flag
    exfalso
    have hlist :
        o.paths.map .str = .str name :: value :: (written more ++ o'.paths.map .str) := hpaths
    obtain ⟨first, tail, hfirst, hname, htail⟩ := List.map_eq_cons_iff.1 hlist
    obtain ⟨second, rest, hsecond, hvalue, hrest⟩ := List.map_eq_cons_iff.1 htail
    cases hname
    subst hvalue hsecond
    have hne : rest ≠ [] := by
      rintro rfl
      have hnil := List.append_eq_nil_iff.1 hrest.symm
      exact hsome (List.map_eq_nil_iff.1 hnil.2)
    exact hpositional name second rest hfirst hne (mayFollow_of_flags hflags)

/-- Paths that can be taken for flags are taken for flags in another reading of the arguments. -/
lemma exists_reading_of_not_positional {o : BackupOptions} (h : ¬ o.Positional) :
    ∃ o' : BackupOptions, o.arguments = o'.arguments ∧ o'.paths ≠ [] ∧ ¬ o.paths <:+ o'.paths := by
  unfold Positional at h
  push Not at h
  obtain ⟨flag, value, rest, hpaths, hne, hfollow⟩ := h
  obtain ⟨o', rfl, hflags⟩ := hfollow.exists_options rest
  refine ⟨o', ?_, hne, fun hsuffix => ?_⟩
  · rw [arguments, arguments, hpaths, hflags]
    simp [written]
  · have hlength := hsuffix.length_le
    rw [hpaths] at hlength
    simp only [List.length_cons] at hlength
    omega

/-- With the same paths the same arguments are those of the same flags. -/
lemma values_eq_of_paths {o o' : BackupOptions} (h : o.arguments = o'.arguments)
    (hpaths : o.paths = o'.paths) {flag : String} (hflag : flag ∈ flagOrder) :
    o.values flag = o'.values flag := by
  obtain ⟨more, hflags, hmore⟩ := exists_more_flags h (by rw [hpaths])
  have hnil : more = [] := by
    rw [hpaths] at hmore
    have hlength := congrArg List.length hmore
    cases more with
    | nil => rfl
    | cons flag more =>
      simp [written] at hlength
      omega
  rw [← values_of_flags hflag o, ← values_of_flags hflag o', hflags, hnil, List.append_nil]

lemma lists_eq_of_paths {o o' : BackupOptions} (h : o.arguments = o'.arguments)
    (hpaths : o.paths = o'.paths) :
    o.excludes = o'.excludes ∧ o.excludesAnyCase = o'.excludesAnyCase ∧ o.tags = o'.tags := by
  have hexcludes : o.values "--exclude" = o'.values "--exclude" :=
    values_eq_of_paths h hpaths (by decide)
  have hanyCase : o.values "--iexclude" = o'.values "--iexclude" :=
    values_eq_of_paths h hpaths (by decide)
  have htags : o.values "--tag" = o'.values "--tag" := values_eq_of_paths h hpaths (by decide)
  simp only [values, String.reduceEq, if_true, if_false] at hexcludes hanyCase htags
  exact ⟨map_str_inj hexcludes, map_str_inj hanyCase, map_str_inj htags⟩

/-- All arguments of a backup have a reading in which the paths cannot be taken for flags.  The
induction is on the number of paths: a reading in which they can be has another one with fewer. -/
lemma exists_positional (o : BackupOptions) (hsome : o.paths ≠ []) :
    ∃ o' : BackupOptions, o.arguments = o'.arguments ∧ o'.paths ≠ [] ∧ o'.Positional := by
  by_cases hpositional : o.Positional
  · exact ⟨o, rfl, hsome, hpositional⟩
  · obtain ⟨o₁, harguments, hsome₁, hnot⟩ := exists_reading_of_not_positional hpositional
    have hfewer : o₁.paths.length < o.paths.length :=
      Nat.lt_of_not_le fun hle => hnot (suffix_of_length_le harguments hle)
    obtain ⟨o', harguments', hsome', hpositional'⟩ := exists_positional o₁ hsome₁
    exact ⟨o', harguments.trans harguments', hsome', hpositional'⟩
termination_by o.paths.length

/-- Of the readings of the same arguments only one has paths that cannot be taken for flags. -/
lemma Positional.paths_eq {o o' : BackupOptions} (h : o.Positional) (h' : o'.Positional)
    (harguments : o.arguments = o'.arguments) (hsome : o.paths ≠ []) (hsome' : o'.paths ≠ []) :
    o.paths = o'.paths :=
  (h.suffix harguments hsome').eq_of_length_le (h'.suffix harguments.symm hsome).length_le

/-- The arguments in the order in which they are rendered. -/
lemma arguments_eq (o : BackupOptions) : o.arguments =
    flaggedTexts "--exclude" o.excludes ++ flaggedTexts "--iexclude" o.excludesAnyCase ++
      flaggedTexts "--tag" o.tags ++ (if o.host.truthy then [.str "--host", o.host] else []) ++
      (if o.parent.truthy then [.str "--parent", o.parent] else []) ++ o.paths.map .str := by
  cases hhost : o.host.truthy <;> cases hparent : o.parent.truthy <;>
    simp [arguments, written, flags, flagOrder, values, flaggedTexts, hhost, hparent,
      List.flatMap_map]

end BackupOptions

/-! ### What options of a backup supply -/

/-- The lists of a backup, further flags apart. -/
def backupLists : List String := ["paths", "excludes", "iexcludes", "tags"]

/-- The fields of a backup that are set. -/
def backupSettings : List String := ["host", "parent"]

/-- Options of a backup without further flags. -/
def WithoutFurtherFlags (steps : List Step) : Prop := MadeOf backupLists backupSettings steps

/-- What options of a backup supply. -/
def suppliedBy (steps : List Step) : BackupOptions where
  paths := addedByAll "paths" steps
  excludes := addedByAll "excludes" steps
  excludesAnyCase := addedByAll "iexcludes" steps
  tags := addedByAll "tags" steps
  host := lastOf "host" steps
  parent := lastOf "parent" steps

/-- Options that supply what is wanted. -/
def BackupOptions.toSteps (o : BackupOptions) : List Step :=
  [.append "paths" o.paths, .append "excludes" o.excludes, .append "iexcludes" o.excludesAnyCase,
    .append "tags" o.tags, .assign "host" o.host, .assign "parent" o.parent]

lemma BackupOptions.withoutFurtherFlags (o : BackupOptions) : WithoutFurtherFlags o.toSteps := by
  simp [WithoutFurtherFlags, MadeOf, toSteps, backupLists, backupSettings]

lemma BackupOptions.suppliedBy_toSteps (o : BackupOptions) : suppliedBy o.toSteps = o := by
  simp [suppliedBy, toSteps, addedByAll, added, lastOf, changesTo, onField, field?, value?]

/-- Options of a backup without further flags are rendered from what they supply. -/
lemma backupFromSteps_of_supplied {steps : List Step} (h : WithoutFurtherFlags steps) :
    backupFromSteps steps = if (suppliedBy steps).paths = [] then .error .noBackupPaths
      else .ok (suppliedBy steps).arguments := by
  have hoffered : AllOffered steps :=
    h.allOffered (by simp [backupLists, listFields]) (by simp [backupSettings, freeFields])
  obtain ⟨fields, hfields, hrendered⟩ := backupFromSteps_eq hoffered
  have hhost : fields.get? "host" = some (lastOf "host" steps) :=
    get?_of_assigned hoffered (by decide) rfl hfields
  have hparent : fields.get? "parent" = some (lastOf "parent" steps) :=
    get?_of_assigned hoffered (by decide) rfl hfields
  have hfurther : addedByAll "extra_flags" steps = [] := h.addedByAll_eq_nil (by decide)
  rw [hrendered, hfurther, BackupOptions.arguments_eq, flaggedIfGiven, hhost,
    flaggedIfGiven, hparent, List.map_nil, List.append_nil]
  rfl

lemma backupFromSteps_eq_ok_iff {steps : List Step} (h : WithoutFurtherFlags steps)
    {argv : List Value} : backupFromSteps steps = .ok argv ↔
      (suppliedBy steps).paths ≠ [] ∧ (suppliedBy steps).arguments = argv := by
  rw [backupFromSteps_of_supplied h]
  split
  case isTrue hnone => simp [hnone]
  case isFalse hsome => simp [hsome]

/-- **Paths stay positional exactly if they cannot be taken for flags.**  The paths of some options
are among those of all options with the same arguments exactly if they do not begin with a flag and
its value that may follow the flags that are given.  Of such options only those that supply the same
lists have the same arguments, and all arguments are those of such options. -/
theorem paths_stay_positional_iff {steps : List Step} (h : WithoutFurtherFlags steps)
    {argv : List Value} (hargv : backupFromSteps steps = .ok argv) :
    ((suppliedBy steps).Positional ↔
      ∀ others, WithoutFurtherFlags others → backupFromSteps others = .ok argv →
        addedByAll "paths" steps <:+ addedByAll "paths" others) ∧
    (∀ others, WithoutFurtherFlags others → backupFromSteps others = .ok argv →
      (suppliedBy steps).Positional → (suppliedBy others).Positional →
        ∀ name ∈ backupLists, addedByAll name steps = addedByAll name others) ∧
    ∃ others, WithoutFurtherFlags others ∧ backupFromSteps others = .ok argv ∧
      (suppliedBy others).Positional := by
  obtain ⟨hsome, harguments⟩ := (backupFromSteps_eq_ok_iff h).1 hargv
  have hreading {o : BackupOptions} (hsome : o.paths ≠ []) (ho : (suppliedBy steps).arguments =
      o.arguments) : backupFromSteps o.toSteps = .ok argv := by
    rw [backupFromSteps_eq_ok_iff o.withoutFurtherFlags, o.suppliedBy_toSteps]
    exact ⟨hsome, ho.symm.trans harguments⟩
  refine ⟨⟨fun hpositional others hothers hother => ?_, fun hall => ?_⟩,
    fun others hothers hother hpositional hpositional' => ?_, ?_⟩
  · obtain ⟨hsome', harguments'⟩ := (backupFromSteps_eq_ok_iff hothers).1 hother
    exact hpositional.suffix (harguments.trans harguments'.symm) hsome'
  · by_contra hnot
    obtain ⟨o, ho, hsome', hpaths⟩ := BackupOptions.exists_reading_of_not_positional hnot
    have hsuffix := hall o.toSteps o.withoutFurtherFlags (hreading hsome' ho)
    have hsupplied : addedByAll "paths" o.toSteps = o.paths :=
      congrArg BackupOptions.paths o.suppliedBy_toSteps
    rw [hsupplied] at hsuffix
    exact hpaths hsuffix
  · obtain ⟨hsome', harguments'⟩ := (backupFromSteps_eq_ok_iff hothers).1 hother
    have hsame := harguments.trans harguments'.symm
    have hpaths := hpositional.paths_eq hpositional' hsame hsome hsome'
    obtain ⟨hexcludes, hanyCase, htags⟩ := BackupOptions.lists_eq_of_paths hsame hpaths
    simp only [backupLists, List.forall_mem_cons]
    exact ⟨hpaths, hexcludes, hanyCase, htags, List.forall_mem_nil _⟩
  · obtain ⟨o, ho, hsome', hpositional⟩ := BackupOptions.exists_positional (suppliedBy steps) hsome
    exact ⟨o.toSteps, o.withoutFurtherFlags, hreading hsome' ho,
      by rwa [o.suppliedBy_toSteps]⟩

/-- Paths that are added in two steps, and an exclude pattern and a last path that look like
flags. -/
theorem paths_stay_positional_iff_accumulated :
    let steps := [.sequence [backupPaths [.str "/data"], backupExcludes [.str "--tag"]],
      backupHost (.str "h"), backupPaths [.str "/home", .str "--exclude"]]
    let argv : List Value := [.str "--exclude", .str "--tag", .str "--host", .str "h", .str "/data",
      .str "/home", .str "--exclude"]
    WithoutFurtherFlags steps ∧ backupFromSteps steps = .ok argv ∧ (suppliedBy steps).Positional ∧
      ∀ others, WithoutFurtherFlags others → backupFromSteps others = .ok argv →
        ["/data", "/home", "--exclude"] <:+ addedByAll "paths" others := by
  intro steps argv
  have hsteps : WithoutFurtherFlags steps := by
    simp [steps, WithoutFurtherFlags, MadeOf, backupPaths, backupExcludes, backupHost, appendTexts,
      backupLists, backupSettings]
  have hargv : backupFromSteps steps = .ok argv := rfl
  have hpositional : (suppliedBy steps).Positional := by
    intro flag value rest hpaths hrest hfollow
    obtain ⟨rfl, -⟩ := List.cons.inj hpaths
    exact absurd hfollow.known (by decide)
  exact ⟨hsteps, hargv, hpositional, (paths_stay_positional_iff hsteps hargv).1.1 hpositional⟩

/-- A path that is called like a flag: the same arguments are those of one path and a pattern. -/
theorem path_taken_for_flag :
    let steps := [backupPaths [.str "--exclude", .str "x", .str "/data"]]
    let others := [backupExcludes [.str "x"], backupPaths [.str "/data"]]
    WithoutFurtherFlags steps ∧ WithoutFurtherFlags others ∧
      backupFromSteps steps = .ok [.str "--exclude", .str "x", .str "/data"] ∧
      backupFromSteps others = .ok [.str "--exclude", .str "x", .str "/data"] ∧
      addedByAll "paths" steps ≠ addedByAll "paths" others ∧
      addedByAll "excludes" steps ≠ addedByAll "excludes" others := by
  intro steps others
  have hsteps : WithoutFurtherFlags steps := by
    simp [steps, WithoutFurtherFlags, MadeOf, backupPaths, appendTexts, backupLists]
  have hothers : WithoutFurtherFlags others := by
    simp [others, WithoutFurtherFlags, MadeOf, backupPaths, backupExcludes, appendTexts,
      backupLists]
  exact ⟨hsteps, hothers, rfl, rfl, by decide, by decide⟩

end Options

end BackupSteward
