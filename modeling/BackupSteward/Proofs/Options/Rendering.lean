import BackupSteward.Proofs.Options.Composition

/-!
# What arguments tell about options

The arguments of a query and of a restore are flags with one value each, the flags of one field
behind those of another.  They are read from the front in pairs, so that a value is never taken for
a flag, however it looks: the arguments tell what has been supplied for each field.  The tags of a
query share one flag and are told apart by the commas between them.
-/

namespace BackupSteward

namespace Options

open Step

/-! ### Flags and values -/

lemma flaggedTexts_nil (flag : String) : flaggedTexts flag [] = [] := rfl

lemma flaggedTexts_cons (flag text : String) (texts : List String) :
    flaggedTexts flag (text :: texts) = .str flag :: .str text :: flaggedTexts flag texts := rfl

/-- Some arguments do not begin with a flag. -/
def BeginsWithout (flag : String) (arguments : List Value) : Prop :=
  arguments.head? ≠ some (.str flag)

lemma beginsWithout_nil (flag : String) : BeginsWithout flag [] := nofun

lemma beginsWithout_flagged {flag other : String} (hne : other ≠ flag) (texts : List String)
    {rest : List Value} (hrest : BeginsWithout flag rest) :
    BeginsWithout flag (flaggedTexts other texts ++ rest) := by
  cases texts with
  | nil => exact hrest
  | cons text texts =>
    intro hhead
    cases hhead
    exact hne rfl

/-- Where the flags of one field end is seen from the arguments: what comes behind them begins with
another flag. -/
lemma flaggedTexts_append_inj {flag : String} {texts others : List String}
    {rest rest' : List Value} (hrest : BeginsWithout flag rest) (hrest' : BeginsWithout flag rest')
    (h : flaggedTexts flag texts ++ rest = flaggedTexts flag others ++ rest') :
    texts = others ∧ rest = rest' := by
  induction texts generalizing others with
  | nil =>
    cases others with
    | nil => exact ⟨rfl, h⟩
    | cons other others =>
      rw [flaggedTexts_nil, flaggedTexts_cons, List.nil_append] at h
      exact absurd (congrArg List.head? h) hrest
  | cons text texts ih =>
    cases others with
    | nil =>
      rw [flaggedTexts_nil, flaggedTexts_cons, List.nil_append] at h
      exact absurd (congrArg List.head? h.symm) hrest'
    | cons other others =>
      simp only [flaggedTexts_cons, List.cons_append, List.cons.injEq, Value.str.injEq,
        true_and] at h
      obtain ⟨rfl, hbehind⟩ := h
      obtain ⟨rfl, hends⟩ := ih hbehind
      exact ⟨rfl, hends⟩

/-- Two fields whose flags differ are told apart. -/
lemma flaggedTexts_pair_inj {flag flag' : String} (hne : flag' ≠ flag) {xs xs' ys ys' : List String}
    (h : flaggedTexts flag xs ++ flaggedTexts flag' ys =
      flaggedTexts flag xs' ++ flaggedTexts flag' ys') : xs = xs' ∧ ys = ys' := by
  have hbegins (texts : List String) : BeginsWithout flag (flaggedTexts flag' texts) := by
    simpa using beginsWithout_flagged hne texts (beginsWithout_nil flag)
  obtain ⟨hxs, hrest⟩ := flaggedTexts_append_inj (hbegins ys) (hbegins ys') h
  have hys : flaggedTexts flag' ys ++ [] = flaggedTexts flag' ys' ++ [] := by rw [hrest]
  exact ⟨hxs, (flaggedTexts_append_inj (beginsWithout_nil _) (beginsWithout_nil _) hys).1⟩

/-! ### Queries -/

/-- Texts without commas are told by the text that they make with commas between them. -/
lemma intercalate_comma_inj {texts others : List String} (hne : texts ≠ []) (hne' : others ≠ [])
    (hcomma : ∀ text ∈ texts, ',' ∉ text.toList) (hcomma' : ∀ text ∈ others, ',' ∉ text.toList)
    (h : String.intercalate "," texts = String.intercalate "," others) : texts = others := by
  have hsplit {texts : List String} (hne : texts ≠ [])
      (hcomma : ∀ text ∈ texts, ',' ∉ text.toList) :
      (String.intercalate "," texts).toList.splitOn ',' = texts.map String.toList := by
    rw [String.toList_intercalate]
    exact List.splitOn_intercalate ',' (by simpa using hcomma) (by simpa using hne)
  have hlists : texts.map String.toList = others.map String.toList := by
    rw [← hsplit hne hcomma, ← hsplit hne' hcomma', h]
  exact List.map_injective_iff.2 (fun _ _ => String.toList_inj.1) hlists

/-- The tags of a query in one flag, if there are any. -/
def tagArguments (tags : List String) : List Value :=
  if tags = [] then [] else [.str "--tag", .str (String.intercalate "," tags)]

lemma onlyTexts_map_str (texts : List String) : onlyTexts (texts.map .str) = .ok texts := by
  induction texts with
  | nil => rfl
  | cons text texts ih =>
    rw [List.map_cons, onlyTexts, ih]
    rfl

/-- A query is rendered whatever its record holds, as long as this is texts. -/
lemma queryArguments_eq {p : Fields} {tags hosts paths : List String}
    (htags : HoldsList p "tags" (tags.map .str)) (hhosts : HoldsList p "hosts" (hosts.map .str))
    (hpaths : HoldsList p "paths" (paths.map .str)) :
    queryArguments p = .ok (tagArguments tags ++
      (flaggedTexts "--host" hosts ++ flaggedTexts "--path" paths)) := by
  have hjoined : joinedTags p = .ok (tagArguments tags) := by
    rw [joinedTags, htags.given, htags.listIn, ok_bind, onlyTexts_map_str, tagArguments]
    cases tags <;> rfl
  rw [queryArguments, hjoined, flagged_of_list hhosts, flagged_of_list hpaths, orFail_ok, orFail_ok,
    orFail_ok, ok_bind, ok_bind, ok_bind, ← List.append_assoc]
  rfl

/-- No tag is told apart from one empty tag, since it has no flag. -/
lemma tagArguments_append_inj {tags others : List String} {rest rest' : List Value}
    (hcomma : ∀ tag ∈ tags, ',' ∉ tag.toList) (hcomma' : ∀ tag ∈ others, ',' ∉ tag.toList)
    (hrest : BeginsWithout "--tag" rest) (hrest' : BeginsWithout "--tag" rest')
    (h : tagArguments tags ++ rest = tagArguments others ++ rest') :
    tags = others ∧ rest = rest' := by
  unfold tagArguments at h
  split at h <;> split at h
  case isTrue.isTrue htags hothers => exact ⟨htags.trans hothers.symm, h⟩
  case isTrue.isFalse => exact absurd (congrArg List.head? h) hrest
  case isFalse.isTrue => exact absurd (congrArg List.head? h.symm) hrest'
  case isFalse.isFalse htags hothers =>
    simp only [List.cons_append, List.nil_append, List.cons.injEq, Value.str.injEq, true_and] at h
    exact ⟨intercalate_comma_inj htags hothers hcomma hcomma' h.1, h.2⟩

/-- The lists of a query. -/
def queryLists : List String := ["tags", "hosts", "paths"]

/-- A record of arguments that options of a query have made. -/
def FromQueryOptions (p : Fields) : Prop :=
  ∃ steps, MadeOf queryLists [] steps ∧ applyAll steps emptyQuery = .ok p

/-- No tag in a record of arguments contains a comma. -/
def HasPlainTags (p : Fields) : Prop :=
  ∀ tags, listIn p "tags" = .ok tags → ∀ tag ∈ tags, ',' ∉ tag.text.toList

/-- Options of a query fill its lists with texts. -/
lemma FromQueryOptions.exists_lists {p : Fields} (h : FromQueryOptions p) :
    ∃ tags hosts paths : List String, HoldsList p "tags" (tags.map .str) ∧
      HoldsList p "hosts" (hosts.map .str) ∧ HoldsList p "paths" (paths.map .str) := by
  obtain ⟨steps, hsteps, hp⟩ := h
  have hoffered := hsteps.allOffered (by simp [queryLists, listFields]) (by simp)
  obtain ⟨q, hq, hlists, -⟩ := applyAll_of_empty emptyQuery hoffered
    (by simp [listFields, HoldsList, emptyQuery, Fields.get?]) rfl
  obtain rfl : p = q := Except.ok.inj (hp.symm.trans hq)
  exact ⟨_, _, _, hlists "tags" (by decide), hlists "hosts" (by decide), hlists "paths" (by decide)⟩

lemma HasPlainTags.of_list {p : Fields} (h : HasPlainTags p) {tags : List String}
    (htags : HoldsList p "tags" (tags.map .str)) : ∀ tag ∈ tags, ',' ∉ tag.toList := by
  intro tag hmem
  exact h _ htags.listIn (.str tag) (List.mem_map_of_mem hmem)

/-! ### Restores -/

/-- The lists of a restore. -/
def restoreLists : List String := ["includes", "excludes"]

/-- A record of arguments that options of a restore into some target have made. -/
def FromRestoreOptions (target : Value) (p : Fields) : Prop :=
  ∃ steps, MadeOf restoreLists [] steps ∧
    applyAll steps (emptyRestore.put "target" target) = .ok p

/-- Options of a restore fill its lists with texts and leave its target. -/
lemma FromRestoreOptions.exists_lists {target : Value} {p : Fields}
    (h : FromRestoreOptions target p) : p.get? "target" = some target ∧
      ∃ includes excludes : List String, HoldsList p "includes" (includes.map .str) ∧
        HoldsList p "excludes" (excludes.map .str) := by
  obtain ⟨steps, hsteps, hp⟩ := h
  have hoffered := hsteps.allOffered (by simp [restoreLists, listFields]) (by simp)
  obtain ⟨q, hq, hlists, hfixed⟩ := applyAll_of_empty (emptyRestore.put "target" target) hoffered
    (by simp [listFields, HoldsList, emptyRestore, Fields.get?]) rfl
  obtain rfl : p = q := Except.ok.inj (hp.symm.trans hq)
  exact ⟨hfixed "target" (by decide) (by decide) (by decide), _, _, hlists "includes" (by decide),
    hlists "excludes" (by decide)⟩

/-- A restore is rendered if its target is not blank. -/
lemma restoreArguments_eq {p : Fields} {includes excludes : List String}
    (hincludes : HoldsList p "includes" (includes.map .str))
    (hexcludes : HoldsList p "excludes" (excludes.map .str)) :
    restoreArguments p =
      if Text.blank (Value.textIfGiven (p.get? "target")) then .error .missingRestoreTarget
      else .ok (.str "--target" :: .str (Value.textIfGiven (p.get? "target")) ::
        (flaggedTexts "--include" includes ++ flaggedTexts "--exclude" excludes)) := by
  unfold restoreArguments
  simp only [flagged_of_list hincludes, flagged_of_list hexcludes, orFail_ok, ok_bind]
  split <;> rfl

/-! ### What the arguments tell -/

/-- The arguments of a query tell its lists. -/
lemma queryArguments_inj {p q : Fields} (hp : FromQueryOptions p) (hq : FromQueryOptions q)
    (hplain : HasPlainTags p) (hplain' : HasPlainTags q)
    (h : queryArguments p = queryArguments q) :
    ∀ name ∈ queryLists, listIn p name = listIn q name := by
  obtain ⟨tags, hosts, paths, htags, hhosts, hpaths⟩ := hp.exists_lists
  obtain ⟨tags', hosts', paths', htags', hhosts', hpaths'⟩ := hq.exists_lists
  rw [queryArguments_eq htags hhosts hpaths, queryArguments_eq htags' hhosts' hpaths'] at h
  have hbegins (hosts paths : List String) :
      BeginsWithout "--tag" (flaggedTexts "--host" hosts ++ flaggedTexts "--path" paths) := by
    have hrest : BeginsWithout "--tag" (flaggedTexts "--path" paths ++ []) :=
      beginsWithout_flagged (by decide) paths (beginsWithout_nil _)
    rw [List.append_nil] at hrest
    exact beginsWithout_flagged (by decide) hosts hrest
  obtain ⟨rfl, hrest⟩ := tagArguments_append_inj (hplain.of_list htags) (hplain'.of_list htags')
    (hbegins hosts paths) (hbegins hosts' paths') (Except.ok.inj h)
  obtain ⟨rfl, rfl⟩ := flaggedTexts_pair_inj (by decide) hrest
  simp only [queryLists, List.forall_mem_cons]
  exact ⟨htags.listIn.trans htags'.listIn.symm, hhosts.listIn.trans hhosts'.listIn.symm,
    hpaths.listIn.trans hpaths'.listIn.symm, List.forall_mem_nil _⟩

/-- The arguments of a restore tell its target and its lists. -/
lemma restoreArguments_inj {target target' : Value} {p q : Fields} {argv : List Value}
    (hp : FromRestoreOptions target p) (hq : FromRestoreOptions target' q)
    (h : restoreArguments p = .ok argv) (h' : restoreArguments q = .ok argv) :
    Value.textIfGiven (some target) = Value.textIfGiven (some target') ∧
      ∀ name ∈ restoreLists, listIn p name = listIn q name := by
  obtain ⟨htarget, includes, excludes, hincludes, hexcludes⟩ := hp.exists_lists
  obtain ⟨htarget', includes', excludes', hincludes', hexcludes'⟩ := hq.exists_lists
  rw [restoreArguments_eq hincludes hexcludes, htarget] at h
  rw [restoreArguments_eq hincludes' hexcludes', htarget'] at h'
  split at h
  case isTrue => cases h
  case isFalse =>
    split at h'
    case isTrue => cases h'
    case isFalse =>
      have hargv := (Except.ok.inj h).trans (Except.ok.inj h').symm
      simp only [List.cons.injEq, Value.str.injEq, true_and] at hargv
      obtain ⟨htext, hrest⟩ := hargv
      obtain ⟨rfl, rfl⟩ := flaggedTexts_pair_inj (by decide) hrest
      refine ⟨htext, ?_⟩
      simp only [restoreLists, List.forall_mem_cons]
      exact ⟨hincludes.listIn.trans hincludes'.listIn.symm,
        hexcludes.listIn.trans hexcludes'.listIn.symm, List.forall_mem_nil _⟩

/-- **The arguments of a query tell its tags, hosts and paths, and those of a restore tell its
target and its patterns**, whatever the values look like.  Only the tags of a query must not contain
the comma that stands between them.  A query is always rendered. -/
theorem arguments_tell_options :
    (∀ p q, FromQueryOptions p → FromQueryOptions q → HasPlainTags p → HasPlainTags q →
      ∀ argv, queryArguments p = .ok argv → queryArguments q = .ok argv →
        ∀ name ∈ queryLists, listIn p name = listIn q name) ∧
    (∀ p, FromQueryOptions p → ∃ argv, queryArguments p = .ok argv) ∧
    ∀ p q target target', FromRestoreOptions target p → FromRestoreOptions target' q →
      ∀ argv, restoreArguments p = .ok argv → restoreArguments q = .ok argv →
        Value.textIfGiven (some target) = Value.textIfGiven (some target') ∧
        (∀ text text', target = .str text → target' = .str text' → text = text') ∧
        ∀ name ∈ restoreLists, listIn p name = listIn q name := by
  refine ⟨fun p q hp hq hplain hplain' argv h h' =>
    queryArguments_inj hp hq hplain hplain' (h.trans h'.symm), fun p hp => ?_,
    fun p q target target' hp hq argv h h' => ?_⟩
  · obtain ⟨tags, hosts, paths, htags, hhosts, hpaths⟩ := hp.exists_lists
    exact ⟨_, queryArguments_eq htags hhosts hpaths⟩
  · obtain ⟨htext, hlists⟩ := restoreArguments_inj hp hq h h'
    refine ⟨htext, fun text text' htarget htarget' => ?_, hlists⟩
    rwa [htarget, htarget', textIfGiven_str, textIfGiven_str] at htext

/-- Values that look like flags, an empty tag, options in two orders, and a target that is given as
a text and as a path. -/
theorem arguments_tell_options_flaglike :
    let made (options : List Step) : Fields := (applyAll options emptyQuery).toOption.getD []
    let query := made [queryTags [.str ""], queryHosts [.str "--path"], queryPaths [.str "--host"]]
    let other := made [.sequence [queryPaths [.str "--host"], queryHosts [.str "--path"]],
      queryTags [.str ""]]
    let queried : List Value := [.str "--tag", .str "", .str "--host", .str "--path", .str "--path",
      .str "--host"]
    let restore (target : Value) : Fields := [("target", target),
      ("includes", .list [.str "--exclude"]), ("excludes", .list [.str "--include", .str "/x"])]
    let path : Value := .path (.ofString "/y/")
    let restored : List Value := [.str "--target", .str "/y", .str "--include", .str "--exclude",
      .str "--exclude", .str "--include", .str "--exclude", .str "/x"]
    queryArguments query = .ok queried ∧ queryArguments other = .ok queried ∧
      (∀ name ∈ queryLists, listIn query name = listIn other name) ∧
      restoreArguments (restore (.str "/y")) = .ok restored ∧
      restoreArguments (restore path) = .ok restored ∧
      Value.textIfGiven (some (.str "/y")) = Value.textIfGiven (some path) := by
  intro made query other queried restore path restored
  have hquery : FromQueryOptions query := by
    refine ⟨[queryTags [.str ""], queryHosts [.str "--path"], queryPaths [.str "--host"]], ?_, rfl⟩
    simp [MadeOf, queryPaths, queryHosts, queryTags, appendTexts, queryLists]
  have hother : FromQueryOptions other := by
    refine ⟨[.sequence [queryPaths [.str "--host"], queryHosts [.str "--path"]],
      queryTags [.str ""]], ?_, rfl⟩
    simp [MadeOf, queryPaths, queryHosts, queryTags, appendTexts, queryLists]
  have hplain : HasPlainTags query := by
    rintro _ ⟨⟩
    simp [Value.text]
  have hplain' : HasPlainTags other := by
    rintro _ ⟨⟩
    simp [Value.text]
  have hrestore (target : Value) : FromRestoreOptions target (restore target) := by
    refine ⟨[restoreExcludes [.str "--include"], restoreIncludes [.str "--exclude"],
      restoreExcludes [.str "/x"]], ?_, rfl⟩
    simp [MadeOf, restoreExcludes, restoreIncludes, appendTexts, restoreLists]
  have hrestored (target : Value) (htext : Value.textIfGiven (some target) = "/y") :
      restoreArguments (restore target) = .ok restored := by
    have hincludes : HoldsList (restore target) "includes" (["--exclude"].map .str) := .inl rfl
    have hexcludes :
        HoldsList (restore target) "excludes" (["--include", "/x"].map .str) := .inl rfl
    have htarget : (restore target).get? "target" = some target := rfl
    rw [restoreArguments_eq hincludes hexcludes, htarget, htext]
    rfl
  have htext := hrestored (.str "/y") (by decide +kernel)
  have hpath := hrestored path (by decide +kernel)
  obtain ⟨hqueries, -, hrestores⟩ := arguments_tell_options
  exact ⟨rfl, rfl, hqueries query other hquery hother hplain hplain' queried rfl rfl, htext, hpath,
    (hrestores _ _ _ _ (hrestore (.str "/y")) (hrestore path) restored htext hpath).1⟩

end Options

end BackupSteward
