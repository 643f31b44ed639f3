import BackupSteward.Proofs.Number.Numeral
import BackupSteward.Proofs.Repository.Updates
import BackupSteward.Proofs.Retention.Environment
import BackupSteward.Proofs.Text.Quoting
import BackupSteward.Proofs.Text.Trimming

/-!
# What is written into the environment is read again

A policy is written into variables as decimal numbers and as tags between commas, and the flags of a
repository as quoted words.  What was written is read from the environment as it was.  White space
around numbers and tags does not matter, but for the four separators below the space, which a number
may not have around it.
-/

namespace BackupSteward

namespace Text

variable {sep : Char} {piece rest : List Char}

/-! ### Pieces -/

lemma pieces_of_notMem (h : sep ∉ piece) : pieces sep piece = [piece] := by
  induction piece with
  | nil => rfl
  | cons c piece ih =>
    obtain ⟨hc, hrest⟩ := not_or.1 (mt List.mem_cons.2 h)
    rw [pieces_cons, ih hrest, addInFront, if_neg (Ne.symm hc)]

lemma pieces_append_cons (h : sep ∉ piece) (rest : List Char) :
    pieces sep (piece ++ sep :: rest) = piece :: pieces sep rest := by
  induction piece with
  | nil => exact if_pos rfl
  | cons c piece ih =>
    obtain ⟨hc, hrest⟩ := not_or.1 (mt List.mem_cons.2 h)
    rw [List.cons_append, pieces_cons, ih hrest, addInFront, if_neg (Ne.symm hc)]

/-- What is joined with separators is taken apart again. -/
lemma pieces_intercalate {parts : List (List Char)} (hne : parts ≠ [])
    (h : ∀ part ∈ parts, sep ∉ part) :
    pieces sep ([sep].intercalate parts) = parts := by
  induction parts with
  | nil => exact absurd rfl hne
  | cons part parts ih =>
    obtain ⟨hpart, hparts⟩ := List.forall_mem_cons.1 h
    cases parts with
    | nil => rw [List.intercalate_singleton, pieces_of_notMem hpart]
    | cons next parts =>
      rw [List.intercalate_cons_cons, List.append_assoc, List.singleton_append,
        pieces_append_cons hpart, ih (List.cons_ne_nil _ _) hparts]

end Text

/-! ### Tags -/

/-- A tag that can stand between commas. -/
structure PlainTag (tag : String) : Prop where
  nonempty : tag ≠ ""
  trimmed : Text.stripped tag = tag
  comma : ',' ∉ tag.toList

/-- A piece of a text is a tag with white space around it. -/
def WrittenTag (tag : String) (piece : List Char) : Prop :=
  ∃ before after : List Char, before.all Text.isBlank = true ∧ after.all Text.isBlank = true ∧
    piece = before ++ tag.toList ++ after

lemma PlainTag.isBlank_ends {tag : String} (h : PlainTag tag) :
    (∀ c ∈ tag.toList.head?, Text.isBlank c = false) ∧
      ∀ c ∈ tag.toList.getLast?, Text.isBlank c = false := by
  have htrim : Text.trim tag.toList = tag.toList := by
    have htext := congrArg String.toList h.trimmed
    rwa [Text.stripped, String.toList_ofList] at htext
  rw [← htrim]
  exact ⟨fun c hc => Text.isBlank_head_trim hc, fun c hc => Text.isBlank_getLast_trim hc⟩

lemma WrittenTag.trim_eq {tag : String} {piece : List Char} (hplain : PlainTag tag)
    (h : WrittenTag tag piece) : Text.trim piece = tag.toList := by
  obtain ⟨before, after, hbefore, hafter, rfl⟩ := h
  exact Text.trim_surrounded hbefore hafter hplain.isBlank_ends.1 hplain.isBlank_ends.2

lemma WrittenTag.comma_notMem {tag : String} {piece : List Char} (hplain : PlainTag tag)
    (h : WrittenTag tag piece) : ',' ∉ piece := by
  obtain ⟨before, after, hbefore, hafter, rfl⟩ := h
  have hblank {cs : List Char} (hcs : cs.all Text.isBlank = true) : ',' ∉ cs := by
    intro hmem
    have hcomma := List.all_eq_true.1 hcs ',' hmem
    revert hcomma
    decide
  simp only [List.mem_append, not_or]
  exact ⟨⟨hblank hbefore, hplain.comma⟩, hblank hafter⟩

/-- Some tags are written into a text with commas between them. -/
def WrittenTags (tags : List String) (text : String) : Prop :=
  ∃ pieces : List (List Char), List.Forall₂ WrittenTag tags pieces ∧
    text.toList = [','].intercalate pieces

lemma map_trim_of_written {tags : List String} {pieces : List (List Char)}
    (hplain : ∀ tag ∈ tags, PlainTag tag) (h : List.Forall₂ WrittenTag tags pieces) :
    (pieces.map fun piece => String.ofList (Text.trim piece)) = tags := by
  induction h with
  | nil => rfl
  | cons htag _ ih =>
    obtain ⟨hfirst, hrest⟩ := List.forall_mem_cons.1 hplain
    rw [List.map_cons, htag.trim_eq hfirst, String.ofList_toList, ih hrest]

lemma comma_notMem_of_written {tags : List String} {pieces : List (List Char)}
    (hplain : ∀ tag ∈ tags, PlainTag tag) (h : List.Forall₂ WrittenTag tags pieces) :
    ∀ piece ∈ pieces, ',' ∉ piece := by
  induction h with
  | nil => exact fun piece hpiece => absurd hpiece List.not_mem_nil
  | cons htag _ ih =>
    obtain ⟨hfirst, hrest⟩ := List.forall_mem_cons.1 hplain
    exact List.forall_mem_cons.2 ⟨htag.comma_notMem hfirst, ih hrest⟩

/-- Tags between commas are read again. -/
lemma Environment.tagList_of_written {tags : List String} {text : String}
    (hplain : ∀ tag ∈ tags, PlainTag tag) (h : WrittenTags tags text) : tagList text = tags := by
  obtain ⟨pieces, hpieces, htext⟩ := h
  have hcomma := comma_notMem_of_written hplain hpieces
  have htrim := map_trim_of_written hplain hpieces
  rw [tagList, htext]
  by_cases hne : pieces = []
  · subst hne
    cases hpieces
    rfl
  · rw [Text.pieces_intercalate hne hcomma, htrim]
    exact List.filter_eq_self.2 fun tag htag => decide_eq_true (hplain tag htag).nonempty

namespace Environment

/-! ### The policy -/

/-- The variable of a setting holds a number in decimal, of at most as many digits as are read; zero
may be left out. -/
def Holds (around : Char → Bool) (env : Environment) (setting : String) (n : Nat) : Prop :=
  (Nat.toDigits 10 n).length ≤ Number.maxDigits ∧
    (n = 0 ∧ env.get? (keepVariable setting) = none ∨
      ∃ text, env.get? (keepVariable setting) = some text ∧ Number.Written around n text)

/-- A policy is written into the environment, its numbers with some characters around them. -/
structure HoldsPolicy (around : Char → Bool) (env : Environment) (p : Policy) : Prop where
  counts : ∀ rule, ∃ n : Nat, p.count rule = .number n ∧ env.Holds around (settingOf rule) n
  /-- The time is a whole number of hours that a duration can have. -/
  within : p.within = none ∧ env.Holds around "WITHIN_HOURS" 0 ∨
    ∃ hours : Nat, 0 < hours ∧ p.within = Duration.ofHours? hours ∧ p.within.isSome ∧
      env.Holds around "WITHIN_HOURS" hours
  tags : ∃ tags : List String, p.tags = tags.map .str ∧ (∀ tag ∈ tags, PlainTag tag) ∧
    (tags = [] ∧ env.get? (keepVariable "TAGS") = none ∨
      ∃ text, env.get? (keepVariable "TAGS") = some text ∧ WrittenTags tags text)

/-- A repository is written into the environment. -/
structure HoldsRepository (env : Environment) (location password : String) (flags : List String) :
    Prop where
  location_eq : env.get? "RESTIC_REPOSITORY" = some location
  location_text : Text.blank location = false
  password_eq : env.get? "RESTIC_PASSWORD" = some password
  password_ne : password ≠ ""
  isFlag : ∀ flag ∈ flags, Description.isFlag flag = true
  words : ∃ text, env.get? "RESTICORCH_FLAGS" = some text ∧
    Text.ShellWords.WritesAll flags text.toList

lemma blank_of_written {n : Nat} {text : String} (h : Number.Written Number.isMargin n text) :
    Text.blank text = false := by
  obtain ⟨before, after, -, -, htext⟩ := h
  obtain ⟨c, hc⟩ := List.exists_mem_of_ne_nil _ (Nat.toDigits_ne_nil (n := n) (b := 10))
  have hmem : c ∈ text.toList := by
    rw [htext]
    exact List.mem_append_left _ (List.mem_append_right _ hc)
  have hblank := Text.isBlank_of_isDigit (Nat.isDigit_of_mem_toDigits (by omega) (by omega) hc)
  exact List.all_eq_false.2 ⟨c, hmem, by simp [hblank]⟩

/-- The variable gives the number that it holds. -/
lemma gives_of_holds {env : Environment} {setting : String} {n : Nat}
    (h : env.Holds Number.isMargin setting n) : env.Gives setting n := by
  obtain ⟨hdigits, ⟨rfl, hnone⟩ | ⟨text, htext, hwritten⟩⟩ := h
  · rw [Gives, hnone]
  · rw [Gives, htext]
    dsimp only
    rw [blank_of_written hwritten, if_neg Bool.false_ne_true]
    exact Number.wholeNumber?_written hwritten hdigits

/-- A policy that is written into the environment is read again. -/
theorem policy_of_holds {env : Environment} {p : Policy} (h : env.HoldsPolicy Number.isMargin p) :
    env.policy = .ok p := by
  choose count hcount hholds using h.counts
  have hgives (rule : Rule) : env.Gives (settingOf rule) (count rule) :=
    gives_of_holds (hholds rule)
  obtain ⟨tags, htags, hplain, htext⟩ := h.tags
  have hread : env.givenTags = tags := by
    unfold givenTags
    rcases htext with ⟨rfl, hnone⟩ | ⟨text, htext, hwritten⟩
    · rw [hnone]
    · rw [htext]
      exact tagList_of_written hplain hwritten
  have hmade : policyOf count p.within tags = p := by
    rw [policyOf, ← hcount .last, ← hcount .hourly, ← hcount .daily, ← hcount .weekly,
      ← hcount .monthly, ← hcount .yearly, ← htags]
    rfl
  rw [← hmade, ← hread]
  rcases h.within with ⟨hnone, hzero⟩ | ⟨hours, hpos, hwithin, hsome, hhours⟩
  · exact policy_of_gives hgives (gives_of_holds hzero) (by rw [if_pos rfl, hnone])
  · refine policy_of_gives hgives (gives_of_holds hhours) ?_
    obtain ⟨d, hd⟩ := Option.isSome_iff_exists.1 hsome
    rw [if_neg (by omega), ← hwithin]
    exact ⟨d, hd, hd⟩

lemma given?_of_ne {env : Environment} {name value : String} (h : env.get? name = some value)
    (hne : value ≠ "") : env.given? name = some value := by
  rw [given?, h, Option.filter_some, if_pos (decide_eq_true hne)]

/-- Flags that are written as words are read again. -/
lemma flags_of_writesAll {env : Environment} {flags : List String} {text : String}
    (htext : env.get? "RESTICORCH_FLAGS" = some text)
    (hwords : Text.ShellWords.WritesAll flags text.toList) : env.flags = .ok flags := by
  have hread := Text.shellWords?_of_writesAll hwords
  unfold Environment.flags
  by_cases hempty : text = ""
  · -- no words at all are no flags, as if the variable was not set
    subst hempty
    have hnone : env.given? "RESTICORCH_FLAGS" = none := by rw [given?, htext]; rfl
    rw [hnone]
    exact congrArg Except.ok (Option.some.inj hread)
  · rw [given?_of_ne htext hempty]
    dsimp only
    rw [hread]
    rfl

/-- A repository that is written into the environment is read again. -/
theorem description_of_holds {env : Environment} {location password : String} {flags : List String}
    (h : env.HoldsRepository location password flags) :
    ∃ d, env.description = .ok d ∧ d.flags = flags ∧ d.location = .str location ∧
      d.password = .str password := by
  have hlocation : location ≠ "" := by
    rintro rfl
    cases h.location_text
  obtain ⟨text, htext, hwords⟩ := h.words
  have hpassword : env.password = .ok password := by
    rw [Environment.password, given?_of_ne h.password_eq h.password_ne]
  have hcreate : env.description =
      Description.create (.str location) (.str password) (env.stepsFrom flags) [] := by
    unfold description
    rw [given?_of_ne h.location_eq hlocation]
    dsimp only
    rw [hpassword, ok_bind, flags_of_writesAll htext hwords]
    rfl
  have hbinary : (env.partsFrom location flags).binary.truthy = true := by
    show (Value.str ((env.given? "RESTICORCH_BINARY").getD "restic")).truthy = true
    cases hgiven : env.given? "RESTICORCH_BINARY" with
    | none => rfl
    | some binary => exact bne_iff_ne.2 (ne_empty_of_given? hgiven)
  have hflags : Description.flags? (env.partsFrom location flags).flags = some flags :=
    Description.flags?_eq_some_iff.2 ⟨rfl, h.isFlag⟩
  have hproblems : (env.partsFrom location flags).problems (.str password) = [] := by
    have hlocation' : (Value.str location).truthy = true := bne_iff_ne.2 hlocation
    have hpassword' : (Value.str password).truthy = true := bne_iff_ne.2 h.password_ne
    have htext' : Text.blank (Value.str location).text = false := h.location_text
    rw [Description.Parts.problems, Description.problems, hflags, hbinary, hpassword',
      show (env.partsFrom location flags).location = .str location from rfl, hlocation', htext']
    rfl
  rw [hcreate, create_stepsFrom, Description.ofFields_parts, hproblems, hflags]
  exact ⟨_, rfl, rfl, rfl, rfl⟩

/-- **What is written into the environment is read again**: a policy whose numbers have white space
around them, but for the four separators, and whose tags have any white space around them; and a
repository with flags that are quoted in any of the usual ways, of which there is one for all
flags. -/
theorem reads_what_is_held (env : Environment) :
    (∀ p : Policy, env.HoldsPolicy Number.isMargin p → env.policy = .ok p) ∧
      (∀ (location password : String) (flags : List String),
        env.HoldsRepository location password flags →
        ∃ d, env.description = .ok d ∧ d.flags = flags ∧ d.location = .str location ∧
          d.password = .str password) ∧
      ∀ flags : List String, Text.ShellWords.WritesAll flags (Text.ShellWords.quotedWords flags) :=
  ⟨fun _ => policy_of_holds, fun _ _ _ => description_of_holds,
    Text.ShellWords.writesAll_quotedWords⟩

/-- Numbers with white space around them, tags with and without, and a flag with an apostrophe. -/
theorem reads_what_is_held_surrounded :
    let env : Environment := { values := [("RESTIC_REPOSITORY", "/repo"), ("RESTIC_PASSWORD", "pw"),
      ("RESTICORCH_FLAGS", "'--tag=it'\"'\"'s' '-q'"), ("RESTICORCH_KEEP_LAST", " 12\n"),
      ("RESTICORCH_KEEP_WITHIN_HOURS", "48"), ("RESTICORCH_KEEP_TAGS", " a b ,c")] }
    let p : Policy := { Policy.empty with
      last := .number 12, within := some ⟨172800000000⟩, tags := [.str "a b", .str "c"] }
    env.HoldsPolicy Number.isMargin p ∧ env.policy = .ok p ∧
      env.HoldsRepository "/repo" "pw" ["--tag=it's", "-q"] ∧
      ∃ d, env.description = .ok d ∧ d.flags = ["--tag=it's", "-q"] ∧ d.location = .str "/repo" ∧
        d.password = .str "pw" := by
  intro env p
  obtain ⟨hpolicy, hdescription, -⟩ := reads_what_is_held env
  have hunset {setting : String} (h : env.get? (keepVariable setting) = none) :
      env.Holds Number.isMargin setting 0 := ⟨by decide, .inl ⟨rfl, h⟩⟩
  have hholds : env.HoldsPolicy Number.isMargin p := by
    refine ⟨fun rule => ?_, .inr ⟨48, by decide, rfl, rfl, ?_⟩, ["a b", "c"], rfl, ?_,
      .inr ⟨_, rfl, ?_⟩⟩
    · cases rule with
      | last =>
        exact ⟨12, rfl, by decide, .inr ⟨_, rfl, [' '], ['\n'], by decide, by decide, by decide⟩⟩
      | _ => exact ⟨0, rfl, hunset rfl⟩
    · exact ⟨by decide, .inr ⟨_, rfl, [], [], by decide, by decide, by decide⟩⟩
    · simp only [List.forall_mem_cons, List.not_mem_nil, false_imp_iff, implies_true, and_true]
      exact ⟨⟨by decide, by decide, by decide⟩, ⟨by decide, by decide, by decide⟩⟩
    · have hspaces : WrittenTag "a b" " a b ".toList :=
        ⟨[' '], [' '], by decide, by decide, by decide⟩
      have hbare : WrittenTag "c" "c".toList := ⟨[], [], by decide, by decide, by decide⟩
      exact ⟨[" a b ".toList, "c".toList], .cons hspaces (.cons hbare .nil), by decide⟩
  have hrepository : env.HoldsRepository "/repo" "pw" ["--tag=it's", "-q"] := by
    refine ⟨rfl, rfl, rfl, by decide, by decide, _, rfl, ?_⟩
    exact Text.ShellWords.writesAll_quotedWords ["--tag=it's", "-q"]
  exact ⟨hholds, hpolicy p hholds, hrepository, hdescription _ _ _ hrepository⟩

/-- With a separator in front of it a number is not read. -/
theorem separator_beside_number :
    let env : Environment := { values := [("RESTICORCH_KEEP_LAST", "\x1c5")] }
    env.policy = .error (.invalidKeepVariable "RESTICORCH_KEEP_LAST" "\x1c5") ∧
      ¬ ∀ (env : Environment) (p : Policy),
        env.HoldsPolicy Text.isBlank p → env.policy = .ok p := by
  intro env
  have hpolicy : env.policy = .error (.invalidKeepVariable "RESTICORCH_KEEP_LAST" "\x1c5") := by
    subst env
    rfl
  have hholds : env.HoldsPolicy Text.isBlank { Policy.empty with last := .number 5 } := by
    refine ⟨fun rule => ?_, .inl ⟨rfl, by decide, .inl ⟨rfl, rfl⟩⟩, [], rfl, ?_, .inl ⟨rfl, rfl⟩⟩
    · cases rule with
      | last =>
        exact ⟨5, rfl, by decide, .inr ⟨_, rfl, ['\x1c'], [], by decide, by decide, by decide⟩⟩
      | _ => exact ⟨0, rfl, by decide, .inl ⟨rfl, rfl⟩⟩
    · exact fun tag htag => absurd htag List.not_mem_nil
  refine ⟨hpolicy, fun h => ?_⟩
  cases hpolicy.symm.trans (h env _ hholds)

end Environment

end BackupSteward
