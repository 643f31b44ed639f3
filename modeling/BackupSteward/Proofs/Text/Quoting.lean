import BackupSteward.Proofs.Text.ShellWords
import Mathlib.Data.List.Forall2

/-!
# Words that are quoted and read again

In a shell a word is written between apostrophes, where every character stands for itself.  An
apostrophe of the word is written behind a backslash or between double quotes, outside of them.
However a list of words is written so, with a space between any two of them, it is read again as it
was.
-/

namespace BackupSteward.Text

namespace ShellWords

/-- A text stands for a word.  It consists of characters between apostrophes, of apostrophes that
are protected, and of characters that need no protection. -/
inductive Writes : (word text : List Char) → Prop
  | nil : Writes [] []
  | apostrophes {chunk word text : List Char} (hchunk : apostrophe ∉ chunk)
    (hrest : Writes word text) :
    Writes (chunk ++ word) (apostrophe :: (chunk ++ apostrophe :: text))
  | backslash {word text : List Char} (hrest : Writes word text) :
    Writes (apostrophe :: word) (backslash :: apostrophe :: text)
  | quotes {word text : List Char} (hrest : Writes word text) :
    Writes (apostrophe :: word) (doubleQuote :: apostrophe :: doubleQuote :: text)
  | plain {c : Char} {word text : List Char} (hseparator : isSeparator c = false)
    (hquote : isQuote c = false) (hbackslash : isBackslash c = false) (hrest : Writes word text) :
    Writes (c :: word) (c :: text)

/-- A text stands for some words: one text that is not empty for each of them, with spaces
between. -/
def WritesAll (words : List String) (text : List Char) : Prop :=
  ∃ texts : List (List Char),
    List.Forall₂ (fun word text => Writes word.toList text ∧ text ≠ []) words texts ∧
      text = [' '].intercalate texts

/-! ### The usual way -/

/-- The characters between two apostrophes, with each apostrophe written outside of them. -/
def quotedInside (word : List Char) : List Char :=
  word.flatMap fun c =>
    if c = apostrophe then [apostrophe, doubleQuote, apostrophe, doubleQuote, apostrophe] else [c]

/-- A word between apostrophes. -/
def quoted (word : List Char) : List Char := apostrophe :: (quotedInside word ++ [apostrophe])

/-- Some words between apostrophes, with spaces between them. -/
def quotedWords (words : List String) : List Char :=
  [' '].intercalate (words.map fun word => quoted word.toList)

/-- A word up to its first apostrophe stands between apostrophes, and then the rest is written. -/
lemma writes_quoted_append (front word : List Char) (hfront : apostrophe ∉ front) :
    Writes (front ++ word) (apostrophe :: (front ++ (quotedInside word ++ [apostrophe]))) := by
  induction word generalizing front with
  | nil => exact .apostrophes hfront .nil
  | cons c word ih =>
    by_cases hc : c = apostrophe
    · subst hc
      have hinside : quotedInside (apostrophe :: word) =
          apostrophe :: doubleQuote :: apostrophe :: doubleQuote :: apostrophe ::
            quotedInside word := rfl
      rw [hinside]
      exact .apostrophes hfront (.quotes (ih [] List.not_mem_nil))
    · have hinside : quotedInside (c :: word) = c :: quotedInside word := by
        rw [quotedInside, List.flatMap_cons, if_neg hc]
        rfl
      have hfront' : apostrophe ∉ front ++ [c] := by
        rw [List.mem_append, List.mem_singleton]
        exact fun h => h.elim hfront fun heq => hc heq.symm
      rw [hinside]
      simpa using ih (front ++ [c]) hfront'

lemma writes_quoted (word : List Char) : Writes word (quoted word) :=
  writes_quoted_append [] word List.not_mem_nil

/-- Words between apostrophes stand for the words. -/
theorem writesAll_quotedWords (words : List String) : WritesAll words (quotedWords words) := by
  refine ⟨words.map fun word => quoted word.toList, ?_, rfl⟩
  rw [List.forall₂_map_right_iff]
  exact List.forall₂_same.2 fun word _ => ⟨writes_quoted word.toList, List.cons_ne_nil _ _⟩

/-! ### Reading -/

/-- The reader stands in a word, of which it has read something. -/
structure Progress.InWord (p : Progress) (words : List String) (word : List Char) : Prop where
  place_eq : p.place = .word
  words_eq : p.words = words
  word_eq : p.word = word
  begun : word = [] → p.wasQuoted = true

/-- The reader may begin a word or go on with one. -/
def Progress.Ready (p : Progress) : Prop := p.place = .between ∨ p.place = .word

variable {p : Progress} {words : List String} {word text : List Char}

lemma step_plain (h : p.Ready) {c : Char} (hseparator : isSeparator c = false)
    (hquote : isQuote c = false) (hbackslash : isBackslash c = false) :
    p.step c = { p.add c with place := .word } := by
  unfold Progress.step
  rcases h with h | h <;> simp [h, hseparator, hquote, hbackslash]

lemma step_quote (h : p.Ready) {q : Char} (hq : isQuote q = true) :
    p.step q = { p with place := .quotes q } := by
  have hseparator : isSeparator q = false := by
    rcases (isQuote_iff q).1 hq with rfl | rfl <;> decide
  unfold Progress.step
  rcases h with h | h <;> simp [h, hseparator, hq]

lemma step_backslash (h : p.Ready) : p.step backslash = { p with place := .escaped none } := by
  unfold Progress.step
  rcases h with h | h <;> rw [h] <;> rfl

/-- Between apostrophes every character is read as itself. -/
lemma foldl_step_inside {chunk : List Char} (hchunk : apostrophe ∉ chunk) {words : List String}
    {word : List Char} (wasQuoted : Bool) :
    (chunk ++ [apostrophe]).foldl Progress.step ⟨.quotes apostrophe, words, word, wasQuoted⟩ =
      ⟨.word, words, chunk.reverse ++ word, true⟩ := by
  induction chunk generalizing word wasQuoted with
  | nil => rfl
  | cons c chunk ih =>
    obtain ⟨hc, hrest⟩ := not_or.1 (mt List.mem_cons.2 hchunk)
    have hstep : Progress.step ⟨.quotes apostrophe, words, word, wasQuoted⟩ c =
        ⟨.quotes apostrophe, words, c :: word, true⟩ := by
      have hdouble : ¬ apostrophe.toNat = 34 := by decide
      simp [Progress.step, Ne.symm hc, hdouble, Progress.add]
    rw [List.cons_append, List.foldl_cons, hstep, ih hrest, List.reverse_cons, List.append_assoc]
    rfl

/-- A text that stands for a word is read as the word, and if the text is not empty the word is
begun. -/
lemma foldl_step_writes (h : Writes word text) (hready : p.Ready) :
    text = [] ∧ word = [] ∨
      (text.foldl Progress.step p).InWord p.words (word.reverse ++ p.word) := by
  -- behind each piece the reader is in a word, and if nothing follows it stays there
  have hbehind {word text : List Char} {q : Progress} {words : List String} {read : List Char}
      (hq : q.InWord words read)
      (h : text = [] ∧ word = [] ∨
        (text.foldl Progress.step q).InWord q.words (word.reverse ++ q.word)) :
      (text.foldl Progress.step q).InWord words (word.reverse ++ read) := by
    rcases h with ⟨rfl, rfl⟩ | h
    · exact hq
    · rwa [hq.words_eq, hq.word_eq] at h
  induction h generalizing p with
  | nil => exact .inl ⟨rfl, rfl⟩
  | @apostrophes chunk word text hchunk _ ih =>
    have hfirst : (apostrophe :: (chunk ++ [apostrophe])).foldl Progress.step p =
        ⟨.word, p.words, chunk.reverse ++ p.word, true⟩ := by
      rw [List.foldl_cons, step_quote hready (by decide), foldl_step_inside hchunk]
    have hsplit : apostrophe :: (chunk ++ apostrophe :: text) =
        (apostrophe :: (chunk ++ [apostrophe])) ++ text := by simp
    refine .inr ?_
    rw [hsplit, List.foldl_append, hfirst, List.reverse_append, List.append_assoc]
    exact hbehind ⟨rfl, rfl, rfl, fun _ => rfl⟩ (ih (.inr rfl))
  | @backslash word text _ ih =>
    refine .inr ?_
    rw [List.foldl_cons, List.foldl_cons, step_backslash hready, List.reverse_cons,
      List.append_assoc]
    exact hbehind ⟨rfl, rfl, rfl, fun h => nomatch h⟩ (ih (.inr rfl))
  | @quotes word text _ ih =>
    refine .inr ?_
    rw [List.foldl_cons, step_quote hready (by decide), List.foldl_cons, List.foldl_cons,
      List.reverse_cons, List.append_assoc]
    exact hbehind ⟨rfl, rfl, rfl, fun h => nomatch h⟩ (ih (.inr rfl))
  | @plain c word text hseparator hquote hbackslash _ ih =>
    refine .inr ?_
    rw [List.foldl_cons, step_plain hready hseparator hquote hbackslash, List.reverse_cons,
      List.append_assoc]
    exact hbehind ⟨rfl, rfl, rfl, fun h => nomatch h⟩ (ih (.inr rfl))

/-- Where a word ends it is put to the words read. -/
lemma Progress.InWord.flush_eq (h : p.InWord words word) :
    p.flush = ⟨.between, String.ofList word.reverse :: words, [], false⟩ := by
  obtain ⟨place, pwords, pword, wasQuoted⟩ := p
  obtain ⟨rfl, rfl, rfl, hbegun⟩ := h
  have hsome : ¬ (pword.isEmpty && !wasQuoted) = true := by
    rw [Bool.and_eq_true, List.isEmpty_iff, Bool.not_eq_true', not_and]
    intro hnil
    have hquoted : wasQuoted = true := hbegun hnil
    simp [hquoted]
  exact if_neg hsome

/-- Words with spaces between them are read one after the other. -/
lemma finish?_foldl_step {words : List String} {texts : List (List Char)}
    (h : List.Forall₂ (fun word text => Writes word.toList text ∧ text ≠ []) words texts)
    (before : List String) :
    (([' '].intercalate texts).foldl Progress.step ⟨.between, before, [], false⟩).finish? =
      some (before.reverse ++ words) := by
  induction h generalizing before with
  | nil =>
    rw [List.append_nil]
    rfl
  | @cons word text words texts hword hrest ih =>
    obtain ⟨hwrites, hne⟩ := hword
    have hready : Progress.Ready ⟨.between, before, [], false⟩ := .inl rfl
    have hread : (text.foldl Progress.step ⟨.between, before, [], false⟩).InWord before
        word.toList.reverse := by
      rcases foldl_step_writes hwrites hready with ⟨rfl, -⟩ | h
      · exact absurd rfl hne
      · rwa [List.append_nil] at h
    have hflush := hread.flush_eq
    rw [List.reverse_reverse, String.ofList_toList] at hflush
    have hplace := hread.place_eq
    cases hrest with
    | nil =>
      rw [List.intercalate_singleton, Progress.finish?, hplace]
      dsimp only
      rw [hflush, List.reverse_cons]
    | cons hnext hmore =>
      rw [List.intercalate_cons_cons, List.append_assoc, List.foldl_append, List.singleton_append,
        List.foldl_cons]
      have hstep : (text.foldl Progress.step ⟨.between, before, [], false⟩).step ' ' =
          ⟨.between, word :: before, [], false⟩ := by
        rw [← hflush, Progress.step, hplace]
        rfl
      rw [hstep, ih, List.reverse_cons, List.append_assoc, List.singleton_append]

/-- **Words that are written in some way are read again.** -/
theorem foldl_step_writesAll {words : List String} {text : List Char} (h : WritesAll words text) :
    (text.foldl Progress.step .start).finish? = some words := by
  obtain ⟨texts, htexts, rfl⟩ := h
  exact finish?_foldl_step htexts []

end ShellWords

/-- **Words that are quoted are read again.** -/
theorem shellWords?_of_writesAll {words : List String} {text : String}
    (h : ShellWords.WritesAll words text.toList) : shellWords? text = some words :=
  ShellWords.foldl_step_writesAll h

end BackupSteward.Text
