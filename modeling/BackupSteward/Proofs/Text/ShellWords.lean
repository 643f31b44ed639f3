import BackupSteward.Text.ShellWords
import Mathlib.Tactic.Lemma
import Mathlib.Tactic.SplitIfs

/-!
# Which texts are shell words

A text can be split into words exactly if all its quotes are closed and no backslash stands last.
The grammar of such texts does not mention the reader; each place of the reader stands for a
language, and reading a character leads from the language of one place to that of the next.
-/

namespace BackupSteward.Text

namespace ShellWords

/-- The mark around characters that all stand for themselves. -/
def apostrophe : Char := Char.ofNat 39

/-- The mark around characters some of which may be protected. -/
def doubleQuote : Char := Char.ofNat 34

/-- The mark that protects the character behind it. -/
def backslash : Char := Char.ofNat 92

/-- What may stand between two double quotes. -/
inductive Inside : List Char → Prop
  | nil : Inside []
  | plain {c : Char} {rest : List Char} (hquote : c ≠ doubleQuote) (hbackslash : c ≠ backslash)
    (hrest : Inside rest) : Inside (c :: rest)
  | protect (c : Char) {rest : List Char} (hrest : Inside rest) : Inside (backslash :: c :: rest)

/-- All quotes of a text are closed, and behind each backslash stands a character. -/
inductive Closed : List Char → Prop
  | nil : Closed []
  | plain {c : Char} {rest : List Char} (hquote : isQuote c = false)
    (hbackslash : isBackslash c = false) (hrest : Closed rest) : Closed (c :: rest)
  | protect (c : Char) {rest : List Char} (hrest : Closed rest) : Closed (backslash :: c :: rest)
  | apostrophes {inside rest : List Char} (hinside : apostrophe ∉ inside) (hrest : Closed rest) :
    Closed (apostrophe :: (inside ++ apostrophe :: rest))
  | quotes {inside rest : List Char} (hinside : Inside inside) (hrest : Closed rest) :
    Closed (doubleQuote :: (inside ++ doubleQuote :: rest))

lemma isQuote_iff (c : Char) : isQuote c = true ↔ c = apostrophe ∨ c = doubleQuote := by
  simp only [isQuote, Bool.or_eq_true, decide_eq_true_eq, ← Char.toNat_inj]
  rfl

lemma isBackslash_iff (c : Char) : isBackslash c = true ↔ c = backslash := by
  simp only [isBackslash, decide_eq_true_eq, ← Char.toNat_inj]
  rfl

/-- Separators are neither quotes nor backslashes. -/
lemma plain_of_isSeparator {c : Char} (h : isSeparator c = true) :
    isQuote c = false ∧ isBackslash c = false := by
  simp only [isSeparator, Bool.or_eq_true, decide_eq_true_eq] at h
  rcases h with ((rfl | rfl) | rfl) | rfl <;> decide

/-! ### Between quotes -/

/-- What may stand between a pair of quotes. -/
def Quoted (q : Char) (inside : List Char) : Prop :=
  if q = doubleQuote then Inside inside else q ∉ inside

lemma quoted_nil (q : Char) : Quoted q [] := by
  unfold Quoted
  split
  · exact .nil
  · exact List.not_mem_nil

lemma not_quoted_self (q : Char) (inside : List Char) : ¬ Quoted q (q :: inside) := by
  unfold Quoted
  split
  case isTrue hq =>
    subst hq
    intro h
    cases h with
    | plain hquote => exact hquote rfl
  case isFalse => simp

lemma quoted_cons {q c : Char} (hc : c ≠ q) (hprotect : c = backslash → q ≠ doubleQuote)
    (inside : List Char) : Quoted q (c :: inside) ↔ Quoted q inside := by
  unfold Quoted
  split
  case isTrue hq =>
    subst hq
    have hbackslash : c ≠ backslash := fun h => hprotect h rfl
    constructor
    · intro h
      cases h with
      | plain _ _ hrest => exact hrest
      | protect => exact absurd rfl hbackslash
    · exact .plain hc hbackslash
  case isFalse => simp [hc.symm]

lemma quoted_backslash (inside : List Char) :
    Quoted doubleQuote (backslash :: inside) ↔
      ∃ c rest, inside = c :: rest ∧ Quoted doubleQuote rest := by
  simp only [Quoted, if_true]
  constructor
  · intro h
    cases h with
    | plain _ hbackslash => exact absurd rfl hbackslash
    | protect c hrest => exact ⟨c, _, rfl, hrest⟩
  · rintro ⟨c, rest, rfl, hrest⟩
    exact .protect c hrest

/-! ### The languages of the places -/

/-- What may follow a quote that is open. -/
def Closes (q : Char) (cs : List Char) : Prop :=
  ∃ inside rest, cs = inside ++ q :: rest ∧ Quoted q inside ∧ Closed rest

/-- What may follow a place. -/
def Follows : Place → List Char → Prop
  | .between, cs | .word, cs => Closed cs
  | .escaped none, cs => ∃ c rest, cs = c :: rest ∧ Closed rest
  | .quotes q, cs => Closes q cs
  | .escaped (some q), cs => ∃ c rest, cs = c :: rest ∧ Closes q rest

lemma closed_plain {c : Char} (hquote : isQuote c = false) (hbackslash : isBackslash c = false)
    (cs : List Char) : Closed (c :: cs) ↔ Closed cs := by
  constructor
  · intro h
    cases h with
    | plain _ _ hrest => exact hrest
    | protect => exact absurd hbackslash (by decide)
    | apostrophes => exact absurd hquote (by decide)
    | quotes => exact absurd hquote (by decide)
  · exact .plain hquote hbackslash

lemma closed_backslash (cs : List Char) :
    Closed (backslash :: cs) ↔ ∃ c rest, cs = c :: rest ∧ Closed rest := by
  constructor
  · intro h
    cases h with
    | plain _ hbackslash => exact absurd hbackslash (by decide)
    | protect c hrest => exact ⟨c, _, rfl, hrest⟩
  · rintro ⟨c, rest, rfl, hrest⟩
    exact .protect c hrest

lemma closed_quote {q : Char} (hq : isQuote q = true) (cs : List Char) :
    Closed (q :: cs) ↔ Closes q cs := by
  constructor
  · intro h
    cases h with
    | plain hquote => exact absurd hq (by simp [hquote])
    | protect => exact absurd hq (by decide)
    | apostrophes hinside hrest => exact ⟨_, _, rfl, hinside, hrest⟩
    | quotes hinside hrest => exact ⟨_, _, rfl, hinside, hrest⟩
  · rintro ⟨inside, rest, rfl, hinside, hrest⟩
    rcases (isQuote_iff q).1 hq with rfl | rfl
    · exact .apostrophes hinside hrest
    · exact .quotes hinside hrest

lemma closes_self (q : Char) (cs : List Char) :
    Closes q (q :: cs) ↔ Closed cs := by
  constructor
  · rintro ⟨inside, rest, hcs, hinside, hrest⟩
    cases inside with
    | nil =>
      obtain ⟨-, rfl⟩ := List.cons.inj hcs
      exact hrest
    | cons c inside =>
      obtain ⟨rfl, -⟩ := List.cons.inj hcs
      exact absurd hinside (not_quoted_self q inside)
  · exact fun h => ⟨[], cs, rfl, quoted_nil q, h⟩

lemma closes_cons {q c : Char} (hc : c ≠ q) (hprotect : c = backslash → q ≠ doubleQuote)
    (cs : List Char) : Closes q (c :: cs) ↔ Closes q cs := by
  constructor
  · rintro ⟨inside, rest, hcs, hinside, hrest⟩
    cases inside with
    | nil => exact absurd (List.cons.inj hcs).1 hc
    | cons c' inside =>
      obtain ⟨rfl, rfl⟩ := List.cons.inj hcs
      exact ⟨inside, rest, rfl, (quoted_cons hc hprotect inside).1 hinside, hrest⟩
  · rintro ⟨inside, rest, rfl, hinside, hrest⟩
    exact ⟨c :: inside, rest, rfl, (quoted_cons hc hprotect inside).2 hinside, hrest⟩

lemma closes_backslash (cs : List Char) : Closes doubleQuote (backslash :: cs) ↔
    ∃ c rest, cs = c :: rest ∧ Closes doubleQuote rest := by
  constructor
  · rintro ⟨inside, rest, hcs, hinside, hrest⟩
    cases inside with
    | nil => exact absurd (List.cons.inj hcs).1 (by decide)
    | cons c inside =>
      obtain ⟨rfl, rfl⟩ := List.cons.inj hcs
      obtain ⟨c, more, rfl, hmore⟩ := (quoted_backslash inside).1 hinside
      exact ⟨c, _, rfl, more, rest, rfl, hmore, hrest⟩
  · rintro ⟨c, _, rfl, inside, rest, rfl, hinside, hrest⟩
    exact ⟨backslash :: c :: inside, rest, rfl, (quoted_backslash _).2 ⟨c, inside, rfl, hinside⟩,
      hrest⟩

/-! ### The reader -/

/-- The place behind a character. -/
def Place.next : Place → Char → Place
  | .between, c | .word, c =>
    if isSeparator c then .between
    else if isQuote c then .quotes c
    else if isBackslash c then .escaped none
    else .word
  | .quotes q, c =>
    if c = q then .word
    else if isBackslash c && q.toNat = 34 then .escaped (some q)
    else .quotes q
  | .escaped none, _ => .word
  | .escaped (some q), _ => .quotes q

lemma place_flush (p : Progress) : p.flush.place = .between := by
  unfold Progress.flush
  split <;> rfl

lemma place_step (p : Progress) (c : Char) : (p.step c).place = p.place.next c := by
  obtain ⟨place, words, word, wasQuoted⟩ := p
  unfold Progress.step Place.next
  cases place with
  | between | word =>
    dsimp only
    split_ifs
    · exact place_flush _
    all_goals rfl
  | quotes q =>
    dsimp only
    split_ifs <;> rfl
  | escaped quote => cases quote <;> rfl

/-- **Reading a character leads from what may follow one place to what may follow the next.** -/
theorem follows_next (place : Place) (c : Char) (cs : List Char) :
    Follows place (c :: cs) ↔ Follows (place.next c) cs := by
  have hopen : Closed (c :: cs) ↔ Follows (Place.between.next c) cs := by
    simp only [Place.next]
    split_ifs with hseparator hquote hbackslash
    · obtain ⟨hquote, hbackslash⟩ := plain_of_isSeparator hseparator
      exact closed_plain hquote hbackslash cs
    · exact closed_quote hquote cs
    · rw [(isBackslash_iff c).1 hbackslash]
      exact closed_backslash cs
    · exact closed_plain (by simpa using hquote) (by simpa using hbackslash) cs
  match place with
  | .between => exact hopen
  | .word => exact hopen
  | .quotes q =>
    have hdouble : q.toNat = 34 ↔ q = doubleQuote := by
      rw [← Char.toNat_inj]
      rfl
    simp only [Place.next]
    split_ifs with hself hprotect
    · subst hself
      exact closes_self c cs
    · rw [Bool.and_eq_true, isBackslash_iff, decide_eq_true_eq, hdouble] at hprotect
      obtain ⟨rfl, rfl⟩ := hprotect
      exact closes_backslash cs
    · rw [Bool.and_eq_true, isBackslash_iff, decide_eq_true_eq, hdouble, not_and] at hprotect
      exact closes_cons hself hprotect cs
  | .escaped none | .escaped (some q) =>
    constructor
    · rintro ⟨c, rest, hcs, hrest⟩
      obtain ⟨rfl, rfl⟩ := List.cons.inj hcs
      exact hrest
    · exact fun h => ⟨c, cs, rfl, h⟩

lemma follows_nil_iff (place : Place) :
    Follows place [] ↔ place = .between ∨ place = .word := by
  match place with
  | .between => simp [Follows, Closed.nil]
  | .word => simp [Follows, Closed.nil]
  | .quotes q => simp [Follows, Closes]
  | .escaped none => simp [Follows]
  | .escaped (some q) => simp [Follows]

lemma isSome_finish?_iff (p : Progress) :
    p.finish?.isSome = true ↔ p.place = .between ∨ p.place = .word := by
  unfold Progress.finish?
  cases p.place <;> simp

/-- What is read to its end is what may follow. -/
theorem isSome_foldl_step_iff (p : Progress) (cs : List Char) :
    (cs.foldl Progress.step p).finish?.isSome = true ↔ Follows p.place cs := by
  induction cs generalizing p with
  | nil => rw [List.foldl_nil, isSome_finish?_iff, follows_nil_iff]
  | cons c cs ih => rw [List.foldl_cons, ih, place_step, ← follows_next]

end ShellWords

/-- **A text can be split into words exactly if all its quotes are closed.** -/
theorem shellWords?_eq_none_iff (s : String) :
    shellWords? s = none ↔ ¬ ShellWords.Closed s.toList := by
  rw [← Option.not_isSome_iff_eq_none]
  exact not_congr (ShellWords.isSome_foldl_step_iff .start s.toList)

end BackupSteward.Text
