import BackupSteward.Proofs.Json.Grammar

/-!
# Strings are read as they are written

The reader of a string goes through it sign by sign, and looks ahead only behind the first half of a
pair.  What it takes are the signs of the grammar up to the closing quote, and every string of the
grammar is taken as a whole.
-/

namespace BackupSteward.Json

variable {cs rest word : List Char} {n m : Nat}

lemma eq_quote_of_toNat {c : Char} (h : c.toNat = 34) : c = '"' := Char.toNat_inj.1 h

/-! ### Numbered characters -/

lemma hexWord?_append (h : hexWord? word = some (n, [])) (rest : List Char) :
    hexWord? (word ++ rest) = some (n, rest) := by
  unfold hexWord? at h
  split at h
  case h_1 a b c d left =>
    split at h
    case h_1 ha hb hc hd =>
      cases h
      simp [hexWord?, ha, hb, hc, hd]
    case h_2 => cases h
  case h_2 => cases h

/-- The digits of a numbered character. -/
lemma exists_hexWord (h : hexWord? cs = some (n, rest)) :
    ∃ word, cs = word ++ rest ∧ hexWord? word = some (n, []) := by
  unfold hexWord? at h
  split at h
  case h_1 a b c d left =>
    split at h
    case h_1 ha hb hc hd =>
      cases h
      exact ⟨[a, b, c, d], rfl, by simp [hexWord?, ha, hb, hc, hd]⟩
    case h_2 => cases h
  case h_2 => cases h

lemma lowSurrogate?_code (h : hexWord? word = some (n, [])) (rest : List Char) :
    lowSurrogate? ('\\' :: 'u' :: (word ++ rest)) = if IsLow n then some (n, rest) else none := by
  simp only [lowSurrogate?, hexWord?_append h, and_self, if_true]
  rfl

lemma exists_lowSurrogate (h : lowSurrogate? cs = some (n, rest)) :
    IsLow n ∧ ∃ word, cs = '\\' :: 'u' :: (word ++ rest) ∧ hexWord? word = some (n, []) := by
  unfold lowSurrogate? at h
  split at h
  case h_1 b u more =>
    split at h
    case isTrue hcode =>
      obtain ⟨rfl, rfl⟩ := hcode
      split at h
      case h_1 m left hword =>
        split at h
        case isTrue hlow =>
          cases h
          obtain ⟨word, hmore, hword⟩ := exists_hexWord hword
          exact ⟨hlow, word, by rw [hmore], hword⟩
        case isFalse => cases h
      case h_2 => cases h
    case isFalse => cases h
  case h_2 => cases h

lemma numbered_paired (hhigh : IsHigh n) (h : lowSurrogate? cs = some (m, rest)) :
    numbered n cs = (paired n m, rest) := by
  have hhigh : 0xD800 ≤ n ∧ n < 0xDC00 := hhigh
  simp only [numbered, if_pos hhigh, h, paired]

lemma numbered_unpaired (h : IsHigh n → lowSurrogate? cs = none) :
    numbered n cs = (unpaired n, cs) := by
  unfold numbered unpaired
  by_cases hhigh : IsHigh n
  · have hbounds : 0xD800 ≤ n ∧ n < 0xDC00 := hhigh
    simp only [if_pos hbounds, h hhigh, hhigh, true_or, if_true]
  · have hbounds : ¬(0xD800 ≤ n ∧ n < 0xDC00) := hhigh
    by_cases hlow : IsLow n
    · have hbounds' : 0xDC00 ≤ n ∧ n < 0xE000 := hlow
      simp only [if_neg hbounds, if_pos hbounds', hlow, or_true, if_true]
    · have hbounds' : ¬(0xDC00 ≤ n ∧ n < 0xE000) := hlow
      simp only [if_neg hbounds, if_neg hbounds', hhigh, hlow, or_self, if_false]

/-! ### Pairs among signs -/

/-- The first sign is the second half of a pair. -/
def BeginsLow : List Piece → Prop
  | .code m :: _ => IsLow m
  | _ => False

lemma characters_unpaired {pieces : List Piece} (h : IsHigh n → ¬ BeginsLow pieces) :
    characters (.code n :: pieces) = unpaired n :: characters pieces := by
  rcases pieces with _ | ⟨_ | m, pieces⟩
  · rfl
  · rfl
  · rw [characters, if_neg fun hpair => h hpair.1 hpair.2]

/-- In front of the closing quote half of a pair is seen exactly where it is the next sign. -/
lemma lowSurrogate?_eq_none {pieces : List Piece} (h : PiecesText cs pieces)
    (hlow : ¬ BeginsLow pieces) (rest : List Char) : lowSurrogate? (cs ++ '"' :: rest) = none := by
  cases h with
  | nil => cases rest <;> simp [lowSurrogate?]
  | cons hpiece hmore =>
    cases hpiece with
    | @plain c hquote hslash hcontrol =>
      rw [List.singleton_append, List.cons_append]
      unfold lowSurrogate?
      split
      case h_1 b u left heq =>
        obtain ⟨rfl, -⟩ := List.cons.inj heq
        rw [if_neg fun h => hslash h.1]
      case h_2 => rfl
    | @escape letter c hletter =>
      have hu : letter ≠ 'u' := by
        rintro rfl
        cases hletter
      simp [lowSurrogate?, hu]
    | code hword =>
      rw [List.append_assoc, List.cons_append, List.cons_append, lowSurrogate?_code hword]
      exact if_neg hlow

/-! ### One sign -/

section

variable (fuel : Nat) (before : List Char)

lemma stringBody_quote (cs : List Char) :
    stringBody (fuel + 1) before ('"' :: cs) = .ok (String.ofList before.reverse, cs) := by
  conv => lhs; unfold stringBody
  rw [if_pos (by decide)]

lemma stringBody_plain {c : Char} (hquote : c.toNat ≠ 34) (hslash : c ≠ '\\')
    (hcontrol : 32 ≤ c.toNat) (cs : List Char) :
    stringBody (fuel + 1) before (c :: cs) = stringBody fuel (c :: before) cs := by
  conv => lhs; unfold stringBody
  rw [if_neg hquote, if_neg hslash, if_neg (by omega)]

lemma stringBody_escape {letter c : Char} (h : escaped? letter = some c) (cs : List Char) :
    stringBody (fuel + 1) before ('\\' :: letter :: cs) = stringBody fuel (c :: before) cs := by
  have hu : letter ≠ 'u' := by
    rintro rfl
    cases h
  conv => lhs; unfold stringBody
  rw [if_neg (by decide), if_pos rfl]
  dsimp only
  rw [if_neg hu, h]

lemma stringBody_code (h : hexWord? cs = some (n, rest)) :
    stringBody (fuel + 1) before ('\\' :: 'u' :: cs) =
      stringBody fuel ((numbered n rest).1 :: before) (numbered n rest).2 := by
  conv => lhs; unfold stringBody
  rw [if_neg (by decide), if_pos rfl]
  dsimp only
  rw [if_pos rfl, h]

end

/-- What the reader of a string does next. -/
inductive SignRead (fuel : Nat) (before : List Char) : List Char → String → List Char → Prop
  | quote {cs : List Char} : SignRead fuel before ('"' :: cs) (String.ofList before.reverse) cs
  | plain {c : Char} {cs rest : List Char} {s : String} (hquote : c.toNat ≠ 34) (hslash : c ≠ '\\')
    (hcontrol : 32 ≤ c.toNat) (h : stringBody fuel (c :: before) cs = .ok (s, rest)) :
    SignRead fuel before (c :: cs) s rest
  | escape {letter c : Char} {cs rest : List Char} {s : String} (hletter : escaped? letter = some c)
    (h : stringBody fuel (c :: before) cs = .ok (s, rest)) :
    SignRead fuel before ('\\' :: letter :: cs) s rest
  | code {word left rest : List Char} {n : Nat} {s : String} (hword : hexWord? word = some (n, []))
    (h : stringBody fuel ((numbered n left).1 :: before) (numbered n left).2 = .ok (s, rest)) :
    SignRead fuel before ('\\' :: 'u' :: (word ++ left)) s rest

lemma signRead_of_stringBody {fuel : Nat} {before : List Char} {s : String}
    (h : stringBody (fuel + 1) before cs = .ok (s, rest)) : SignRead fuel before cs s rest := by
  rcases cs with _ | ⟨c, cs⟩
  · cases h
  by_cases hquote : c.toNat = 34
  · cases eq_quote_of_toNat hquote
    rw [stringBody_quote] at h
    cases h
    exact .quote
  by_cases hslash : c = '\\'
  · subst hslash
    unfold stringBody at h
    rw [if_neg hquote, if_pos rfl] at h
    rcases cs with _ | ⟨letter, cs⟩
    · cases h
    dsimp only at h
    by_cases hu : letter = 'u'
    · subst hu
      rw [if_pos rfl] at h
      rcases hword : hexWord? cs with _ | ⟨n, left⟩
      · rw [hword] at h
        cases h
      · rw [hword] at h
        obtain ⟨word, rfl, hdigits⟩ := exists_hexWord hword
        exact .code hdigits h
    · rw [if_neg hu] at h
      rcases hletter : escaped? letter with _ | x
      · rw [hletter] at h
        cases h
      · rw [hletter] at h
        exact .escape hletter h
  · unfold stringBody at h
    rw [if_neg hquote, if_neg hslash] at h
    by_cases hcontrol : c.toNat < 32
    · rw [if_pos hcontrol] at h
      cases h
    · rw [if_neg hcontrol] at h
      exact .plain hquote hslash (by omega) h

/-! ### Whole strings -/

/-- **What is read up to a closing quote are signs of the grammar.** -/
theorem piecesText_of_stringBody {fuel : Nat} {before : List Char} {s : String}
    (h : stringBody fuel before cs = .ok (s, rest)) : ∃ body pieces, PiecesText body pieces ∧
      cs = body ++ '"' :: rest ∧ s = String.ofList (before.reverse ++ characters pieces) := by
  induction fuel generalizing before cs with
  | zero => cases h
  | succ fuel ih =>
    cases signRead_of_stringBody h with
    | quote => exact ⟨[], [], .nil, rfl, by simp [characters]⟩
    | plain hquote hslash hcontrol hread =>
      obtain ⟨body, pieces, hbody, rfl, rfl⟩ := ih hread
      exact ⟨_, _, .cons (.plain hquote hslash hcontrol) hbody, rfl, by simp [characters]⟩
    | escape hletter hread =>
      obtain ⟨body, pieces, hbody, rfl, rfl⟩ := ih hread
      exact ⟨_, _, .cons (.escape hletter) hbody, rfl, by simp [characters]⟩
    | @code word left _ n _ hword hread =>
      by_cases hpair : IsHigh n ∧ ∃ m more, lowSurrogate? left = some (m, more)
      · obtain ⟨hhigh, m, more, hlow⟩ := hpair
        rw [numbered_paired hhigh hlow] at hread
        obtain ⟨hm, low, rfl, hlowWord⟩ := exists_lowSurrogate hlow
        obtain ⟨body, pieces, hbody, rfl, rfl⟩ := ih hread
        refine ⟨_, _, .cons (.code hword) (.cons (.code hlowWord) hbody), by simp, ?_⟩
        rw [characters, if_pos ⟨hhigh, hm⟩]
        simp
      · have hnone : IsHigh n → lowSurrogate? left = none := by
          intro hhigh
          rw [Option.eq_none_iff_forall_ne_some]
          exact fun pair hpair' => hpair ⟨hhigh, pair.1, pair.2, hpair'⟩
        rw [numbered_unpaired hnone] at hread
        obtain ⟨body, pieces, hbody, rfl, rfl⟩ := ih hread
        have hlow : IsHigh n → ¬ BeginsLow pieces := by
          intro hhigh hlow
          rcases pieces with _ | ⟨_ | m, pieces⟩
          · exact hlow
          · exact hlow
          · -- the other half would have been seen
            obtain _ | ⟨hpiece, hmore⟩ := hbody
            cases hpiece with
            | code hlowWord =>
              have hlow : IsLow m := hlow
              have hseen := hnone hhigh
              rw [List.append_assoc, List.cons_append, List.cons_append,
                lowSurrogate?_code hlowWord, if_pos hlow] at hseen
              cases hseen
        exact ⟨_, _, .cons (.code hword) hbody, by simp, by rw [characters_unpaired hlow]; simp⟩

/-- **Signs of the grammar are read up to the closing quote.** -/
theorem stringBody_of_piecesText {body : List Char} {pieces : List Piece}
    (h : PiecesText body pieces) {fuel : Nat} (hfuel : body.length < fuel)
    (before rest : List Char) :
    stringBody fuel before (body ++ '"' :: rest) =
      .ok (String.ofList (before.reverse ++ characters pieces), rest) := by
  induction fuel generalizing before body pieces with
  | zero => omega
  | succ fuel ih =>
    cases h with
    | nil => simp [stringBody_quote, characters]
    | @cons _ more _ pieces hpiece hmore =>
      rw [List.length_append] at hfuel
      rw [List.append_assoc]
      cases hpiece with
      | plain hquote hslash hcontrol =>
        rw [List.length_singleton] at hfuel
        rw [List.singleton_append, stringBody_plain _ _ hquote hslash hcontrol, ih hmore (by omega)]
        simp [characters]
      | escape hletter =>
        simp only [List.length_cons, List.length_nil] at hfuel
        rw [List.cons_append, List.singleton_append, stringBody_escape _ _ hletter,
          ih hmore (by omega)]
        simp [characters]
      | @code word n hword =>
        simp only [List.length_cons] at hfuel
        rw [List.cons_append, List.cons_append, stringBody_code _ _ (hexWord?_append hword _)]
        by_cases hpair : IsHigh n ∧ BeginsLow pieces
        · -- two signs are taken at once
          obtain ⟨hhigh, hlow⟩ := hpair
          cases hmore with
          | nil => exact hlow.elim
          | @cons _ more _ pieces hnext hmore =>
            cases hnext with
            | plain => exact hlow.elim
            | escape => exact hlow.elim
            | @code low m hlowWord =>
              have hlow : IsLow m := hlow
              simp only [List.length_append, List.length_cons] at hfuel
              rw [List.append_assoc, List.cons_append, List.cons_append,
                numbered_paired hhigh (by rw [lowSurrogate?_code hlowWord, if_pos hlow]),
                ih hmore (by omega), characters, if_pos ⟨hhigh, hlow⟩]
              simp
        · have hlow : IsHigh n → ¬ BeginsLow pieces := fun hhigh hlow => hpair ⟨hhigh, hlow⟩
          rw [numbered_unpaired fun hhigh => lowSurrogate?_eq_none hmore (hlow hhigh) rest,
            ih hmore (by omega), characters_unpaired hlow]
          simp

end BackupSteward.Json
