import BackupSteward.Text.Utf8
import Mathlib.Tactic.Lemma
import Mathlib.Tactic.SplitIfs

/-!
# Bytes of a text

Strict reading gives back the text that was written, and it reads nothing else: bytes are a text
exactly if they are the encoding of one.
-/

namespace BackupSteward.Text

/-! ### The encoding, character by character -/

lemma toList_loop (bytes : ByteArray) (i : Nat) (before : List UInt8) :
    ByteArray.toList.loop bytes i before = before.reverse ++ bytes.data.toList.drop i := by
  fun_induction ByteArray.toList.loop bytes i before with
  | case1 i before hi ih =>
    have hi' : i < bytes.data.toList.length := by simpa using hi
    have hget : bytes.get! i = bytes.data.toList[i] := by
      show bytes.data[i]! = _
      simp at hi'
      simp [hi']
    rw [ih, List.reverse_cons, List.append_assoc, List.singleton_append, hget,
      ← List.drop_eq_getElem_cons hi']
  | case2 i before hi =>
    have hi' : bytes.data.toList.length ≤ i := by simpa using hi
    rw [List.drop_eq_nil_of_le hi', List.append_nil]

lemma encode_ofList (cs : List Char) :
    encode (String.ofList cs) = cs.flatMap String.utf8EncodeChar := by
  rw [encode, String.toUTF8_eq_toByteArray, String.toByteArray_ofList, ByteArray.toList,
    toList_loop]
  simp [List.utf8Encode]

namespace Utf8

/-- A number that stands for a character. -/
lemma val_ofNat {v : Nat} (h : v.isValidChar) : (Char.ofNat v).val.toNat = v := by
  rw [Char.ofNat, dif_pos h]
  rfl

/-- A byte that continues a character. -/
abbrev Continues (b : UInt8) : Prop := 0x80 ≤ b.toNat ∧ b.toNat < 0xC0

/-- Some bytes spell a number in its shortest form, and the number stands for a character. -/
inductive Spells : Bytes → Nat → Prop
  | one {a : UInt8} (ha : a.toNat < 0x80) : Spells [a] a.toNat
  | two {a b : UInt8} (ha : 0xC2 ≤ a.toNat ∧ a.toNat < 0xE0) (hb : Continues b) :
    Spells [a, b] (a.toNat % 32 * 64 + b.toNat % 64)
  | three {a b c : UInt8} (ha : 0xE0 ≤ a.toNat ∧ a.toNat < 0xF0) (hb : Continues b)
    (hc : Continues c) (hlong : a.toNat = 0xE0 → 0xA0 ≤ b.toNat)
    (hscalar : a.toNat = 0xED → b.toNat < 0xA0) :
    Spells [a, b, c] ((a.toNat % 16 * 64 + b.toNat % 64) * 64 + c.toNat % 64)
  | four {a b c d : UInt8} (ha : 0xF0 ≤ a.toNat ∧ a.toNat ≤ 0xF4) (hb : Continues b)
    (hc : Continues c) (hd : Continues d) (hlong : a.toNat = 0xF0 → 0x90 ≤ b.toNat)
    (hlast : a.toNat = 0xF4 → b.toNat < 0x90) :
    Spells [a, b, c, d]
      (((a.toNat % 8 * 64 + b.toNat % 64) * 64 + c.toNat % 64) * 64 + d.toNat % 64)

lemma Spells.isValidChar {bytes : Bytes} {v : Nat} (h : Spells bytes v) : v.isValidChar := by
  unfold Nat.isValidChar
  cases h <;> omega

/-- What spells a number is the encoding of its character. -/
lemma Spells.encode_eq {bytes : Bytes} {v : Nat} (h : Spells bytes v) :
    String.utf8EncodeChar (Char.ofNat v) = bytes := by
  rw [String.utf8EncodeChar, val_ofNat h.isValidChar]
  cases h with
  | one ha =>
    rw [if_pos (by omega)]
    simp
  | two ha hb =>
    rw [if_neg (by omega), if_pos (by omega)]
    simp only [List.cons.injEq, ← UInt8.toNat_inj, UInt8.toNat_ofNat', and_true]
    omega
  | three ha hb hc hlong hscalar =>
    rw [if_neg (by omega), if_neg (by omega), if_pos (by omega)]
    simp only [List.cons.injEq, ← UInt8.toNat_inj, UInt8.toNat_ofNat', and_true]
    omega
  | four ha hb hc hd hlong hlast =>
    rw [if_neg (by omega), if_neg (by omega), if_neg (by omega)]
    simp only [List.cons.injEq, ← UInt8.toNat_inj, UInt8.toNat_ofNat', and_true]
    omega

lemma Spells.of_eq {bytes : Bytes} {v w : Nat} (h : Spells bytes v) (hv : v = w) :
    Spells bytes w := hv ▸ h

/-- The encoding of a character spells its number. -/
lemma spells_encode (c : Char) : Spells (String.utf8EncodeChar c) c.toNat := by
  have hvalid : c.val.toNat < 0xD800 ∨ 0xDFFF < c.val.toNat ∧ c.val.toNat < 0x110000 := c.valid
  show Spells (String.utf8EncodeChar c) c.val.toNat
  unfold String.utf8EncodeChar
  generalize c.val.toNat = v at hvalid ⊢
  dsimp only
  split_ifs
  · refine (Spells.one ?_).of_eq ?_
    all_goals
      simp only [UInt8.toNat_ofNat']
      omega
  · refine (Spells.two ?_ ?_).of_eq ?_
    all_goals
      simp only [Continues, UInt8.toNat_ofNat']
      omega
  · refine (Spells.three ?_ ?_ ?_ ?_ ?_).of_eq ?_
    all_goals
      simp only [Continues, UInt8.toNat_ofNat']
      omega
  · refine (Spells.four ?_ ?_ ?_ ?_ ?_ ?_).of_eq ?_
    all_goals
      simp only [Continues, UInt8.toNat_ofNat']
      omega

lemma complete_cons_of_le {lo hi b : UInt8} (hlo : lo.toNat ≤ b.toNat) (hhi : b.toNat ≤ hi.toNat)
    (ranges : List (UInt8 × UInt8)) (bits : Nat) (rest : Bytes) :
    complete ((lo, hi) :: ranges) bits (b :: rest) =
      complete ranges (bits * 64 + b.toNat % 64) rest := by
  rw [complete, if_pos]
  simp [UInt8.le_iff_toNat_le, hlo, hhi]

lemma complete_cons_eq_some {lo hi : UInt8} {ranges : List (UInt8 × UInt8)} {bits : Nat}
    {bytes rest : Bytes} {c : Char}
    (h : complete ((lo, hi) :: ranges) bits bytes = (some c, rest)) :
    ∃ b more, bytes = b :: more ∧ lo.toNat ≤ b.toNat ∧ b.toNat ≤ hi.toNat ∧
      complete ranges (bits * 64 + b.toNat % 64) more = (some c, rest) := by
  cases bytes with
  | nil => cases h
  | cons b more =>
    rw [complete] at h
    split at h
    case isTrue hb =>
      rw [Bool.and_eq_true, decide_eq_true_eq, decide_eq_true_eq, UInt8.le_iff_toNat_le,
        UInt8.le_iff_toNat_le] at hb
      exact ⟨b, more, rfl, hb.1, hb.2, h⟩
    case isFalse => cases h

/-! ### Leading bytes -/

lemma shape?_one {a : UInt8} (ha : a.toNat < 0x80) : shape? a = some (a.toNat, []) := if_pos ha

lemma shape?_two {a : UInt8} (ha : 0xC2 ≤ a.toNat ∧ a.toNat < 0xE0) :
    shape? a = some (a.toNat % 32, [(0x80, 0xBF)]) := by
  unfold shape?
  rw [if_neg (by omega), if_neg (by omega), if_pos ha.2]

lemma shape?_three {a : UInt8} (ha : 0xE0 ≤ a.toNat ∧ a.toNat < 0xF0) :
    shape? a = some (a.toNat % 16, [(if a.toNat = 0xE0 then 0xA0 else 0x80,
      if a.toNat = 0xED then 0x9F else 0xBF), (0x80, 0xBF)]) := by
  unfold shape?
  dsimp only
  by_cases hfirst : a.toNat = 0xE0
  · simp [hfirst]
  by_cases hscalar : a.toNat = 0xED
  · simp [hscalar]
  rw [if_neg (by omega), if_neg (by omega), if_neg (by omega), if_neg hfirst, if_neg hscalar,
    if_pos (by omega), if_neg hfirst, if_neg hscalar]

lemma shape?_four {a : UInt8} (ha : 0xF0 ≤ a.toNat ∧ a.toNat ≤ 0xF4) :
    shape? a = some (a.toNat % 8, [(if a.toNat = 0xF0 then 0x90 else 0x80,
      if a.toNat = 0xF4 then 0x8F else 0xBF), (0x80, 0xBF), (0x80, 0xBF)]) := by
  unfold shape?
  dsimp only
  by_cases hfirst : a.toNat = 0xF0
  · simp [hfirst]
  by_cases hlast : a.toNat = 0xF4
  · simp [hlast]
  rw [if_neg (by omega), if_neg (by omega), if_neg (by omega), if_neg (by omega),
    if_neg (by omega), if_neg (by omega), if_neg hfirst, if_pos (by omega), if_neg hfirst,
    if_neg hlast]

/-- No other byte begins a character. -/
lemma shape?_none {a : UInt8} (ha : 0x80 ≤ a.toNat ∧ a.toNat < 0xC2 ∨ 0xF4 < a.toNat) :
    shape? a = none := by
  unfold shape?
  dsimp only
  rcases ha with ha | ha
  · rw [if_neg (by omega), if_pos (by omega)]
  · rw [if_neg (by omega), if_neg (by omega), if_neg (by omega), if_neg (by omega),
      if_neg (by omega), if_neg (by omega), if_neg (by omega), if_neg (by omega),
      if_neg (by omega)]

/-! ### One character -/

/-- What spells a number is read as its character. -/
lemma Spells.next_eq {lead : UInt8} {tail : Bytes} {v : Nat} (h : Spells (lead :: tail) v)
    (rest : Bytes) : next lead (tail ++ rest) = (some (Char.ofNat v), rest) := by
  unfold next
  cases h with
  | one ha =>
    rw [shape?_one ha]
    rfl
  | two ha hb =>
    rw [shape?_two ha]
    simp only [List.cons_append, List.nil_append]
    rw [complete_cons_of_le]
    · rfl
    · exact hb.1
    · exact Nat.le_of_lt_succ hb.2
  | three ha hb hc hlong hscalar =>
    rw [shape?_three ha]
    simp only [List.cons_append, List.nil_append]
    rw [complete_cons_of_le, complete_cons_of_le]
    · rfl
    · exact hc.1
    · exact Nat.le_of_lt_succ hc.2
    · split
      · exact hlong ‹_›
      · exact hb.1
    · split
      · exact Nat.le_of_lt_succ (hscalar ‹_›)
      · exact Nat.le_of_lt_succ hb.2
  | four ha hb hc hd hlong hlast =>
    rw [shape?_four ha]
    simp only [List.cons_append, List.nil_append]
    rw [complete_cons_of_le, complete_cons_of_le, complete_cons_of_le]
    · rfl
    · exact hd.1
    · exact Nat.le_of_lt_succ hd.2
    · exact hc.1
    · exact Nat.le_of_lt_succ hc.2
    · split
      · exact hlong ‹_›
      · exact hb.1
    · split
      · exact Nat.le_of_lt_succ (hlast ‹_›)
      · exact Nat.le_of_lt_succ hb.2

/-- A character is read from what spells it. -/
lemma spells_of_next {lead : UInt8} {bytes rest : Bytes} {c : Char}
    (h : next lead bytes = (some c, rest)) :
    ∃ tail v, bytes = tail ++ rest ∧ c = Char.ofNat v ∧ Spells (lead :: tail) v := by
  unfold next at h
  have hlead : lead.toNat < 0x80 ∨ (0xC2 ≤ lead.toNat ∧ lead.toNat < 0xE0) ∨
      (0xE0 ≤ lead.toNat ∧ lead.toNat < 0xF0) ∨ (0xF0 ≤ lead.toNat ∧ lead.toNat ≤ 0xF4) ∨
      (0x80 ≤ lead.toNat ∧ lead.toNat < 0xC2 ∨ 0xF4 < lead.toNat) := by omega
  rcases hlead with ha | ha | ha | ha | ha
  · rw [shape?_one ha] at h
    cases h
    exact ⟨[], _, rfl, rfl, .one ha⟩
  · rw [shape?_two ha] at h
    obtain ⟨b, more, rfl, hlo, hhi, h⟩ := complete_cons_eq_some h
    cases h
    exact ⟨[b], _, rfl, rfl, .two ha ⟨hlo, Nat.lt_succ_of_le hhi⟩⟩
  · rw [shape?_three ha] at h
    obtain ⟨b, more, rfl, hlo, hhi, h⟩ := complete_cons_eq_some h
    obtain ⟨c, more, rfl, hlo', hhi', h⟩ := complete_cons_eq_some h
    cases h
    simp only [apply_ite UInt8.toNat, UInt8.reduceToNat] at hlo hhi hlo' hhi'
    obtain ⟨hb, hlong, hscalar⟩ : Continues b ∧ (lead.toNat = 0xE0 → 0xA0 ≤ b.toNat) ∧
        (lead.toNat = 0xED → b.toNat < 0xA0) := by
      split_ifs at hlo hhi <;> omega
    exact ⟨[b, c], _, rfl, rfl, .three ha hb (by omega) hlong hscalar⟩
  · rw [shape?_four ha] at h
    obtain ⟨b, more, rfl, hlo, hhi, h⟩ := complete_cons_eq_some h
    obtain ⟨c, more, rfl, hlo', hhi', h⟩ := complete_cons_eq_some h
    obtain ⟨d, more, rfl, hlo'', hhi'', h⟩ := complete_cons_eq_some h
    cases h
    simp only [apply_ite UInt8.toNat, UInt8.reduceToNat] at hlo hhi hlo' hhi' hlo'' hhi''
    obtain ⟨hb, hlong, hlast⟩ : Continues b ∧ (lead.toNat = 0xF0 → 0x90 ≤ b.toNat) ∧
        (lead.toNat = 0xF4 → b.toNat < 0x90) := by
      split_ifs at hlo hhi <;> omega
    exact ⟨[b, c, d], _, rfl, rfl, .four ha hb (by omega) (by omega) hlong hlast⟩
  · rw [shape?_none ha] at h
    cases h

/-- **Reading a character undoes its encoding**, and reads nothing else. -/
theorem next_eq_some_iff {lead : UInt8} {bytes rest : Bytes} {c : Char} :
    next lead bytes = (some c, rest) ↔ lead :: bytes = String.utf8EncodeChar c ++ rest := by
  constructor
  · intro h
    obtain ⟨tail, v, rfl, rfl, hspells⟩ := spells_of_next h
    rw [hspells.encode_eq, List.cons_append]
  · intro h
    have hspells := spells_encode c
    cases hencode : String.utf8EncodeChar c with
    | nil =>
      rw [hencode] at hspells
      cases hspells
    | cons first tail =>
      rw [hencode] at hspells
      rw [hencode, List.cons_append] at h
      obtain ⟨rfl, rfl⟩ := List.cons.inj h
      rw [hspells.next_eq, Char.ofNat_toNat]

/-! ### Texts -/

lemma encodeChar_ne_nil (c : Char) : String.utf8EncodeChar c ≠ [] := by
  have hspells := spells_encode c
  intro h
  rw [h] at hspells
  cases hspells

lemma read_nil_eq_some_iff {fuel : Nat} {before cs : List Char} :
    read none fuel [] before = some cs ↔
      ∃ more, cs = before.reverse ++ more ∧ [] = more.flatMap String.utf8EncodeChar := by
  have hread : read none fuel [] before = some before.reverse := by cases fuel <;> rfl
  rw [hread, Option.some.injEq]
  constructor
  · rintro rfl
    exact ⟨[], (List.append_nil _).symm, rfl⟩
  · rintro ⟨more, rfl, hmore⟩
    cases more with
    | nil => exact (List.append_nil _).symm
    | cons c more =>
      rw [List.flatMap_cons] at hmore
      exact absurd (List.append_eq_nil_iff.1 hmore.symm).1 (encodeChar_ne_nil c)

/-- Bytes are read as the characters that they encode. -/
lemma read_eq_some_iff {fuel : Nat} {bytes : Bytes} (hfuel : bytes.length ≤ fuel)
    {before cs : List Char} : read none fuel bytes before = some cs ↔
      ∃ more, cs = before.reverse ++ more ∧ bytes = more.flatMap String.utf8EncodeChar := by
  induction fuel generalizing bytes before with
  | zero =>
    obtain rfl := List.eq_nil_of_length_eq_zero (Nat.le_zero.1 hfuel)
    exact read_nil_eq_some_iff
  | succ fuel ih =>
    cases bytes with
    | nil => exact read_nil_eq_some_iff
    | cons lead bytes =>
      have hshort : (next lead bytes).2.length ≤ fuel :=
        Nat.le_trans (length_next_le lead bytes) (Nat.le_of_succ_le_succ hfuel)
      constructor
      · intro h
        rw [read] at h
        rcases hnext : next lead bytes with ⟨_ | c, rest⟩
        · rw [hnext] at h
          cases h
        · rw [hnext] at h hshort
          obtain ⟨more, rfl, rfl⟩ := (ih hshort).1 h
          exact ⟨c :: more, by simp, next_eq_some_iff.1 hnext⟩
      · rintro ⟨more, rfl, hmore⟩
        cases more with
        | nil => cases hmore
        | cons c more =>
          have hnext := next_eq_some_iff.2 hmore
          rw [hnext] at hshort
          rw [read, hnext]
          exact (ih hshort).2 ⟨more, by simp, rfl⟩

end Utf8

/-- **Strict reading accepts exactly the encodings of texts**, and gives back the text. -/
theorem decode?_eq_some_iff {bytes : Bytes} {s : String} :
    decode? bytes = some s ↔ encode s = bytes := by
  obtain ⟨cs, rfl⟩ : ∃ cs, s = String.ofList cs := ⟨s.toList, String.ofList_toList.symm⟩
  rw [decode?, encode_ofList, Option.map_eq_some_iff]
  constructor
  · rintro ⟨cs', hread, heq⟩
    obtain rfl := String.ofList_injective heq
    obtain ⟨more, rfl, rfl⟩ := (Utf8.read_eq_some_iff (Nat.le_refl _)).1 hread
    rfl
  · rintro rfl
    exact ⟨cs, (Utf8.read_eq_some_iff (Nat.le_refl _)).2 ⟨cs, rfl, rfl⟩, rfl⟩

/-- Strict reading refuses what is not the encoding of any text. -/
theorem decode?_eq_none_iff {bytes : Bytes} :
    decode? bytes = none ↔ ∀ s, encode s ≠ bytes := by
  rw [Option.eq_none_iff_forall_ne_some]
  exact forall_congr' fun s => not_congr decode?_eq_some_iff

end BackupSteward.Text
