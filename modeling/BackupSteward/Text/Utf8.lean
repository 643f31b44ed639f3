/-!
# Bytes and text

Reading bytes as UTF-8.  Text from the engine is read with replacement: each maximal part
that starts like a character and cannot be completed counts as one replacement character.
A password file is read strictly.
-/

namespace BackupSteward.Text

/-- Bytes of a file or a pipe. -/
abbrev Bytes := List UInt8

namespace Utf8

/-- What a leading byte promises: the bits it carries and the range of each byte that has to
follow.  The narrowed first ranges keep out overlong forms, surrogates and numbers above the
last code point. -/
def shape? (lead : UInt8) : Option (Nat × List (UInt8 × UInt8)) :=
  let n := lead.toNat
  if n < 0x80 then some (n, [])
  else if n < 0xC2 then none
  else if n < 0xE0 then some (n % 32, [(0x80, 0xBF)])
  else if n = 0xE0 then some (0, [(0xA0, 0xBF), (0x80, 0xBF)])
  else if n = 0xED then some (13, [(0x80, 0x9F), (0x80, 0xBF)])
  else if n < 0xF0 then some (n % 16, [(0x80, 0xBF), (0x80, 0xBF)])
  else if n = 0xF0 then some (0, [(0x90, 0xBF), (0x80, 0xBF), (0x80, 0xBF)])
  else if n < 0xF4 then some (n % 8, [(0x80, 0xBF), (0x80, 0xBF), (0x80, 0xBF)])
  else if n = 0xF4 then some (4, [(0x80, 0x8F), (0x80, 0xBF), (0x80, 0xBF)])
  else none

/-- Completes a character whose leading bits are `bits`.  Without a character, the bytes from
the first one out of range are left over. -/
def complete : List (UInt8 × UInt8) → (bits : Nat) → Bytes → Option Char × Bytes
  | [], bits, rest => (some (Char.ofNat bits), rest)
  | _ :: _, _, [] => (none, [])
  | (lo, hi) :: ranges, bits, b :: rest =>
    if lo ≤ b && b ≤ hi then complete ranges (bits * 64 + b.toNat % 64) rest
    else (none, b :: rest)

theorem length_complete_le (ranges : List (UInt8 × UInt8)) (bits : Nat) (bs : Bytes) :
    (complete ranges bits bs).2.length ≤ bs.length := by
  induction ranges generalizing bits bs with
  | nil => simp [complete]
  | cons r rs ih =>
    cases bs with
    | nil => simp [complete]
    | cons b bs =>
      simp only [complete]
      split
      · exact Nat.le_trans (ih _ _) (by simp)
      · simp

/-- The first character of some bytes and the bytes behind it; no character where a maximal
invalid part stands. -/
def next (lead : UInt8) (rest : Bytes) : Option Char × Bytes :=
  match shape? lead with
  | none => (none, rest)
  | some (bits, ranges) => complete ranges bits rest

theorem length_next_le (lead : UInt8) (rest : Bytes) :
    (next lead rest).2.length ≤ rest.length := by
  unfold next
  split
  · exact Nat.le_refl _
  · exact length_complete_le _ _ _

/-- Reads at most `fuel` characters, with `mark` for each invalid part, behind the characters
read before, which are kept last first. -/
def read (mark : Option Char) : (fuel : Nat) → Bytes → List Char → Option (List Char)
  | _, [], before => some before.reverse
  | 0, _ :: _, before => some before.reverse
  | fuel + 1, b :: bs, before =>
    let (c, rest) := next b bs
    match c.or mark with
    | some c => read mark fuel rest (c :: before)
    | none => none

end Utf8

/-- The text that bytes hold, each maximal invalid part replaced by the replacement
character. -/
def decodeLossy (bs : Bytes) : String :=
  String.ofList ((Utf8.read (some (Char.ofNat 0xFFFD)) bs.length bs []).getD [])

/-- The text that bytes hold, if they are well-formed. -/
def decode? (bs : Bytes) : Option String :=
  (Utf8.read none bs.length bs []).map String.ofList

/-- The bytes of a text. -/
def encode (s : String) : Bytes := s.toUTF8.toList

end BackupSteward.Text
