import BackupSteward.Json.Reader
import Mathlib.Tactic.Lemma

/-!
# The grammar of JSON

Which characters are a JSON text, and which value it has.  This is said by how values are written
and not by how they are read: a text is put together from the texts of its parts, with white space
between them.  The depth of a text is the number of brackets that stand inside each other.
-/

namespace BackupSteward.Json

/-- White space between tokens, or none. -/
def IsSpace (cs : List Char) : Prop := ∀ c ∈ cs, isSpace c = true

/-! ### Strings -/

/-- What one sign of a string stands for: a character, or a number of 16 bits, which may be half of
a pair that stands for a character together. -/
inductive Piece where
  | char (c : Char)
  | code (n : Nat)

/-- How the signs of a string are written. -/
inductive PieceText : List Char → Piece → Prop
  /-- Characters stand for themselves, but for quotes, backslashes and controls. -/
  | plain {c : Char} (hquote : c.toNat ≠ 34) (hslash : c ≠ '\\') (hcontrol : 32 ≤ c.toNat) :
    PieceText [c] (.char c)
  | escape {letter c : Char} (h : escaped? letter = some c) : PieceText ['\\', letter] (.char c)
  | code {word : List Char} {n : Nat} (h : hexWord? word = some (n, [])) :
    PieceText ('\\' :: 'u' :: word) (.code n)

/-- Signs are written one behind the other. -/
inductive PiecesText : List Char → List Piece → Prop
  | nil : PiecesText [] []
  | cons {cs more : List Char} {piece : Piece} {pieces : List Piece} (h : PieceText cs piece)
    (hmore : PiecesText more pieces) : PiecesText (cs ++ more) (piece :: pieces)

/-- The first half of a pair. -/
def IsHigh (n : Nat) : Prop := 0xD800 ≤ n ∧ n < 0xDC00

/-- The second half of a pair. -/
def IsLow (n : Nat) : Prop := 0xDC00 ≤ n ∧ n < 0xE000

instance (n : Nat) : Decidable (IsHigh n) := inferInstanceAs (Decidable (_ ∧ _))

instance (n : Nat) : Decidable (IsLow n) := inferInstanceAs (Decidable (_ ∧ _))

/-- The character of a pair. -/
def paired (high low : Nat) : Char :=
  Char.ofNat (0x10000 + (high - 0xD800) * 0x400 + (low - 0xDC00))

/-- The character of a number that has no other half; half of a pair alone is the replacement
character. -/
def unpaired (n : Nat) : Char := if IsHigh n ∨ IsLow n then Char.ofNat 0xFFFD else Char.ofNat n

/-- The characters of some signs: two halves that follow each other are one character. -/
def characters : List Piece → List Char
  | [] => []
  | .char c :: pieces => c :: characters pieces
  | .code n :: .code m :: pieces =>
    if IsHigh n ∧ IsLow m then paired n m :: characters pieces
    else unpaired n :: characters (.code m :: pieces)
  | .code n :: pieces => unpaired n :: characters pieces

/-- How strings are written. -/
inductive StringText : List Char → String → Prop
  | intro {cs : List Char} {pieces : List Piece} (h : PiecesText cs pieces) :
    StringText ('"' :: (cs ++ ['"'])) (String.ofList (characters pieces))

/-! ### Numbers -/

/-- Decimal digits, at least one. -/
structure IsDigits (cs : List Char) : Prop where
  ne_nil : cs ≠ []
  all : ∀ c ∈ cs, c.isDigit = true

/-- The digits in front of a point: a zero stands alone there. -/
structure IsWhole (cs : List Char) : Prop extends IsDigits cs where
  zero_alone : cs.head? = some '0' → cs = ['0']

/-- The number that decimal digits write. -/
def decimal (cs : List Char) : Nat := Number.ofDigits (cs.map fun c => c.toNat - 48)

/-- A number with its sign. -/
def signed (negative : Bool) (n : Nat) : Int := if negative then -(n : Int) else n

/-- A number may begin with a minus. -/
def minus (negative : Bool) : List Char := if negative then ['-'] else []

/-- How the digits behind a point are written, if there are any. -/
inductive FractionText : List Char → List Char → Prop
  | absent : FractionText [] []
  | point {places : List Char} (h : IsDigits places) : FractionText ('.' :: places) places

/-- How an exponent is written, if there is one. -/
inductive ExponentText : List Char → Int → Prop
  | absent : ExponentText [] 0
  | power {letter : Char} {sign digits : List Char} (hletter : letter = 'e' ∨ letter = 'E')
    (hsign : sign = [] ∨ sign = ['+'] ∨ sign = ['-']) (h : IsDigits digits) :
    ExponentText (letter :: (sign ++ digits)) (signed (sign = ['-']) (decimal digits))

/-- How numbers are written.  A number without point and exponent is a whole number, with no more
digits than may be read; any other number is the double next to it. -/
inductive NumberText : List Char → Value → Prop
  | int (negative : Bool) {whole : List Char} (hwhole : IsWhole whole)
    (hcount : whole.length ≤ Number.maxDigits) :
    NumberText (minus negative ++ whole) (.int (signed negative (decimal whole)))
  | double (negative : Bool) {whole fraction places exponent : List Char} {e : Int}
    (hwhole : IsWhole whole) (hfraction : FractionText fraction places)
    (hexponent : ExponentText exponent e) (hsome : fraction ++ exponent ≠ []) :
    NumberText (minus negative ++ (whole ++ (fraction ++ exponent)))
      (.double (Double.ofDecimal negative (decimal (whole ++ places)) (e - places.length)))

/-! ### Values -/

/-- How names, numbers and strings are written. -/
inductive ScalarText : List Char → Value → Prop
  | name {word : String} {v : Value} (h : (word, v) ∈ named) : ScalarText word.toList v
  | number {cs : List Char} {v : Value} (h : NumberText cs v) : ScalarText cs v
  | string {cs : List Char} {s : String} (h : StringText cs s) : ScalarText cs (.str s)

/-- Something in a text, with the white space around it. -/
structure Spaced (α : Type) where
  before : List Char
  text : List Char
  after : List Char
  value : α

namespace Spaced

variable {α : Type}

/-- The characters of something and of the white space around it. -/
def whole (s : Spaced α) : List Char := s.before ++ s.text ++ s.after

/-- Only white space stands around it. -/
structure IsSpaced (s : Spaced α) : Prop where
  before : IsSpace s.before
  after : IsSpace s.after

end Spaced

/-- Texts with commas between them. -/
def commaJoined : List (List Char) → List Char
  | [] => []
  | [text] => text
  | text :: texts => text ++ ',' :: commaJoined texts

/-- A field in a text: its name and its value. -/
structure Member where
  name : Spaced String
  value : Spaced Value

namespace Member

/-- The characters of a field. -/
def whole (m : Member) : List Char := m.name.whole ++ ':' :: m.value.whole

/-- The name is a string, and only white space stands around it and around the value. -/
structure IsNamed (m : Member) : Prop where
  name : m.name.IsSpaced
  value : m.value.IsSpaced
  string : StringText m.name.text m.name.value

/-- The name with the value. -/
def field (m : Member) : String × Value := (m.name.value, m.value.value)

end Member

/-- How values are written, with brackets that stand inside each other down to a depth.  Of two
fields of one name the last value counts, at the place of the first. -/
inductive ValueText : Nat → List Char → Value → Prop
  | scalar {depth : Nat} {cs : List Char} {v : Value} (h : ScalarText cs v) : ValueText depth cs v
  | emptyArray {depth : Nat} {space : List Char} (h : IsSpace space) :
    ValueText (depth + 1) ('[' :: (space ++ [']'])) (.list [])
  | array {depth : Nat} {items : List (Spaced Value)} (hne : items ≠ [])
    (hspaced : ∀ i ∈ items, i.IsSpaced) (h : ∀ i ∈ items, ValueText depth i.text i.value) :
    ValueText (depth + 1) ('[' :: (commaJoined (items.map (·.whole)) ++ [']']))
      (.list (items.map (·.value)))
  | emptyObject {depth : Nat} {space : List Char} (h : IsSpace space) :
    ValueText (depth + 1) ('{' :: (space ++ ['}'])) (.record [])
  | object {depth : Nat} {members : List Member} (hne : members ≠ [])
    (hnamed : ∀ m ∈ members, m.IsNamed)
    (h : ∀ m ∈ members, ValueText depth m.value.text m.value.value) :
    ValueText (depth + 1) ('{' :: (commaJoined (members.map (·.whole)) ++ ['}']))
      (.record (Fields.putAll [] (members.map (·.field))))

/-- A JSON text of some depth: a value, and white space around it. -/
inductive TextWithin (depth : Nat) : List Char → Value → Prop
  | intro {before text after : List Char} {v : Value} (hbefore : IsSpace before)
    (hafter : IsSpace after) (h : ValueText depth text v) :
    TextWithin depth (before ++ text ++ after) v

/-- A JSON text, however deep. -/
def IsText (cs : List Char) (v : Value) : Prop := ∃ depth, TextWithin depth cs v

end BackupSteward.Json
