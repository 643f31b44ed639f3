import BackupSteward.Value

/-!
# Reading JSON

A strict reader: no comments, no trailing commas, no control characters inside strings.  Of
two fields of one name the last value counts, at the place of the first.  Besides the numbers
of the grammar it knows the names of the infinities and of the number that is none.

Nesting is bounded by a fixed depth, and reading stops with `Fault.tooDeep` at the bracket
that goes beyond it, whatever stands behind.  Every other defect is `Fault.badValue`.
-/

namespace BackupSteward.Json

/-- How deeply arrays and objects may nest. -/
def maxDepth : Nat := 980

/-- What reading gives: something read and the characters behind it. -/
abbrev Read (α : Type) := Except Fault (α × List Char)

/-- White space between tokens. -/
def isSpace (c : Char) : Bool := c = ' ' || c = '\t' || c = '\n' || c = '\r'

/-- The characters behind white space. -/
def skipSpace (cs : List Char) : List Char := cs.dropWhile isSpace

/-! ## Strings -/

/-- The value of a hexadecimal digit. -/
def hexValue? (c : Char) : Option Nat :=
  let n := c.toNat
  if 48 ≤ n && n ≤ 57 then some (n - 48)
  else if 65 ≤ n && n ≤ 70 then some (n - 55)
  else if 97 ≤ n && n ≤ 102 then some (n - 87)
  else none

/-- A number of four hexadecimal digits. -/
def hexWord? : List Char → Option (Nat × List Char)
  | a :: b :: c :: d :: rest =>
    match hexValue? a, hexValue? b, hexValue? c, hexValue? d with
    | some a, some b, some c, some d => some (((a * 16 + b) * 16 + c) * 16 + d, rest)
    | _, _, _, _ => none
  | _ => none

/-- The second half of a pair of surrogates, where one stands. -/
def lowSurrogate? : List Char → Option (Nat × List Char)
  | b :: u :: rest =>
    if b = '\\' ∧ u = 'u' then
      match hexWord? rest with
      | some (n, rest) => if 0xDC00 ≤ n ∧ n < 0xE000 then some (n, rest) else none
      | none => none
    else none
  | _ => none

/-- The character written by number; half of a pair alone is the replacement character. -/
def numbered (n : Nat) (rest : List Char) : Char × List Char :=
  let replacement := Char.ofNat 0xFFFD
  if 0xD800 ≤ n ∧ n < 0xDC00 then
    match lowSurrogate? rest with
    | some (low, rest) => (Char.ofNat (0x10000 + (n - 0xD800) * 0x400 + (low - 0xDC00)), rest)
    | none => (replacement, rest)
  else if 0xDC00 ≤ n ∧ n < 0xE000 then (replacement, rest)
  else (Char.ofNat n, rest)

/-- The character that a letter behind a backslash stands for. -/
def escaped? (c : Char) : Option Char :=
  if c.toNat = 34 ∨ c = '\\' ∨ c = '/' then some c
  else if c = 'b' then some (Char.ofNat 8)
  else if c = 'f' then some (Char.ofNat 12)
  else if c = 'n' then some '\n'
  else if c = 'r' then some '\r'
  else if c = 't' then some '\t'
  else none

/-- Reads a string up to its closing quote, behind the characters read before (last first). -/
def stringBody : (fuel : Nat) → (before : List Char) → List Char → Read String
  | 0, _, _ => .error .badValue
  | _ + 1, _, [] => .error .badValue
  | fuel + 1, before, c :: cs =>
    if c.toNat = 34 then .ok (String.ofList before.reverse, cs)
    else if c = '\\' then
      match cs with
      | [] => .error .badValue
      | e :: es =>
        if e = 'u' then
          match hexWord? es with
          | none => .error .badValue
          | some (n, rest) =>
            let (x, rest) := numbered n rest
            stringBody fuel (x :: before) rest
        else
          match escaped? e with
          | none => .error .badValue
          | some x => stringBody fuel (x :: before) es
    else if c.toNat < 32 then .error .badValue
    else stringBody fuel (c :: before) cs

/-! ## Numbers -/

/-- The digits at the front, as a number and a count. -/
def digits (cs : List Char) : Nat × Nat × List Char :=
  let (ds, rest) := cs.span Char.isDigit
  (Number.ofManyDigits (ds.map fun d => d.toNat - 48), ds.length, rest)

/-- The fraction behind a point, if a digit follows it: the digits, their count, the rest. -/
def fraction? : List Char → Option (List Char × List Char)
  | [] => none
  | c :: cs =>
    if c = '.' then
      let (ds, rest) := cs.span Char.isDigit
      if ds.isEmpty then none else some (ds, rest)
    else none

/-- The exponent, if a digit belongs to it. -/
def exponent? : List Char → Option (Int × List Char)
  | [] => none
  | c :: cs =>
    if c = 'e' || c = 'E' then
      let (negative, cs) := Number.takeSign cs
      let (n, count, rest) := digits cs
      if count = 0 then none else some (if negative then -(n : Int) else n, rest)
    else none

/-- The digits before a point or an exponent: a zero alone, or digits that begin with another
one. -/
def wholePart? (cs : List Char) : Option (List Char × List Char) :=
  match cs with
  | [] => none
  | c :: rest =>
    if c = '0' then some ([c], rest)
    else if c.isDigit then some (cs.span Char.isDigit)
    else none

/-- Reads a number.  Without point and exponent it is a whole number, which may not have too
many digits. -/
def number (cs : List Char) : Read Value :=
  let (negative, body) := match cs with
    | '-' :: body => (true, body)
    | body => (false, body)
  match wholePart? body with
  | none => .error .badValue
  | some (whole, rest) =>
    let fraction := fraction? rest
    let behind := (fraction.map (·.2)).getD rest
    let exponent := exponent? behind
    match fraction, exponent with
    | none, none =>
      if Number.maxDigits < whole.length then .error .badValue
      else
        let (n, _, _) := digits whole
        .ok (.int (if negative then -(n : Int) else n), rest)
    | _, _ =>
      let places := (fraction.map (·.1)).getD []
      let (n, _, _) := digits (whole ++ places)
      let (e, behind) := exponent.getD (0, behind)
      .ok (.double (Double.ofDecimal negative n (e - places.length)), behind)

/-! ## Values -/

/-- The values that go by a name. -/
def named : List (String × Value) := [
  ("null", .null), ("true", .bool true), ("false", .bool false), ("NaN", .double .nan),
  ("Infinity", .double (.infinite false)), ("-Infinity", .double (.infinite true))]

/-- The characters behind a word, if they begin with it. -/
def behindWord? : (word : List Char) → List Char → Option (List Char)
  | [], cs => some cs
  | _ :: _, [] => none
  | w :: ws, c :: cs => if w = c then behindWord? ws cs else none

/-- The value whose name stands in front. -/
def namedValue? (cs : List Char) : Option (Value × List Char) :=
  named.findSome? fun (word, v) => (behindWord? word.toList cs).map (v, ·)

/-- Reads a string, a number or a name. -/
def scalar (size : Nat) (cs : List Char) : Read Value :=
  match cs with
  | [] => .error .badValue
  | c :: rest =>
    if c.toNat = 34 then (stringBody size [] rest).map fun (s, rest) => (.str s, rest)
    else
      match namedValue? cs with
      | some r => .ok r
      | none => number cs

/-- Reads the items of an array, behind those read before (last first). -/
def items (value : List Char → Read Value) :
    (fuel : Nat) → (before : List Value) → List Char → Read Value
  | 0, _, _ => .error .badValue
  | fuel + 1, before, cs =>
    match value cs with
    | .error e => .error e
    | .ok (v, rest) =>
      match skipSpace rest with
      | ']' :: rest => .ok (.list (v :: before).reverse, rest)
      | ',' :: rest => items value fuel (v :: before) (skipSpace rest)
      | _ => .error .badValue

/-- Reads a field: its name, a colon and its value. -/
def field (size : Nat) (value : List Char → Read Value) (cs : List Char) :
    Read (String × Value) :=
  match cs with
  | [] => .error .badValue
  | c :: rest =>
    if c.toNat = 34 then
      match stringBody size [] rest with
      | .error e => .error e
      | .ok (name, rest) =>
        match skipSpace rest with
        | ':' :: rest => (value (skipSpace rest)).map fun (v, rest) => ((name, v), rest)
        | _ => .error .badValue
    else .error .badValue

/-- Reads the fields of an object, behind those read before. -/
def fields (size : Nat) (value : List Char → Read Value) :
    (fuel : Nat) → (before : Fields) → List Char → Read Value
  | 0, _, _ => .error .badValue
  | fuel + 1, before, cs =>
    match field size value cs with
    | .error e => .error e
    | .ok ((name, v), rest) =>
      match skipSpace rest with
      | '}' :: rest => .ok (.record (before.put name v), rest)
      | ',' :: rest => fields size value fuel (before.put name v) (skipSpace rest)
      | _ => .error .badValue

/-- Reads a value; `size` bounds the characters there are to read. -/
def value (size : Nat) : (depth : Nat) → List Char → Read Value
  | 0, cs =>
    match cs with
    | '[' :: _ | '{' :: _ => .error .tooDeep
    | cs => scalar size cs
  | depth + 1, cs =>
    match cs with
    | '[' :: rest =>
      match skipSpace rest with
      | ']' :: rest => .ok (.list [], rest)
      | rest => items (value size depth) (size + 1) [] rest
    | '{' :: rest =>
      match skipSpace rest with
      | '}' :: rest => .ok (.record [], rest)
      | rest => fields size (value size depth) (size + 1) [] rest
    | cs => scalar size cs

/-- Reads the characters of one JSON text, white space around it allowed. -/
def readChars (cs : List Char) : Except Fault Value :=
  match value cs.length maxDepth (skipSpace cs) with
  | .error e => .error e
  | .ok (v, rest) => if (skipSpace rest).isEmpty then .ok v else .error .badValue

/-- Reads a JSON text. -/
def read (s : String) : Except Fault Value := readChars s.toList

end BackupSteward.Json
