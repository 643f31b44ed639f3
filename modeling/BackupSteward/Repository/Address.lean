import BackupSteward.Text.Digit
import BackupSteward.Text.Pieces

/-!
# Bracketed host addresses

What may stand between brackets in the address of a backend: an IPv6 address, or an address
that begins with its version.
-/

namespace BackupSteward.Address

/-- The characters in front of the first `::` and those behind it. -/
def splitGap? : List Char → Option (List Char × List Char)
  | ':' :: ':' :: rest => some ([], rest)
  | [] => none
  | c :: cs => (splitGap? cs).map fun p => (c :: p.1, p.2)

/-- The ASCII hexadecimal digits. -/
def isHexDigit (c : Char) : Bool :=
  ('0' ≤ c && c ≤ '9') || ('a' ≤ c && c ≤ 'f') || ('A' ≤ c && c ≤ 'F')

/-- A group of an IPv6 address: one to four hexadecimal digits. -/
def isGroup (cs : List Char) : Bool := !cs.isEmpty && cs.length ≤ 4 && cs.all isHexDigit

/-- A part of a dotted address: a number up to 255 without leading zeros. -/
def isOctet (cs : List Char) : Bool :=
  match cs.mapM Text.asciiDigit? with
  | none => false
  | some ds =>
    !ds.isEmpty && ds.length ≤ 3 && (ds = [0] || ds.head? ≠ some 0) &&
      ds.foldl (fun n d => 10 * n + d) 0 ≤ 255

/-- An address of four parts with dots between them. -/
def isDotted (cs : List Char) : Bool :=
  let parts := Text.pieces '.' cs
  parts.length = 4 && parts.all isOctet

/-- How many groups some groups count for, if they are well formed; at the end of an address a
dotted address may stand for two groups. -/
def countGroups? (atEnd : Bool) : List (List Char) → Option Nat
  | [] => some 0
  | [g] => if isGroup g then some 1 else if atEnd && isDotted g then some 2 else none
  | g :: gs => if isGroup g then (countGroups? atEnd gs).map (· + 1) else none

/-- The groups in some characters; there are none in nothing. -/
def groups (cs : List Char) : List (List Char) := if cs.isEmpty then [] else Text.pieces ':' cs

/-- An IPv6 address without a scope: eight groups, or up to seven with one gap. -/
def isUnscoped (cs : List Char) : Bool :=
  match splitGap? cs with
  | none => countGroups? true (groups cs) = some 8
  | some (front, back) =>
    match countGroups? false (groups front), countGroups? true (groups back) with
    | some m, some n => m + n ≤ 7
    | _, _ => false

/-- An IPv6 address; a scope may follow behind a percent sign. -/
def isIPv6 (cs : List Char) : Bool :=
  match Text.pieces '%' cs with
  | [address] => isUnscoped address
  | [address, scope] => isUnscoped address && !scope.isEmpty
  | _ => false

/-- Behind the letter v: a version in hexadecimal digits, a dot, and some text. -/
def isVersioned (cs : List Char) : Bool :=
  match cs.dropWhile isHexDigit with
  | '.' :: rest => (cs.head?.map isHexDigit).getD false && !rest.isEmpty
  | _ => false

/-- Whether some characters may stand between brackets. -/
def isBracketed : List Char → Bool
  | 'v' :: rest => isVersioned rest
  | cs => isIPv6 cs

end BackupSteward.Address
