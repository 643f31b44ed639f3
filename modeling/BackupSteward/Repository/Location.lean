import BackupSteward.Fault
import BackupSteward.Repository.Address

/-!
# Locations in messages

The address of a backend may hold a password.  Wherever a location is shown, the password is
replaced by three asterisks.  An address with a malformed host is refused.
-/

namespace BackupSteward.Location

/-- The characters in front of the first `://` and those behind it. -/
def splitScheme? : List Char → Option (List Char × List Char)
  | ':' :: '/' :: '/' :: rest => some ([], rest)
  | [] => none
  | c :: cs => (splitScheme? cs).map fun p => (c :: p.1, p.2)

/-- The address in a location, without the names of backends in front of it. -/
def address? (cs : List Char) : Option (List Char) :=
  (splitScheme? cs).map fun (front, back) =>
    (front.reverse.takeWhile (· ≠ ':')).reverse ++ ':' :: '/' :: '/' :: back

/-- An address without the control characters and spaces in front of it, and without
tabulators and line ends inside. -/
def cleaned (cs : List Char) : List Char :=
  (cs.dropWhile fun c => c.toNat ≤ 32).filter fun c => c ≠ '\t' && c ≠ '\r' && c ≠ '\n'

/-- The ASCII letters. -/
def isLetter (c : Char) : Bool := ('a' ≤ c && c ≤ 'z') || ('A' ≤ c && c ≤ 'Z')

/-- The characters of the name of a scheme. -/
def isSchemeChar (c : Char) : Bool :=
  isLetter c || ('0' ≤ c && c ≤ '9') || c = '+' || c = '-' || c = '.'

/-- Whether some characters name a scheme. -/
def isScheme (cs : List Char) : Bool := (cs.head?.map isLetter).getD false && cs.all isSchemeChar

/-- What follows the scheme of an address; all of it when there is no scheme. -/
def afterScheme (cs : List Char) : List Char :=
  match cs.dropWhile (· ≠ ':') with
  | ':' :: rest => if isScheme (cs.takeWhile (· ≠ ':')) then rest else cs
  | _ => cs

/-- The authority of an address, that is its user and host. -/
def authority (cs : List Char) : List Char :=
  match afterScheme (cleaned cs) with
  | '/' :: '/' :: rest => rest.takeWhile fun c => c ≠ '/' && c ≠ '?' && c ≠ '#'
  | _ => []

/-- Characters that stand for one of `/`, `?`, `#`, `@`, `:`, or for several characters with
one of these among them. -/
def looksLikeDelimiter (c : Char) : Bool :=
  [0x2047, 0x2048, 0x2049, 0x2100, 0x2101, 0x2105, 0x2106, 0x2A74, 0xFE13, 0xFE16, 0xFE55, 0xFE56,
    0xFE5F, 0xFE6B, 0xFF03, 0xFF0F, 0xFF1A, 0xFF1F, 0xFF20].contains c.toNat

/-- The host and port in an authority: all behind its last at sign. -/
def hostPort (cs : List Char) : List Char := (cs.reverse.takeWhile (· ≠ '@')).reverse

/-- The host in an authority with brackets.  When it stands in brackets, nothing may be in front
of these and only a port behind them; otherwise it ends at the first colon. -/
def literalHost? (hostPort : List Char) : Option (List Char) :=
  match hostPort with
  | '[' :: rest =>
    match rest.dropWhile (· ≠ ']') with
    | _ :: c :: _ => if c = ':' then some (rest.takeWhile (· ≠ ']')) else none
    | _ => some (rest.takeWhile (· ≠ ']'))
  | cs => if cs.contains '[' then none else some (cs.takeWhile (· ≠ ':'))

/-- Whether an authority is well formed: with brackets anywhere in it both kinds occur and its
host is an address, and no character can be taken for a delimiter. -/
def wellFormed (cs : List Char) : Bool :=
  (match cs.contains '[', cs.contains ']' with
  | true, true => (literalHost? (hostPort cs)).any Address.isBracketed
  | false, false => true
  | _, _ => false) && !cs.any looksLikeDelimiter

/-- The user and password in an authority: all in front of its last at sign. -/
def userInfo? (cs : List Char) : Option (List Char) :=
  match cs.reverse.dropWhile (· ≠ '@') with
  | _ :: before => some before.reverse
  | [] => none

/-- The password in an authority, which stands behind the first colon of the user and
password; an empty one is none. -/
def password? (cs : List Char) : Option (List Char) :=
  match userInfo? cs with
  | none => none
  | some info =>
    match info.dropWhile (· ≠ ':') with
    | _ :: c :: rest => some (c :: rest)
    | _ => none

/-- Replaces every occurrence of a text, from left to right and without overlaps; `skip` more
characters belong to the occurrence found last. -/
def replaceFrom (old new : List Char) : (skip : Nat) → List Char → List Char
  | _, [] => []
  | skip + 1, _ :: cs => replaceFrom old new skip cs
  | 0, c :: cs =>
    if old.isPrefixOf (c :: cs) then new ++ replaceFrom old new (old.length - 1) cs
    else c :: replaceFrom old new 0 cs

/-- A location as it may be shown. -/
def masked (location : String) : Except Fault String :=
  match address? location.toList with
  | none => .ok location
  | some address =>
    let authority := authority address
    if wellFormed authority then
      match password? authority with
      | none => .ok location
      | some password =>
        .ok (String.ofList
          (replaceFrom (':' :: password ++ ['@']) [':', '*', '*', '*', '@'] 0 location.toList))
    else .error .badValue

end BackupSteward.Location
