import BackupSteward.Text.Blank
import BackupSteward.Text.Digit
import BackupSteward.Time.Moment

/-!
# Reading moments

The engine prints moments as a date, a separator, a time with a fraction of any length, and an
offset.  Dates and times may be written with or without their own separators, and a date also
by its ISO week; the separator between date and time may be any character.  The fraction is cut
to microseconds.  A moment without offset is in universal time.
-/

namespace BackupSteward.Moment

/-- A number of exactly `count` ASCII digits, and the characters behind it. -/
def digits? : (count : Nat) → (before : Nat) → List Char → Option (Nat × List Char)
  | 0, n, cs => some (n, cs)
  | _ + 1, _, [] => none
  | count + 1, n, c :: cs =>
    match Text.asciiDigit? c with
    | some d => digits? count (n * 10 + d) cs
    | none => none

/-- The character at a place, or the null character behind the end. -/
def charAt (cs : List Char) (i : Nat) : Char := (cs[i]?).getD (Char.ofNat 0)

/-! ## Dates -/

/-- Where the date ends.  Dates of weeks are ambiguous: behind `YYYY-Www-` two digits are
taken as an hour, and behind `YYYYWww` the parity of the run of digits tells whether the first
is a day. -/
def dateLength? (cs : List Char) : Option Nat :=
  let length := cs.length
  if length < 7 then none
  else if length = 7 then some 7
  else if charAt cs 4 = '-' then
    if charAt cs 5 = 'W' then
      if charAt cs 8 = '-' then
        if length = 9 then none
        else if (charAt cs 10).isDigit then some 8 else some 10
      else some 8
    else some 10
  else if charAt cs 4 = 'W' then
    let stop := 7 + ((cs.drop 7).takeWhile Char.isDigit).length
    if stop < 9 then some stop else if stop % 2 = 0 then some 7 else some 8
  else some 8

/-- Skips a hyphen, if the date is written with hyphens. -/
def hyphen? (used : Bool) : List Char → Option (List Char)
  | cs =>
    if used then
      match cs with
      | '-' :: cs => some cs
      | _ => none
    else some cs

/-- Reads a date that ends at a known place: its year, month and day. -/
def date? (length : Nat) (cs : List Char) : Option (Nat × Nat × Nat) := do
  let (year, rest) ← digits? 4 0 cs
  let used := rest.head? = some '-'
  let rest ← hyphen? used rest
  match rest with
  | 'W' :: rest =>
    let (week, rest) ← digits? 2 0 rest
    if cs.length - rest.length < length then
      let rest ← hyphen? used rest
      let (day, _) ← digits? 1 0 rest
      Calendar.ofIsoWeek? year week day
    else Calendar.ofIsoWeek? year week 1
  | rest =>
    let (month, rest) ← digits? 2 0 rest
    let rest ← hyphen? used rest
    let (day, rest) ← digits? 2 0 rest
    if cs.length - rest.length = length then some (year, month, day) else none

/-! ## Times -/

/-- What reading a clock gives: hour, minute, second and microsecond, and whether something is
left behind them. -/
structure ClockReading where
  hour : Nat
  minute : Nat
  second : Nat
  micro : Nat
  leftover : Bool
  deriving DecidableEq, Repr

/-- Whether something is left; a null character ends the text. -/
def isLeft : List Char → Bool
  | [] => false
  | c :: _ => c.toNat ≠ 0

/-- Reads a fraction of a second: six digits count, fewer stand for their leading ones, further
ones are skipped. -/
def fraction? (cs : List Char) : Option (Nat × List Char) :=
  let count := min cs.length 6
  (digits? count 0 cs).map fun (n, rest) =>
    (n * Nat.pow 10 (6 - count), rest.dropWhile Char.isDigit)

/-- What may follow a two-digit field of a clock. -/
inductive AfterField where
  /-- Nothing more; something may be left over. -/
  | done (leftover : Bool)
  /-- Another field. -/
  | field (rest : List Char)
  /-- A fraction. -/
  | fraction (rest : List Char)
  /-- Something that does not belong there. -/
  | wrong

/-- Looks behind a field.  A single ASCII character at the very end is left over, whatever it
is. -/
def afterField (colons : Bool) : List Char → AfterField
  | [] => .done false
  | c :: rest =>
    if rest.isEmpty && c.toNat < 128 then .done (isLeft [c])
    else if colons && c = ':' then .field rest
    else if c = '.' || c = ',' then .fraction rest
    else if colons then .wrong
    else .field (c :: rest)

/-- Reads a clock: two digits for the hour, then minute and second, either with or without
colons, then a fraction. -/
def clock? (cs : List Char) : Option ClockReading := do
  let (hour, rest) ← digits? 2 0 cs
  let colons := rest.head? = some ':'
  match afterField colons rest with
  | .wrong => none
  | .done left => some ⟨hour, 0, 0, 0, left⟩
  | .fraction rest =>
    let (micro, rest) ← fraction? rest
    some ⟨hour, 0, 0, micro, isLeft rest⟩
  | .field rest =>
    let (minute, rest) ← digits? 2 0 rest
    match afterField colons rest with
    | .wrong => none
    | .done left => some ⟨hour, minute, 0, 0, left⟩
    | .fraction rest =>
      let (micro, rest) ← fraction? rest
      some ⟨hour, minute, 0, micro, isLeft rest⟩
    | .field rest =>
      let (second, rest) ← digits? 2 0 rest
      match afterField colons rest with
      | .wrong => none
      | .done left => some ⟨hour, minute, second, 0, left⟩
      | .fraction rest | .field rest =>
        let (micro, rest) ← fraction? rest
        some ⟨hour, minute, second, micro, isLeft rest⟩

/-- Whether an offset begins here. -/
def beginsOffset (c : Char) : Bool := c = '+' || c = '-' || c = 'Z'

/-- The microseconds of a day. -/
def dayMicros : Int := 86400000000

/-- Reads an offset with its sign: it has to be less than a day, and one of no whole second is
none at all. -/
def offset? (sign : Char) (cs : List Char) : Option Int :=
  if sign = 'Z' then if isLeft cs then none else some 0
  else
    match clock? cs with
    | none => none
    | some r =>
      let seconds : Int := ((r.hour * 60 + r.minute) * 60 + r.second : Nat)
      let micros := seconds * 1000000 + r.micro
      if r.leftover then none
      else if seconds = 0 then some 0
      else if micros < dayMicros then some (if sign = '-' then -micros else micros)
      else none

/-- Reads a time and its offset, if there is one.  What stands between the time and an offset
does not matter. -/
def time? (cs : List Char) : Option (ClockReading × Int) :=
  let (before, behind) := cs.span fun c => !beginsOffset c
  match clock? before with
  | none => none
  | some r =>
    match behind with
    | [] => if r.leftover then none else some (r, 0)
    | sign :: rest => (offset? sign rest).map fun o => (r, o)

/-- Reads a moment in which the fraction has been cut already.  Behind the date stands nothing,
or any character and a time. -/
def readChars? (cs : List Char) : Option Moment := do
  let length ← dateLength? cs
  let (year, month, day) ← date? length cs
  let (clock, offset) ← match cs.drop length with
    | [] => some (⟨0, 0, 0, 0, false⟩, 0)
    | _ :: rest => time? rest
  let m : Moment := ⟨year, month, day, clock.hour, clock.minute, clock.second, clock.micro, offset⟩
  if m.valid then some m else none

/-! ## Engine times -/

/-- Cuts the first fraction to six digits, filling it up with zeros. -/
def cutFraction : List Char → List Char
  | [] => []
  | c :: cs =>
    if c = '.' then
      let (ds, rest) := cs.span Text.isDigit
      if ds.isEmpty then c :: cutFraction cs
      else
        let kept := ds.take 6
        c :: (kept ++ List.replicate (6 - kept.length) '0' ++ rest)
    else c :: cutFraction cs

/-- Spells a final `Z` out as an offset. -/
def spellZulu (cs : List Char) : List Char :=
  match cs.reverse with
  | c :: before => if c = 'Z' || c = 'z' then before.reverse ++ "+00:00".toList else cs
  | [] => cs

/-- Reads a moment as the engine prints it. -/
def ofText? (s : String) : Option Moment :=
  readChars? (cutFraction (spellZulu (Text.trim s.toList)))

end BackupSteward.Moment
