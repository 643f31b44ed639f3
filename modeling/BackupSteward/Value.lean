import BackupSteward.Fault
import BackupSteward.Path
import BackupSteward.Number.Decimal
import BackupSteward.Number.Reader
import BackupSteward.Text.Quoted
import BackupSteward.Time.Duration

/-!
# Values

Loosely typed data: what the engine prints as JSON, and what callers may put into options and
descriptions before these are checked.  The fields of a record keep their order, because
messages show it.
-/

namespace BackupSteward

/-- A loosely typed value. -/
inductive Value where
  | null
  | bool (b : Bool)
  | int (i : Int)
  | double (x : Double)
  | str (s : String)
  | list (xs : List Value)
  /-- A sequence that cannot be changed; it differs from a list in how it is written. -/
  | tuple (xs : List Value)
  | record (fields : List (String × Value))
  | path (p : Path)
  | span (d : Duration)
  deriving Repr, Inhabited

/-- Named values in order, each name once. -/
abbrev Fields := List (String × Value)

namespace Fields

/-- The value of a field. -/
def get? : Fields → (name : String) → Option Value
  | [], _ => none
  | (n, v) :: rest, name => if n = name then some v else get? rest name

/-- Sets a field: in its place if there is one of this name, else behind the others. -/
def put (fields : Fields) (name : String) (v : Value) : Fields :=
  match fields with
  | [] => [(name, v)]
  | (n, w) :: rest => if n = name then (n, v) :: rest else (n, w) :: put rest name v

/-- Sets several fields one after the other. -/
def putAll (fields more : Fields) : Fields := more.foldl (fun fs f => fs.put f.1 f.2) fields

/-- The names of the fields. -/
def names (fields : Fields) : List String := fields.map (·.1)

@[simp]
theorem get?_put (fields : Fields) (n m : String) (v : Value) :
    (put fields n v).get? m = if n = m then some v else fields.get? m := by
  induction fields with
  | nil => simp [put, get?]
  | cons f fs ih =>
    obtain ⟨k, w⟩ := f
    by_cases hk : k = n
    · subst hk
      by_cases h : k = m <;> simp [put, get?, h]
    · by_cases h : k = m
      · subst h
        have hn : ¬n = k := fun e => hk e.symm
        simp [put, get?, hk, hn]
      · simp [put, get?, hk, h, ih]

/-- Setting a field adds its name at the end, unless it is there. -/
theorem names_put (fields : Fields) (n : String) (v : Value) :
    (put fields n v).names = if n ∈ fields.names then fields.names else fields.names ++ [n] := by
  induction fields with
  | nil => simp [put, names]
  | cons f fs ih =>
    obtain ⟨k, w⟩ := f
    by_cases hk : k = n
    · simp [put, names, hk]
    · have hk' : n ≠ k := fun h => hk h.symm
      simp only [put, hk, if_false, names, List.map_cons, List.mem_cons, hk', false_or] at ih ⊢
      rw [ih]
      by_cases hm : n ∈ List.map (·.1) fs <;> simp [hm]

end Fields

namespace Value

/-! ## Truth -/

/-- Whether a value counts as given: null, false, zero and everything empty do not. -/
def truthy : Value → Bool
  | null => false
  | bool b => b
  | int i => i != 0
  | double x => !x.isZero
  | str s => s != ""
  | list xs | tuple xs => !xs.isEmpty
  | record fields => !fields.isEmpty
  | path _ => true
  | span d => d.micros != 0

/-- Whether a value is the number zero; the truth value false counts as such. -/
def isZero : Value → Bool
  | bool b => !b
  | int i => i == 0
  | double x => x.isZero
  | _ => false

/-- A field that is absent counts as not given. -/
def given : Option Value → Bool
  | none => false
  | some v => v.truthy

/-! ## Text -/

/-- A list of texts, separated by commas. -/
def commaSeparated (texts : List String) : String := String.intercalate ", " texts

/-- The parts of a duration that are not zero, each by its name. -/
def spanParts (d : Duration) : List String :=
  let days := Int.fdiv d.micros Duration.microsPerDay
  let rest := d.micros - days * Duration.microsPerDay
  let seconds := rest / 1000000
  let micros := rest % 1000000
  (if days = 0 then [] else ["days=" ++ toString days]) ++
    (if seconds = 0 then [] else ["seconds=" ++ toString seconds]) ++
    (if micros = 0 then [] else ["microseconds=" ++ toString micros])

mutual

/-- A value as it is written inside a message or another value. -/
def repr : Value → String
  | null => "None"
  | bool b => if b then "True" else "False"
  | int i => toString i
  | double x => x.text
  | str s => Text.quoted s
  | list xs => "[" ++ commaSeparated (reprs xs) ++ "]"
  | tuple xs =>
    match reprs xs with
    | [one] => "(" ++ one ++ ",)"
    | many => "(" ++ commaSeparated many ++ ")"
  | record fields => "\x7b" ++ commaSeparated (fieldReprs fields) ++ "\x7d"
  | path p => "PosixPath(" ++ Text.quoted p.toString ++ ")"
  | span d =>
    let parts := spanParts d
    "datetime.timedelta(" ++ (if parts.isEmpty then "0" else commaSeparated parts) ++ ")"

/-- The written forms of several values. -/
def reprs : List Value → List String
  | [] => []
  | v :: vs => v.repr :: reprs vs

/-- The written forms of the fields of a record. -/
def fieldReprs : List (String × Value) → List String
  | [] => []
  | (name, v) :: rest => (Text.quoted name ++ ": " ++ v.repr) :: fieldReprs rest

end

/-- The text a value stands for: a text itself, a path and a duration in their usual form, and
otherwise what is written inside a message. -/
def text : Value → String
  | str s => s
  | path p => p.toString
  | span d => d.text
  | v => v.repr

/-- The text of a value, or nothing when it is not given. -/
def textIfGiven : Option Value → String
  | some v => if v.truthy then v.text else ""
  | none => ""

/-- A list of texts as a value. -/
def texts (xs : List String) : Value := .list (xs.map .str)

/-! ## Parts -/

/-- The values one meets when going through a value: the items of a sequence, the characters
of a text, the names of a record.  Nothing else can be gone through. -/
def items : Value → Except Fault (List Value)
  | list xs | tuple xs => .ok xs
  | str s => .ok (s.toList.map fun c => .str (String.singleton c))
  | record fields => .ok (fields.map fun f => .str f.1)
  | _ => .error .badType

/-- The texts that some values are, if all are texts. -/
def allTexts : List Value → Except Fault (List String)
  | [] => .ok []
  | str s :: vs => (allTexts vs).map (s :: ·)
  | _ :: _ => .error .badType

@[simp]
theorem allTexts_map_str (xs : List String) : allTexts (xs.map .str) = .ok xs := by
  induction xs with
  | nil => rfl
  | cons x xs ih => simp [allTexts, ih, Except.map]

/-- The values that stand at the places of a value: the items of a sequence, the characters of a
text.  The values of a record stand at names. -/
def elements : Value → Except Fault (List Value)
  | record _ => .error .badKey
  | v => v.items

@[simp]
theorem elements_texts (xs : List String) : (texts xs).elements = .ok (xs.map .str) := rfl

/-- The path that a value names. -/
def toPath : Value → Except Fault Path
  | path p => .ok p
  | str s => .ok (.ofString s)
  | _ => .error .badType

mutual

/-- Whether a value can be looked up in a set: lists and records, which may change, cannot. -/
def comparable : Value → Bool
  | list _ | record _ => false
  | tuple xs => allComparable xs
  | _ => true

/-- Whether all of some values can be looked up in a set. -/
def allComparable : List Value → Bool
  | [] => true
  | v :: vs => v.comparable && allComparable vs

end

/-! ## Numbers -/

/-- The whole number that a value stands for.  Fractions are cut off; text is read. -/
def toInt : Value → Except Fault Int
  | bool b => .ok (if b then 1 else 0)
  | int i => .ok i
  | double (.finite neg m e) => .ok (Double.truncate neg m e)
  | double (.infinite _) => .error .overflow
  | double .nan => .error .badValue
  | str s => (Number.wholeNumber? s).elim (.error .badValue) .ok
  | _ => .error .badType

/-- The double that a value stands for. -/
def toDouble : Value → Except Fault Double
  | bool b => .ok ((Double.ofInt? (if b then 1 else 0)).getD .zero)
  | int i => (Double.ofInt? i).elim (.error .overflow) .ok
  | double x => .ok x
  | str s => (Number.double? s).elim (.error .badValue) .ok
  | _ => .error .badType

end Value

end BackupSteward
