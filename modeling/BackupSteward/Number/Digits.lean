/-!
# Numbers from digits

The number that decimal digits write, the highest digit first.  Decimals may have any count of
digits; for these the digits are joined in pairs to digits of a larger base, again and again,
so that few of the products have long factors.  Both ways give the same number.
-/

namespace BackupSteward.Number

/-- The number that digits write. -/
def ofDigits (digits : List Nat) : Nat := digits.foldl (fun n d => n * 10 + d) 0

/-- The number that digits of a base write, the lowest digit first. -/
def ofLowDigits (base : Nat) (digits : List Nat) : Nat := digits.foldr (fun d n => d + base * n) 0

/-- Joins digits in pairs, the lowest first.  What comes out are digits of the squared base. -/
def joinPairs (base : Nat) : List Nat → List Nat
  | low :: high :: rest => (low + base * high) :: joinPairs base rest
  | digits => digits

/-- Joining digits in pairs does not change the number. -/
theorem ofLowDigits_joinPairs (base : Nat) : (digits : List Nat) →
    ofLowDigits (base * base) (joinPairs base digits) = ofLowDigits base digits
  | [] => rfl
  | [d] => by simp [joinPairs, ofLowDigits]
  | low :: high :: rest => by
    have ih := ofLowDigits_joinPairs base rest
    simp only [ofLowDigits] at ih
    simp only [joinPairs, ofLowDigits, List.foldr_cons, ih]
    simp only [Nat.mul_add, Nat.mul_assoc, Nat.add_assoc]

/-- The number that digits of a base write, the lowest first.  They are joined in pairs as often
as `rounds` allows, and what is left is taken digit by digit. -/
def joined : (rounds : Nat) → (base : Nat) → List Nat → Nat
  | 0, base, digits => ofLowDigits base digits
  | rounds + 1, base, digits =>
    match digits with
    | [] => 0
    | [d] => d
    | digits => joined rounds (base * base) (joinPairs base digits)

theorem joined_eq (rounds base : Nat) (digits : List Nat) :
    joined rounds base digits = ofLowDigits base digits := by
  induction rounds generalizing base digits with
  | zero => rfl
  | succ rounds ih =>
    unfold joined
    split
    · rfl
    · simp [ofLowDigits]
    · rw [ih, ofLowDigits_joinPairs]

/-- The number that any count of digits writes. -/
def ofManyDigits (digits : List Nat) : Nat := joined digits.length 10 digits.reverse

/-- It is the number that they write one by one. -/
theorem ofManyDigits_eq (digits : List Nat) : ofManyDigits digits = ofDigits digits := by
  simp [ofManyDigits, joined_eq, ofLowDigits, ofDigits, Nat.add_comm, Nat.mul_comm]

end BackupSteward.Number
