import BackupSteward.Number.Double
import Mathlib.Tactic.Ring
import Mathlib.Tactic.Lemma

/-!
# Whole numbers beyond the doubles

A whole number is rounded to 53 bits.  The largest finite double has 53 ones and 971 zeros; half a
unit above it begins what is rounded to an infinity.
-/

namespace BackupSteward.Double

/-- The least whole number that is too large for a finite double: 54 ones and 970 zeros. -/
def beyond : Nat := (2 ^ 54 - 1) * 2 ^ 970

/-- A number below some even multiple is rounded up to it from half a unit below on. -/
lemma roundedQuotient_eq_top {n half top : Nat} (heven : top % 2 = 0) (htop : 0 < top)
    (hlt : n < top * (2 * half)) :
    roundedQuotient n (2 * half) = top ↔ (2 * top - 1) * half ≤ n := by
  obtain ⟨t, rfl⟩ : ∃ t, top = t + 1 := ⟨top - 1, by omega⟩
  have hhalf : 0 < 2 * half := Nat.pos_of_ne_zero fun h => by simp [h] at hlt
  have hmod := Nat.mod_lt n hhalf
  have hdiv := Nat.div_add_mod n (2 * half)
  have hq : n / (2 * half) < t + 1 := Nat.div_lt_of_lt_mul (by rwa [Nat.mul_comm])
  have hbound : (2 * (t + 1) - 1) * half = 2 * half * t + half := by
    rw [show 2 * (t + 1) - 1 = 2 * t + 1 by omega]
    ring
  rw [hbound]
  unfold roundedQuotient
  generalize n / (2 * half) = q at *
  generalize n % (2 * half) = r at *
  dsimp only
  rcases Nat.lt_or_ge q t with hqt | hqt
  -- below the last unit the number is too small for either side
  · have hless : 2 * half * (q + 1) ≤ 2 * half * t := Nat.mul_le_mul_left _ hqt
    rw [Nat.mul_add] at hless
    constructor
    · split
      · omega
      · split
        · omega
        · split <;> omega
    · omega
  -- in the last unit it is rounded up from the half on, since the multiple above is even
  · obtain rfl : q = t := by omega
    constructor
    · split
      · omega
      · omega
    · intro hle
      rw [if_neg (by omega)]
      split
      · rfl
      · rw [if_neg (by omega)]

/-- A whole number is rounded in units that leave 53 bits of it. -/
lemma exponentFor_whole {n : Nat} (hn : n ≠ 0) : exponentFor n 1 = (n.log2 : Int) - 52 := by
  have hlow := Nat.log2_self_le hn
  have hfirst : max minExponent ((n.log2 : Int) - Nat.log2 1 - 53) = (n.log2 : Int) - 53 := by
    have : Nat.log2 1 = 0 := by decide
    rw [this, minExponent]
    omega
  -- the first guess leaves 54 bits, one too many, so the exponent is the one above it
  have hbits : ¬ (inMultiples 2 n 1 ((n.log2 : Int) - 53)).1 /
      (inMultiples 2 n 1 ((n.log2 : Int) - 53)).2 < 2 * leadingBit := by
    rw [Nat.not_lt, show 2 * leadingBit = 2 ^ 53 from rfl]
    unfold inMultiples
    split
    · have hexp : ((n.log2 : Int) - 53).toNat + 53 = n.log2 := by omega
      change 2 ^ 53 ≤ n / (1 * 2 ^ ((n.log2 : Int) - 53).toNat)
      rw [Nat.one_mul, Nat.le_div_iff_mul_le (Nat.two_pow_pos _), Nat.mul_comm, ← Nat.pow_add, hexp]
      exact hlow
    · have hexp : n.log2 + (-((n.log2 : Int) - 53)).toNat = 53 := by omega
      change 2 ^ 53 ≤ n * 2 ^ (-((n.log2 : Int) - 53)).toNat / 1
      rw [Nat.div_one, ← hexp, Nat.pow_add]
      exact Nat.mul_le_mul_right _ hlow
  unfold exponentFor
  rw [hfirst]
  dsimp only
  rw [if_neg hbits]
  omega

/-- The significand of a whole number, in units that leave 53 bits. -/
def significandOf (n : Nat) : Nat :=
  roundedQuotient (inMultiples 2 n 1 ((n.log2 : Int) - 52)).1
    (inMultiples 2 n 1 ((n.log2 : Int) - 52)).2

lemma ofRatio_whole {n : Nat} (hn : n ≠ 0) (negative : Bool) :
    ofRatio negative n 1 =
      if significandOf n = 2 * leadingBit then
        if (n.log2 : Int) - 52 + 1 ≤ maxExponent then
          .finite negative leadingBit ((n.log2 : Int) - 52 + 1)
        else .infinite negative
      else if (n.log2 : Int) - 52 ≤ maxExponent then
        .finite negative (significandOf n) ((n.log2 : Int) - 52)
      else .infinite negative := by
  unfold ofRatio
  rw [if_neg hn, exponentFor_whole hn]
  unfold significandOf
  dsimp only
  split <;> rfl

/-! ### The bound -/

section

variable {n k : Nat} (hn : n ≠ 0)

include hn

lemma lt_of_log2_lt (h : n.log2 < 53 + k) : n < (2 ^ 54 - 1) * 2 ^ k := by
  have hlow := (Nat.log2_lt hn).1 h
  rw [Nat.pow_add] at hlow
  exact Nat.lt_of_lt_of_le hlow (Nat.mul_le_mul_right _ (by decide))

lemma le_of_lt_log2 (h : 53 + k < n.log2) : (2 ^ 54 - 1) * 2 ^ k ≤ n := by
  have hhigh : 2 ^ (54 + k) ≤ n := (Nat.le_log2 hn).1 (by omega)
  rw [Nat.pow_add] at hhigh
  exact Nat.le_trans (Nat.mul_le_mul_right _ (by decide)) hhigh

/-- A whole number is rounded up to one with a further bit if its first 54 bits are ones. -/
lemma significandOf_eq_top (h : n.log2 = 53 + k) :
    significandOf n = 2 * leadingBit ↔ (2 ^ 54 - 1) * 2 ^ k ≤ n := by
  have hlt : n < 2 ^ 53 * (2 * 2 ^ k) := by
    have hlog := (Nat.log2_lt hn).1 (show n.log2 < 53 + (k + 1) by omega)
    rwa [Nat.pow_add, Nat.pow_succ' (n := k)] at hlog
  have hunit : inMultiples 2 n 1 ((n.log2 : Int) - 52) = (n, 2 * 2 ^ k) := by
    have hexp : ((n.log2 : Int) - 52).toNat = k + 1 := by omega
    rw [inMultiples, if_pos (by omega), hexp, Nat.one_mul, ← Nat.pow_succ']
    rfl
  rw [significandOf, hunit]
  exact roundedQuotient_eq_top (by rfl) (by decide) hlt

end

lemma top_pos (k : Nat) : 0 < (2 ^ 54 - 1) * 2 ^ k := Nat.mul_pos (by decide) (Nat.two_pow_pos k)

lemma beyond_pos : 0 < beyond := top_pos 970

/-- A whole number is rounded to an infinity from the bound on. -/
lemma ofRatio_whole_finite_iff {n : Nat} (hn : n ≠ 0) (sign : Bool) :
    (∃ s m e, ofRatio sign n 1 = .finite s m e) ↔ n < beyond := by
  -- the leading bit decides, but for the last place that finite doubles reach
  have hlow : n.log2 < 53 + 970 → n < beyond := lt_of_log2_lt hn
  have htop : n.log2 = 53 + 970 → (significandOf n = 2 * leadingBit ↔ beyond ≤ n) :=
    significandOf_eq_top hn
  have hhigh : 53 + 970 < n.log2 → beyond ≤ n := le_of_lt_log2 hn
  have hmax : maxExponent = 971 := rfl
  rw [ofRatio_whole hn]
  split
  case isTrue hm =>
    split
    · have := hlow (by omega)
      simp [this]
    · have : ¬ n < beyond := by
        rcases Nat.lt_trichotomy n.log2 (53 + 970) with hlog | hlog | hlog
        · omega
        · exact Nat.not_lt.2 ((htop hlog).1 hm)
        · exact Nat.not_lt.2 (hhigh hlog)
      simp [this]
  case isFalse hm =>
    split
    · have : n < beyond := by
        rcases Nat.lt_trichotomy n.log2 (53 + 970) with hlog | hlog | hlog
        · exact hlow hlog
        · exact Nat.not_le.1 (mt (htop hlog).2 hm)
        · omega
      simp [this]
    · have := Nat.not_lt.2 (hhigh (by omega))
      simp [this]

/-- **A whole number has no finite double next to it from the bound on.** -/
theorem ofInt?_eq_none_iff (i : Int) : ofInt? i = none ↔ beyond ≤ i.natAbs := by
  by_cases hzero : i = 0
  · subst hzero
    simpa [ofInt?, ofRatio] using beyond_pos.ne'
  rw [← Nat.not_lt,
    ← ofRatio_whole_finite_iff (show i.natAbs ≠ 0 by omega) (decide (i < 0)), ofInt?]
  split
  case h_1 hfinite => simp [hfinite]
  case h_2 hfinite => simp [hfinite]
  case h_3 hzero hother => simpa using hother

end BackupSteward.Double
