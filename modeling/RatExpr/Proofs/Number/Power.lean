import Mathlib.Algebra.Field.Rat
import Mathlib.Algebra.Ring.Int.Parity
import Mathlib.Data.Int.Cast.Lemmas
import Mathlib.Data.Rat.Lemmas
import RatExpr.Proofs.Number.Fault

set_option autoImplicit false

/-! # Exact powers

What the power of a fraction is, said without the order of its checks. The power of a fraction
by an integer is the one of the field of rationals, however it is found: by multiplying out, with
numerator and denominator in each other's place for a negative exponent, or by an answer that is
known beforehand (`power_of_den_ne_zero`, and `power_ofRat` for a reduced one). A fraction over zero
has no such power, and it is the only kind that leads to a division by zero (`power_over_zero`). The
main statement is `power_exact`.
-/

namespace RatExpr.Fraction

/-! ## Multiplying out -/

/-- A positive exponent is applied to the numerator and to the denominator. -/
theorem multiplyOut?_of_pos (base : Fraction) {e : Int} (he : 0 < e) :
    base.multiplyOut? e = quotient? (base.num ^ e.natAbs) (base.den ^ e.natAbs) := by
  rw [multiplyOut?, if_pos he]
  rfl

/-- For any other exponent the two change places. -/
theorem multiplyOut?_of_nonpos (base : Fraction) {e : Int} (he : e ≤ 0) :
    base.multiplyOut? e = quotient? (base.den ^ e.natAbs) (base.num ^ e.natAbs) := by
  rw [multiplyOut?, if_neg (by omega)]
  rfl

theorem quotient?_of_ne_zero {num den : Int} (hden : den ≠ 0) :
    quotient? num den = some ((num : Rat) / den) := by
  rw [quotient?, if_neg hden, Rat.divInt_eq_div]

/-- **A fraction of two numbers other than zero is multiplied out to its power,** reduced or not. -/
theorem multiplyOut?_of_ne_zero {base : Fraction} (hnum : base.num ≠ 0) (hden : base.den ≠ 0)
    (e : Int) : base.multiplyOut? e = some ((base.num / base.den : Rat) ^ e) := by
  rcases lt_or_ge 0 e with he | he
  · obtain ⟨k, rfl⟩ := Int.eq_ofNat_of_zero_le he.le
    calc base.multiplyOut? k
        = some (((base.num ^ k : Int) : Rat) / (base.den ^ k : Int)) := by
          rw [multiplyOut?_of_pos _ he, Int.natAbs_natCast]
          exact quotient?_of_ne_zero (pow_ne_zero k hden)
      _ = some ((base.num / base.den : Rat) ^ (k : Int)) := by
          push_cast
          rw [zpow_natCast, div_pow]
  · obtain ⟨k, hk⟩ := Int.eq_ofNat_of_zero_le (Int.neg_nonneg_of_nonpos he)
    obtain rfl : e = -(k : Int) := by omega
    calc base.multiplyOut? (-(k : Int))
        = some (((base.den ^ k : Int) : Rat) / (base.num ^ k : Int)) := by
          rw [multiplyOut?_of_nonpos _ he, Int.natAbs_neg, Int.natAbs_natCast]
          exact quotient?_of_ne_zero (pow_ne_zero k hnum)
      _ = some ((base.num / base.den : Rat) ^ (-(k : Int))) := by
          push_cast
          rw [zpow_neg, zpow_natCast, div_pow, inv_div]

/-! ## Bases that are not multiplied out -/

theorem num_ofRat_eq_zero_iff {b : Rat} : (ofRat b).num = 0 ↔ b = 0 := Rat.num_eq_zero

theorem num_ofRat_div_den (b : Rat) : ((ofRat b).num / (ofRat b).den : Rat) = b :=
  Rat.num_div_den b

/-- Numerator and denominator in lowest terms are the same only for one. -/
theorem num_ofRat_eq_den_iff {b : Rat} : (ofRat b).num = (ofRat b).den ↔ b = 1 := by
  constructor
  · intro h
    rw [← num_ofRat_div_den b, h]
    exact div_self (Int.cast_ne_zero.2 (den_ofRat_ne_zero b))
  · rintro rfl
    rfl

theorem ofRat_eq_neg_one_iff {b : Rat} : ofRat b = ⟨-1, 1⟩ ↔ b = -1 := by
  constructor
  · intro h
    rw [← num_ofRat_div_den b, h, Int.cast_one, div_one]
    rfl
  · rintro rfl
    rfl

/-- The powers of minus one alternate, also those with a negative exponent. -/
theorem neg_one_zpow (e : Int) : (-1 : Rat) ^ e = if e % 2 = 0 then 1 else -1 := by
  split
  · rename_i he
    exact Even.neg_one_zpow (Int.even_iff.2 he)
  · rename_i he
    exact Odd.neg_one_zpow (Int.odd_iff.2 (by omega))

/-! ## Powers -/

/-- The checks of a power whose exponent is an integer. -/
theorem power_intCast (limits : Limits) (base : Fraction) (e : Int) :
    base.power limits e =
      if base.num = 0 ∧ e < 0 then .error .zeroToNegative
      else if e = 0 ∨ base.num = base.den then .ok 1
      else if base.num = 0 then .ok 0
      else if base = ⟨-1, 1⟩ then .ok (if e % 2 = 0 then 1 else -1)
      else if limits.maxExponent < e.natAbs then .error (.exponentTooLarge limits.maxExponent)
      else match base.multiplyOut? e with
        | some v => .ok v
        | none => .error .powerOverZero := by
  simp only [power, Rat.den_intCast, Rat.num_intCast, ne_eq, not_true_eq_false, if_false]
  rfl

/-- An exponent that is no integer is refused before anything else. -/
theorem power_of_not_integer (limits : Limits) (base : Fraction) {q : Rat}
    (hq : ¬ ∃ e : Int, q = e) : base.power limits q = .error .exponentNotInteger := by
  have hden : q.den ≠ 1 := fun h => hq ⟨q.num, (Rat.den_eq_one_iff q).1 h |>.symm⟩
  simp only [power, ne_eq, hden, not_false_eq_true, if_true]

/-- **A power of a fraction is exact,** reduced or not, unless it is a fraction over zero. The bases
that are answered without multiplying out have the same powers as by multiplying, and only the
others have to keep to the limit. -/
theorem power_of_den_ne_zero (limits : Limits) {base : Fraction} (hden : base.den ≠ 0) (e : Int) :
    base.power limits e =
      if base.num = 0 ∧ e < 0 then .error .zeroToNegative
      else if e = 0 ∨ base.num = 0 ∨ base.num = base.den ∨ base = ⟨-1, 1⟩ ∨
          e.natAbs ≤ limits.maxExponent then .ok ((base.num / base.den : Rat) ^ e)
      else .error (.exponentTooLarge limits.maxExponent) := by
  rw [power_intCast]
  by_cases hneg : base.num = 0 ∧ e < 0
  · rw [if_pos hneg, if_pos hneg]
  rw [if_neg hneg, if_neg hneg]
  -- what is answered without multiplying out is answered by the power
  by_cases he : e = 0
  · rw [if_pos (Or.inl he), if_pos (Or.inl he), he, zpow_zero]
  by_cases hone : base.num = base.den
  · have hvalue : (base.num / base.den : Rat) = 1 := by
      rw [hone, div_self (Int.cast_ne_zero.2 hden)]
    rw [if_pos (Or.inr hone), if_pos (Or.inr (Or.inr (Or.inl hone))), hvalue, one_zpow]
  rw [if_neg (not_or.2 ⟨he, hone⟩)]
  by_cases hzero : base.num = 0
  · rw [if_pos hzero, if_pos (Or.inr (Or.inl hzero)), hzero, Int.cast_zero, zero_div,
      zero_zpow e he]
  rw [if_neg hzero]
  by_cases hminus : base = ⟨-1, 1⟩
  · have hvalue : (base.num / base.den : Rat) = -1 := by
      rw [hminus, Int.cast_one, div_one]
      rfl
    rw [if_pos hminus, if_pos (Or.inr (Or.inr (Or.inr (Or.inl hminus)))), hvalue, neg_one_zpow]
  -- for any other base the limit decides
  rw [if_neg hminus, multiplyOut?_of_ne_zero hzero hden]
  simp only [he, hone, hzero, hminus, false_or]
  by_cases hle : e.natAbs ≤ limits.maxExponent
  · rw [if_neg (Nat.not_lt.2 hle), if_pos hle]
  · rw [if_pos (Nat.lt_of_not_le hle), if_neg hle]

/-- **A power of a rational is exact.** The bases that need not keep to the limit are 0, 1 and -1. -/
theorem power_ofRat (limits : Limits) (b : Rat) (e : Int) :
    (ofRat b).power limits e =
      if b = 0 ∧ e < 0 then .error .zeroToNegative
      else if e = 0 ∨ b = 0 ∨ b = 1 ∨ b = -1 ∨ e.natAbs ≤ limits.maxExponent then .ok (b ^ e)
      else .error (.exponentTooLarge limits.maxExponent) := by
  rw [power_of_den_ne_zero limits (den_ofRat_ne_zero b)]
  simp only [num_ofRat_eq_zero_iff, num_ofRat_eq_den_iff, ofRat_eq_neg_one_iff, num_ofRat_div_den]

/-- A fraction over zero can be neither multiplied out nor answered before. -/
theorem power_over_zero (limits : Limits) {n : Int} (hn : n ≠ 0) (e : Int) :
    (⟨n, 0⟩ : Fraction).power limits e =
      if e = 0 then .ok 1
      else if limits.maxExponent < e.natAbs then .error (.exponentTooLarge limits.maxExponent)
      else if 0 < e then .error .powerOverZero
      else .ok 0 := by
  rw [power_intCast]
  simp only [hn, false_and, or_false, if_false, mk.injEq]
  by_cases he : e = 0
  · rw [if_pos he, if_pos he]
  rw [if_neg he, if_neg he, if_neg (by omega)]
  by_cases hlt : limits.maxExponent < e.natAbs
  · rw [if_pos hlt, if_pos hlt]
  rw [if_neg hlt, if_neg hlt]
  have hzero : (0 : Int) ^ e.natAbs = 0 := zero_pow (Int.natAbs_ne_zero.2 he)
  by_cases hpos : 0 < e
  · rw [if_pos hpos, multiplyOut?_of_pos _ hpos, hzero]
    rfl
  · rw [if_neg hpos, multiplyOut?_of_nonpos _ (by omega), hzero,
      quotient?_of_ne_zero (pow_ne_zero _ hn), Int.cast_zero, zero_div]

/-- **What a power is.** An exponent that is no integer is refused for every base. A power of a
rational by an integer is exact, unless zero would have to be inverted or an exponent is beyond
the limit; the limit does not count for the bases 0, 1 and -1, nor for the exponent 0. A fraction
that is not reduced has the same powers, and there it is one if its two numbers are the same, and
minus one only if it is written as such. Nothing is divided by zero unless the base is a quotient
by zero already; the powers of such a base come last. -/
theorem power_exact (limits : Limits) :
    (∀ (base : Fraction) (q : Rat), (¬ ∃ e : Int, q = e) →
      base.power limits q = .error .exponentNotInteger) ∧
    (∀ (b : Rat) (e : Int), (ofRat b).power limits e =
      if b = 0 ∧ e < 0 then .error .zeroToNegative
      else if e = 0 ∨ b = 0 ∨ b = 1 ∨ b = -1 ∨ e.natAbs ≤ limits.maxExponent then .ok (b ^ e)
      else .error (.exponentTooLarge limits.maxExponent)) ∧
    (∀ (base : Fraction) (e : Int), base.den ≠ 0 → base.power limits e =
      if base.num = 0 ∧ e < 0 then .error .zeroToNegative
      else if e = 0 ∨ base.num = 0 ∨ base.num = base.den ∨ base = ⟨-1, 1⟩ ∨
          e.natAbs ≤ limits.maxExponent then .ok ((base.num / base.den : Rat) ^ e)
      else .error (.exponentTooLarge limits.maxExponent)) ∧
    (∀ (base : Fraction) (q : Rat), base.den ≠ 0 → base.power limits q ≠ .error .powerOverZero) ∧
    (∀ n e : Int, n ≠ 0 → (⟨n, 0⟩ : Fraction).power limits e =
      if e = 0 then .ok 1
      else if limits.maxExponent < e.natAbs then .error (.exponentTooLarge limits.maxExponent)
      else if 0 < e then .error .powerOverZero
      else .ok 0) := by
  refine ⟨fun base q hq => power_of_not_integer limits base hq, power_ofRat limits,
    fun base e hden => power_of_den_ne_zero limits hden e, ?_, ?_⟩
  · intro base q hden h
    -- the errors of a power of such a base are known, and this is none of them
    have hfault := fault_of_power hden 0 h
    cases hfault
  · exact fun n e hn => power_over_zero limits hn e

end RatExpr.Fraction
