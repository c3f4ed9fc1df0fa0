import Mathlib.Data.Rat.Defs
import RatExpr.Number.Checked

set_option autoImplicit false

/-! # Arithmetic does not break down

Every division of a number or an operator has been asked about before, so that it never breaks down
and comes to what the arithmetic comes to that gets along without. A power of ten is not zero; an
operator has its own error for a divisor of zero, and so has a power.
-/

namespace RatExpr.Checked

variable {num den : Int}

/-! ## Divisions -/

theorem fraction_of_ne_zero (h : den ≠ 0) (num : Int) :
    fraction num den = ofOutcome (.ok (Rat.divInt num den)) := by
  rw [fraction, if_neg h]
  rfl

theorem divide_of_ne_zero {b : Rat} (h : b ≠ 0) (a : Rat) :
    divide a b = ofOutcome (.ok (a / b)) := by
  rw [divide, if_neg h]
  rfl

theorem remainder_of_ne_zero (h : den ≠ 0) (num : Int) :
    remainder num den = ofOutcome (.ok (num.tmod den)) := by
  rw [remainder, if_neg h]
  rfl

/-- A value is what the computation goes on from. -/
theorem ofOutcome_ok_bind {α β : Type} (v : α) (f : α → Checked β) :
    (ofOutcome (.ok v) >>= f) = f v := rfl

/-! ## Numbers -/

theorem number_eq (text : String) (pos : Nat) :
    number text pos = ofOutcome (Literal.evaluate text pos) := by
  simp only [number, Literal.evaluate, Literal.value?]
  obtain ⟨whole, fractional⟩ := Literal.splitPoint text.toList
  cases Literal.integer? (whole ++ fractional) with
  | none => rfl
  | some n =>
      by_cases hfits : fractional.length ≤ Literal.maxFraction
      · have hten : Int.pow 10 fractional.length ≠ 0 := Int.pow_ne_zero (by decide)
        have hcast : Int.pow 10 fractional.length = (Nat.pow 10 fractional.length : Nat) :=
          (Int.natCast_pow 10 fractional.length).symm
        simp only [if_pos hfits]
        rw [fraction_of_ne_zero hten, hcast, Rat.mkRat_eq_divInt]
      · simp only [if_neg hfits]
        rfl

/-! ## Operators -/

theorem modulo_eq (pos : Nat) (a b : Rat) :
    modulo pos a b = ofOutcome (RatExpr.modulo pos a b) := by
  unfold modulo RatExpr.modulo
  split_ifs with hden hzero
  · rfl
  · rfl
  · have hnum : b.num ≠ 0 := Rat.num_ne_zero.2 hzero
    rw [remainder_of_ne_zero hnum]
    rfl

/-- The two integers of a power are those that are multiplied out. -/
theorem multiplyOut?_eq (base : Fraction) (exponent : Int) :
    base.multiplyOut? exponent =
      Fraction.quotient? (powers base exponent).1 (powers base exponent).2 := by
  unfold Fraction.multiplyOut? powers
  split <;> rfl

/-- Whether an integer is even shows in either remainder. -/
theorem tmod_two_eq_zero_iff (e : Int) : e.tmod 2 = 0 ↔ e % 2 = 0 := by
  rw [← Int.dvd_iff_tmod_eq_zero, Int.dvd_iff_emod_eq_zero]

/-- **A power never breaks down,** whatever the base, reduced or not. -/
theorem power_eq (limits : Limits) (base : Fraction) (exponent : Rat) :
    power limits base exponent = ofOutcome (base.power limits exponent) := by
  unfold power Fraction.power
  dsimp only
  split_ifs with hint hzero hone hnum hunit heven hlimit hden
  · rfl
  · rfl
  · rfl
  · rfl
  · rw [remainder_of_ne_zero (by decide), ofOutcome_ok_bind,
      if_pos ((tmod_two_eq_zero_iff _).2 heven)]
    rfl
  · rw [remainder_of_ne_zero (by decide), ofOutcome_ok_bind,
      if_neg fun h => heven ((tmod_two_eq_zero_iff _).1 h)]
    rfl
  · rfl
  · rw [multiplyOut?_eq, Fraction.quotient?, if_pos hden]
    rfl
  · rw [multiplyOut?_eq, Fraction.quotient?, if_neg hden, fraction_of_ne_zero hden]

theorem apply_eq (limits : Limits) (op : BinaryOp) (pos : Nat) (a b : Rat) :
    apply limits op pos a b = ofOutcome (op.apply limits pos a b) := by
  cases op with
  | add => rfl
  | sub => rfl
  | mul => rfl
  | div =>
      unfold apply BinaryOp.apply
      dsimp only
      split_ifs with hzero
      · rfl
      · exact divide_of_ne_zero hzero a
  | mod => exact modulo_eq pos a b
  | pow => exact power_eq limits (.ofRat a) b

/-- **Operators never break down.** -/
theorem combine_eq (limits : Limits) (op : BinaryOp) (pos : Nat) (a : Rat)
    (right : Except EvalError Rat) :
    combine limits op pos a right = ofOutcome (op.combine limits pos a right) := by
  cases right with
  | error e => rfl
  | ok b => exact apply_eq limits op pos a b

end RatExpr.Checked
