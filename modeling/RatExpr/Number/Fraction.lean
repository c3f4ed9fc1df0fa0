import RatExpr.Error
import RatExpr.Limits

set_option autoImplicit false

/-! # Powers of fractions

A fraction is a numerator over a denominator, neither reduced nor checked: the denominator
may be negative, or zero. Its powers by integer exponents are exact rationals. A base whose
powers are known without multiplying (0, 1 and -1) may have an exponent of any size; for any
other base the exponent is bounded.
-/

namespace RatExpr

/-- A numerator over a denominator, which may be negative or zero. -/
structure Fraction where
  num : Int
  den : Int
  deriving DecidableEq, Repr

namespace Fraction

/-- The reduced fraction of a rational. -/
def ofRat (v : Rat) : Fraction := ⟨v.num, v.den⟩

theorem den_ofRat_ne_zero (v : Rat) : (ofRat v).den ≠ 0 := Int.natCast_ne_zero.2 v.den_nz

/-- The quotient of two integers; none if the divisor is zero. -/
def quotient? (num den : Int) : Option Rat :=
  if den = 0 then none else some (Rat.divInt num den)

/-- The base multiplied out: for a negative exponent numerator and denominator change
places. -/
def multiplyOut? (base : Fraction) (exponent : Int) : Option Rat :=
  let k := exponent.natAbs
  if 0 < exponent then quotient? (base.num.pow k) (base.den.pow k)
  else quotient? (base.den.pow k) (base.num.pow k)

/-- The power of a fraction by a rational exponent. The exponent has to be an integer, then
zero must not have a negative exponent, then the bases and exponents with a known power are
answered, and only then is the exponent compared with the limit. -/
def power (limits : Limits) (base : Fraction) (exponent : Rat) : Except EvalError Rat :=
  let e := exponent.num
  if exponent.den ≠ 1 then .error .exponentNotInteger
  else if base.num = 0 ∧ e < 0 then .error .zeroToNegative
  else if e = 0 ∨ base.num = base.den then .ok 1
  else if base.num = 0 then .ok 0
  else if base = ⟨-1, 1⟩ then .ok (if e % 2 = 0 then 1 else -1)
  else if limits.maxExponent < e.natAbs then .error (.exponentTooLarge limits.maxExponent)
  else match base.multiplyOut? e with
    | some v => .ok v
    | none => .error .powerOverZero

example : (⟨7, 0⟩ : Fraction).multiplyOut? 2 = none := by decide

example : (⟨2, -1⟩ : Fraction).multiplyOut? 3 = some (-8) := by decide

end Fraction

end RatExpr
