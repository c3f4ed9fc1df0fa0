import RatExpr.Breakdown
import RatExpr.Number.Arithmetic
import RatExpr.Number.Literal

set_option autoImplicit false

/-! # Arithmetic that can break down

The operators and numbers once more, computed with divisions that break down on a divisor of zero.
Nothing is looked up beforehand: each division is done where the operator comes to it, after
whatever has been asked before.
-/

namespace RatExpr.Checked

/-! ## Divisions -/

/-- The fraction of two integers, reduced. -/
def fraction (num den : Int) : Checked Rat :=
  if den = 0 then breakDown .zeroDivisor else return Rat.divInt num den

/-- The quotient of two rationals. -/
def divide (a b : Rat) : Checked Rat :=
  if b = 0 then breakDown .zeroDivisor else return a / b

/-- The remainder of two integers, with the sign of the left one. -/
def remainder (a b : Int) : Checked Int :=
  if b = 0 then breakDown .zeroDivisor else return a.tmod b

example : fraction 1 0 = breakDown .zeroDivisor := rfl

/-! ## Numbers -/

/-- The value of the number written at `pos`: the fraction of its digits over a power of ten. -/
def number (text : String) (pos : Nat) : Checked Rat :=
  let (whole, fractional) := Literal.splitPoint text.toList
  match Literal.integer? (whole ++ fractional) with
  | none => throw (.invalidNumber text pos)
  | some n =>
      if fractional.length ≤ Literal.maxFraction then
        fraction n (Int.pow 10 fractional.length)
      else throw (.invalidNumber text pos)

/-! ## Operators -/

/-- The remainder of two rationals that have to be integers. -/
def modulo (pos : Nat) (a b : Rat) : Checked Rat :=
  if a.den ≠ 1 ∨ b.den ≠ 1 then throw (.moduloNotInteger pos)
  else if b = 0 then throw (.moduloByZero pos)
  else do
    let r ← remainder a.num b.num
    return (r : Rat)

/-- The numerator and the denominator of a power, not reduced: for a negative exponent those of the
base change places. -/
def powers (base : Fraction) (exponent : Int) : Int × Int :=
  let k := exponent.natAbs
  if 0 < exponent then (base.num.pow k, base.den.pow k) else (base.den.pow k, base.num.pow k)

/-- The power of a fraction. -/
def power (limits : Limits) (base : Fraction) (exponent : Rat) : Checked Rat :=
  let e := exponent.num
  if exponent.den ≠ 1 then throw .exponentNotInteger
  else if base.num = 0 ∧ e < 0 then throw .zeroToNegative
  else if e = 0 ∨ base.num = base.den then return 1
  else if base.num = 0 then return 0
  else if base = ⟨-1, 1⟩ then do
    -- only whether the exponent is even counts
    let r ← remainder e 2
    return if r = 0 then 1 else -1
  else if limits.maxExponent < e.natAbs then throw (.exponentTooLarge limits.maxExponent)
  else
    let (num, den) := powers base e
    if den = 0 then throw .powerOverZero else fraction num den

/-- The value of `a op b`, where the operator stands at `pos`. -/
def apply (limits : Limits) (op : BinaryOp) (pos : Nat) (a b : Rat) : Checked Rat :=
  match op with
  | .add => return a + b
  | .sub => return a - b
  | .mul => return a * b
  | .div => if b = 0 then throw (.divisionByZero pos) else divide a b
  | .mod => modulo pos a b
  | .pow => power limits (.ofRat a) b

/-- The value of `a op b`, where the right operand may have no value. -/
def combine (limits : Limits) (op : BinaryOp) (pos : Nat) (a : Rat) :
    Except EvalError Rat → Checked Rat
  | .error e => throw (.operand op pos e)
  | .ok b => apply limits op pos a b

end RatExpr.Checked
