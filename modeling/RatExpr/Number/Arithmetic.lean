import RatExpr.Number.Fraction

set_option autoImplicit false

/-! # Applying an operator

The value of an operator on two rationals, or the error at the operator's position. Sums,
differences and products always have a value.
-/

namespace RatExpr

/-- The remainder of two integers, with the sign of the left one. Both operands have to be
integers before the right one has to be other than zero. -/
def modulo (pos : Nat) (a b : Rat) : Except EvalError Rat :=
  if a.den ≠ 1 ∨ b.den ≠ 1 then .error (.moduloNotInteger pos)
  else if b = 0 then .error (.moduloByZero pos)
  else .ok (Int.tmod a.num b.num : Int)

example : modulo 0 (-7) 2 = .ok (-1) := by rfl

/-- The value of `a op b`, where the operator stands at `pos`. -/
def BinaryOp.apply (limits : Limits) (op : BinaryOp) (pos : Nat) (a b : Rat) :
    Except EvalError Rat :=
  match op with
  | .add => .ok (a + b)
  | .sub => .ok (a - b)
  | .mul => .ok (a * b)
  | .div => if b = 0 then .error (.divisionByZero pos) else .ok (a / b)
  | .mod => modulo pos a b
  | .pow => (Fraction.ofRat a).power limits b

/-- The value of `a op b`, where the right operand may have no value: its error is then the
cause of the error of the whole. An error of the operator itself has no cause. -/
def BinaryOp.combine (limits : Limits) (op : BinaryOp) (pos : Nat) (a : Rat) :
    Except EvalError Rat → Except EvalError Rat
  | .error e => .error (.operand op pos e)
  | .ok b => op.apply limits pos a b

end RatExpr
