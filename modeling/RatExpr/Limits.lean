set_option autoImplicit false

/-! # Limits

The two bounds under which an expression is evaluated. They only guard against inputs that
are too large to be worth an answer: no value depends on them.
-/

namespace RatExpr

/-- Bounds on what is evaluated. -/
structure Limits where
  /-- How deep parentheses, signs and exponents may be nested. -/
  maxDepth : Nat := 256
  /-- The largest exponent, in absolute value, of a power that has to be multiplied out. -/
  maxExponent : Nat := 1000000
  deriving DecidableEq, Repr, Inhabited

end RatExpr
