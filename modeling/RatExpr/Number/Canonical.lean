set_option autoImplicit false

/-! # The canonical text of a rational

A rational is written as its numerator, with `-` before a negative one, and, unless the
denominator is one, `/` and the denominator, in lowest terms and without leading zeros.
-/

namespace RatExpr.Canonical

/-- An integer in decimal digits. -/
def integer (n : Int) : String :=
  if n < 0 then "-" ++ n.natAbs.repr else n.natAbs.repr

/-- The canonical text of a rational. -/
def render (v : Rat) : String :=
  if v.den = 1 then integer v.num else integer v.num ++ "/" ++ v.den.repr

/-- An integer is written without a denominator. -/
theorem render_intCast (n : Int) : render (n : Rat) = integer n := by
  simp [render]

example : render (mkRat (-4) 6) = "-2/3" := by decide

end RatExpr.Canonical
