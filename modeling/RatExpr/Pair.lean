import RatExpr.Expression

set_option autoImplicit false

/-! # Fractions of two expressions

A pair of texts is evaluated to one rational, the numerator first. The numerator must not
be blank. A denominator that is blank or just `1` stands for no division; any other one is
evaluated and must not be zero.
-/

namespace RatExpr

/-- The expressions of the numerator and the denominator. -/
structure Pair where
  numerator : String
  denominator : String
  deriving DecidableEq, Repr

namespace Pair

open Text (trim)

/-- A pair as it is shown where the `plain` characters stand for themselves, with both texts
quoted. -/
def displayBy (plain : Char → Bool) (p : Pair) : String :=
  "PaireExpr(num: " ++ Text.Quoted.quoteBy plain p.numerator ++ ", denom: " ++
    Text.Quoted.quoteBy plain p.denominator ++ ")"

/-- A pair as it is shown. -/
def display (p : Pair) : String := p.displayBy Text.isPrintable

/-- The value of one side, with the side named in the error. -/
def evaluateSide (limits : Limits) (side : Side) (text : String) : Except EvalError Rat :=
  (Expression.evaluate limits text).mapError (.side side text)

/-- Does the denominator stand for no division? -/
def isWhole (p : Pair) : Bool :=
  trim p.denominator.toList == [] || trim p.denominator.toList == ['1']

/-- The quotient of the two expressions. -/
def evaluate (limits : Limits) (p : Pair) : Except EvalError Rat :=
  if trim p.numerator.toList = [] then .error .emptyNumerator
  else match evaluateSide limits .numerator p.numerator with
    | .error e => .error e
    | .ok num =>
        if p.isWhole then .ok num
        else match evaluateSide limits .denominator p.denominator with
          | .error e => .error e
          | .ok den => if den = 0 then .error .zeroDenominator else .ok (num / den)

end Pair

end RatExpr
