import RatExpr.Grammar.Machine
import RatExpr.Pair
import RatExpr.Token.Tape

set_option autoImplicit false

/-! # Evaluation that can break down

An expression and a pair evaluated step by step: a tape is scanned, a machine reads the tokens, and
the quotient of the two sides is a division. Each of these may break down.
-/

namespace RatExpr.Checked

/-- The tokens of a text that has some besides the end. -/
def tokens (text : String) : Checked (List Token) := do
  let ts ← Tape.significant text
  if ts.all fun t => t.kind == .eof then throw (.emptyExpression text) else return ts

/-- The value of tokens that are one expression. -/
def complete (limits : Limits) (ts : List Token) : Checked Rat := ExceptT.mk do
  let (outcome, _) ← (Machine.ofTokens limits ts).perform .complete
  return outcome

/-- The value of an expression. -/
def evaluate (limits : Limits) (text : String) : Checked Rat := do
  let ts ← tokens text
  complete limits ts

/-- The value of an expression and how it came about. -/
def trace (limits : Limits) (text : String) : Checked (Rat × Expression.Trace) := do
  let ts ← tokens text
  let v ← complete limits ts
  return (v, ⟨Token.spaced ts, Canonical.render v, Expression.stages⟩)

/-- The value of one side, with the side named in the error. -/
def evaluateSide (limits : Limits) (side : Side) (text : String) : Checked Rat :=
  (evaluate limits text).adapt (.side side text)

/-- The quotient of two expressions. -/
def quotient (limits : Limits) (p : Pair) : Checked Rat :=
  if Text.trim p.numerator.toList = [] then throw .emptyNumerator
  else do
    let num ← evaluateSide limits .numerator p.numerator
    if p.isWhole then return num
    else do
      let den ← evaluateSide limits .denominator p.denominator
      if den = 0 then throw .zeroDenominator else divide num den

end RatExpr.Checked
