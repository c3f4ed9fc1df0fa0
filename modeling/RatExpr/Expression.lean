import RatExpr.Grammar.Parser
import RatExpr.Number.Canonical

set_option autoImplicit false

/-! # Evaluating an expression

The value of the text of one expression. A text with an illegal piece or with nothing but
blanks has no value; any other text is read to its end by a parser. A trace shows, beside
the value, the tokens that were read and the canonical text of the value.
-/

namespace RatExpr.Expression

/-- The tokens of a text that has some besides the end. -/
def tokens (text : String) : Except EvalError (List Token) :=
  match Token.significant text with
  | .error e => .error e
  | .ok ts => if ts.all fun t => t.kind == .eof then .error (.emptyExpression text) else .ok ts

/-- The value of an expression. -/
def evaluate (limits : Limits) (text : String) : Except EvalError Rat :=
  match tokens text with
  | .error e => .error e
  | .ok ts => (Parser.ofTokens limits ts).complete.1

/-- How a value came about. -/
structure Trace where
  /-- The tokens, with spaces between them. -/
  tokens : String
  /-- The canonical text of the value. -/
  result : String
  /-- The stages of the evaluation, in words. -/
  note : String
  deriving DecidableEq, Repr

/-- The note on every trace. -/
def stages : String :=
  "Pipeline: jetons → descente récursive (évaluation immédiate) → rationnel réduit."

/-- The value of an expression and how it came about. -/
def trace (limits : Limits) (text : String) : Except EvalError (Rat × Trace) :=
  match tokens text with
  | .error e => .error e
  | .ok ts =>
      match (Parser.ofTokens limits ts).complete.1 with
      | .error e => .error e
      | .ok v => .ok (v, ⟨Token.spaced ts, Canonical.render v, stages⟩)

/-- **A trace fails as the evaluation does, and otherwise shows its value.** -/
theorem trace_map_fst (limits : Limits) (text : String) :
    (trace limits text).map Prod.fst = evaluate limits text := by
  unfold trace evaluate
  cases tokens text with
  | error e => rfl
  | ok ts =>
      cases h : (Parser.ofTokens limits ts).complete.1 with
      | error e => simp [h, Except.map]
      | ok v => simp [h, Except.map]

end RatExpr.Expression
