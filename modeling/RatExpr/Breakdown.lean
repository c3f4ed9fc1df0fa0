import RatExpr.Error

set_option autoImplicit false

/-! # Breakdowns

What an evaluation must never do, however it goes wrong: it has to come to an error of its own
before. A computation that is not known to keep to that comes to an outcome or to a breakdown
(`Checked`), so that it can be proved that it keeps to it.
-/

namespace RatExpr

/-- What must never happen. -/
inductive Breakdown where
  /-- A level of the grammar is called, and the stack holds no more calls. -/
  | stackOverflow
  /-- A level of nesting is left, and none has been entered. -/
  | notNested
  /-- More levels of nesting have been entered than the limit allows. -/
  | overNested
  /-- A loop goes on after it has seen all there is. -/
  | endlessLoop
  /-- A fraction has a denominator of zero, or something is divided by zero. -/
  | zeroDivisor
  /-- Characters are taken from where the text has none. -/
  | outOfText
  deriving DecidableEq, Repr

/-- A value or an error, unless it breaks down. -/
abbrev Checked (α : Type) := ExceptT EvalError (Except Breakdown) α

/-- The computation breaks down. -/
def Checked.breakDown {α : Type} (b : Breakdown) : Checked α := ExceptT.mk (.error b)

/-- An outcome is come to. -/
def Checked.ofOutcome {α : Type} (outcome : Except EvalError α) : Checked α :=
  ExceptT.mk (.ok outcome)

end RatExpr
