import RatExpr.Command.Arguments

set_option autoImplicit false

/-! # Running a command line

What a run writes and how it ends. A value is written in canonical form and the run
succeeds; an error is written with its causes, one line each, and the run fails. A trace
adds, before that, one line for each side that has a value of its own.
-/

namespace RatExpr.Command

/-- How a run ends and what it has written. -/
structure Report where
  exitCode : Nat
  stdout : String
  stderr : String
  deriving DecidableEq, Repr

/-- Lines of text, each ended by a line feed. -/
def unlines (lines : List String) : String := String.join (lines.map (· ++ "\n"))

/-- An error and its causes, a line each. -/
def errorLines (e : EvalError) : List String :=
  ("erreur : " ++ e.message) :: e.causes.map fun cause => "  cause : " ++ cause.message

/-- The trace of one side. A side that is blank or has no value has none. -/
def traceLine? (limits : Limits) (side : Side) (text : String) : Option String :=
  if Text.trim text.toList = [] then none
  else match Expression.trace limits text with
    | .ok (_, t) => some (side.name ++ " : [" ++ t.tokens ++ "] = " ++ t.result)
    | .error _ => none

namespace Invocation

/-- The traces of the two sides, the numerator first. -/
def traceLines (i : Invocation) : List String :=
  if i.traced then
    (traceLine? i.limits .numerator i.pair.numerator).toList ++
      (traceLine? i.limits .denominator i.pair.denominator).toList
  else []

/-- Runs a command line that has been understood. This is the report of a run with logging off, as
it is unless the environment asks for a log; a log is written to the standard error too, and is no
part of the report. -/
def run (i : Invocation) : Report :=
  match i.pair.evaluate i.limits with
  | .ok v => ⟨0, unlines (i.traceLines ++ [Canonical.render v]), ""⟩
  | .error e => ⟨1, unlines i.traceLines, unlines (errorLines e)⟩

end Invocation

end RatExpr.Command
