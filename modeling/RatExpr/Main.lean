import RatExpr.Command.Report

set_option autoImplicit false

/-! # The command

Reads the arguments, runs them and writes the report. Arguments that are not understood end
the command with the exit code 2.
-/

open RatExpr.Command

/-- The entry point of the command. -/
def main (args : List String) : IO UInt32 := do
  match Invocation.ofArguments args with
  | .error e =>
      IO.eprintln e.message
      return 2
  | .ok invocation =>
      let report := invocation.run
      IO.print report.stdout
      IO.eprint report.stderr
      return report.exitCode.toUInt32
