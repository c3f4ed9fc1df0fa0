import RatExpr.Checked
import RatExpr.Proofs.Grammar.Calls
import RatExpr.Proofs.Token.Tape

set_option autoImplicit false

/-! # Evaluation does not break down

Whatever text is scanned, whatever tokens a machine is given, however often it is called, and
whatever pair is evaluated, nothing breaks down, and all that is come to is what the tokens, the
parser and the evaluation come to that have nothing to break down over. The main statement is
`Checked.never_breaks_down`.
-/

namespace RatExpr.Checked

variable (limits : Limits)

/-! ## Expressions -/

theorem tokens_eq (text : String) : tokens text = ofOutcome (Expression.tokens text) := by
  rw [tokens, Tape.significant_eq, Expression.tokens]
  cases Token.significant text with
  | error e => rfl
  | ok ts =>
      rw [ofOutcome_ok_bind]
      dsimp only
      split <;> rfl

theorem complete_eq (ts : List Token) :
    complete limits ts = ofOutcome (Parser.ofTokens limits ts).complete.1 := by
  obtain ⟨_, hperform⟩ := Machine.perform_ofTokens limits ts .complete
  rw [complete, hperform]
  rfl

theorem evaluate_eq (text : String) :
    evaluate limits text = ofOutcome (Expression.evaluate limits text) := by
  rw [evaluate, tokens_eq, Expression.evaluate]
  cases Expression.tokens text with
  | error e => rfl
  | ok ts => exact complete_eq limits ts

theorem trace_eq (text : String) :
    trace limits text = ofOutcome (Expression.trace limits text) := by
  rw [trace, tokens_eq, Expression.trace]
  cases Expression.tokens text with
  | error e => rfl
  | ok ts =>
      rw [ofOutcome_ok_bind, complete_eq]
      dsimp only
      cases (Parser.ofTokens limits ts).complete.1 <;> rfl

/-! ## Pairs -/

theorem evaluateSide_eq (side : Side) (text : String) :
    evaluateSide limits side text = ofOutcome (Pair.evaluateSide limits side text) := by
  rw [evaluateSide, evaluate_eq]
  rfl

theorem quotient_eq (p : Pair) : quotient limits p = ofOutcome (p.evaluate limits) := by
  unfold quotient Pair.evaluate
  split
  · rfl
  rw [evaluateSide_eq]
  cases Pair.evaluateSide limits .numerator p.numerator with
  | error e => rfl
  | ok num =>
      rw [ofOutcome_ok_bind]
      dsimp only
      split
      · rfl
      rw [evaluateSide_eq]
      cases Pair.evaluateSide limits .denominator p.denominator with
      | error e => rfl
      | ok den =>
          rw [ofOutcome_ok_bind]
          dsimp only
          split
          · rfl
          · rename_i hden
            exact divide_of_ne_zero hden num

/-- **Nothing breaks down.** Scanning a text, one token at a time or all at once, any calls on any
tokens, the power of any base, an evaluation, a trace and a quotient all come to an outcome: no
fraction has a denominator of zero, nothing is divided by zero, no place is off the text, and
the levels of nesting that have been entered are never fewer than none or more than the limit. The
outcome is that of the evaluation without checks. After any calls no level of nesting is entered. -/
theorem never_breaks_down :
    (∀ text n, (Tape.ofString text).answers n = .ok ((Scanner.ofString text).answers n)) ∧
    (∀ text, Tape.significant text = ofOutcome (Token.significant text)) ∧
    (∀ ts calls, ∃ m, (Machine.ofTokens limits ts).performAll calls =
        .ok (((Parser.ofTokens limits ts).performAll calls).1, m) ∧ m.depth = 0) ∧
    (∀ base exponent, power limits base exponent = ofOutcome (base.power limits exponent)) ∧
    (∀ text, evaluate limits text = ofOutcome (Expression.evaluate limits text)) ∧
    (∀ text, trace limits text = ofOutcome (Expression.trace limits text)) ∧
    ∀ p, quotient limits p = ofOutcome (p.evaluate limits) := by
  refine ⟨Tape.answers_eq, Tape.significant_eq, fun ts calls => ?_, power_eq limits,
    evaluate_eq limits, trace_eq limits, quotient_eq limits⟩
  obtain ⟨outcomes, c, -, hmachine, hparser⟩ :=
    Machine.performAll_eq limits ts calls (Nat.zero_le _)
  have houtcomes : ((Parser.ofTokens limits ts).performAll calls).1 = outcomes :=
    congrArg Prod.fst hparser
  rw [houtcomes]
  exact ⟨_, hmachine, rfl⟩

end RatExpr.Checked
