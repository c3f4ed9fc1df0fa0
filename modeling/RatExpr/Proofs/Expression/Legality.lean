import RatExpr.Expression
import RatExpr.Proofs.Grammar.Outline
import RatExpr.Proofs.Token.Legality

set_option autoImplicit false

/-! # Illegal texts

Which texts hold illegal tokens, and which token is reported, is settled before anything is
read: evaluating and tracing fail as scanning does, whatever the limits are, and reading adds
no illegal tokens of its own. The main statement is `Expression.stops_at_firstFault`.
-/

namespace RatExpr.Expression

open Token (significant FirstFault Faultless OpenNumber)

/-- Scanning, evaluating and tracing the text all fail with the error, under all limits. -/
def AlwaysFails (text : String) (e : EvalError) : Prop :=
  significant text = .error e ∧
    ∀ limits, evaluate limits text = .error e ∧ trace limits text = .error e

/-- A text that cannot be scanned is neither evaluated nor traced. -/
theorem alwaysFails_of_significant {text : String} {e : EvalError}
    (h : significant text = .error e) : AlwaysFails text e := by
  have htokens : tokens text = .error e := by simp only [tokens, h]
  refine ⟨h, fun limits => ⟨?_, ?_⟩⟩
  · simp only [evaluate, htokens]
  · simp only [trace, htokens]

/-- **A text that can be scanned has no illegal tokens for the reader either.** -/
theorem illegalToken_not_mem_of_evaluate {limits : Limits} {text : String} {ts : List Token}
    {e : EvalError} (hts : significant text = .ok ts) (h : evaluate limits text = .error e)
    (fragment : String) (pos : Nat) : .illegalToken fragment pos ∉ e :: e.causes := by
  simp only [evaluate, tokens, hts] at h
  split at h
  · rename_i htokens
    split at htokens
    · obtain rfl := Except.error.inj htokens
      obtain rfl := Except.error.inj h
      simp [EvalError.causes]
    · exact absurd htokens (by simp)
  · rcases Parser.about_of_complete h with habout | ⟨t, -, -, rfl⟩
    · exact habout.illegalToken_not_mem fragment pos
    · simp [EvalError.causes]

/-- A trace fails with the error of the evaluation. -/
theorem evaluate_of_trace {limits : Limits} {text : String} {e : EvalError}
    (h : trace limits text = .error e) : evaluate limits text = .error e := by
  rw [← trace_map_fst, h]
  rfl

/-- **A text stops being legal at its first fault.** It can be scanned exactly if it holds only
blanks, digits and symbols, and every point has a digit after it. Otherwise it has a first
fault, and scanning, evaluating and tracing fail with an illegal token under all limits. If the
fault is a point that goes on a number, the token is that number with the point; otherwise it
is the character at fault alone. A text that can be scanned has no illegal tokens, however it
is evaluated. -/
theorem stops_at_firstFault (text : String) :
    ((∃ ts, significant text = .ok ts) ↔
      (∀ c ∈ text.toList,
        Text.isBlank c = true ∨ c.isDigit = true ∨ c ∈ ['.', '(', ')', '+', '-', '*', '/', '%']) ∧
      ∀ before after, text.toList = before ++ '.' :: after →
        ∃ d rest, after = d :: rest ∧ d.isDigit = true) ∧
    ((¬ ∃ ts, significant text = .ok ts) →
      ∃ before c after, FirstFault text.toList before c after) ∧
    (∀ before c after, FirstFault text.toList before c after →
      (∀ pre run, c = '.' → before = pre ++ run → OpenNumber pre run →
        AlwaysFails text (.illegalToken (String.ofList (run ++ ['.'])) pre.length)) ∧
      ((¬ ∃ pre run, c = '.' ∧ before = pre ++ run ∧ OpenNumber pre run) →
        AlwaysFails text (.illegalToken (String.ofList [c]) before.length))) ∧
    ∀ ts limits e, significant text = .ok ts →
      evaluate limits text = .error e ∨ trace limits text = .error e →
      ∀ fragment pos, .illegalToken fragment pos ∉ e :: e.causes := by
  refine ⟨Token.exists_significant_iff.trans Token.faultless_iff, Token.exists_firstFault, ?_, ?_⟩
  · intro before c after hfault
    obtain ⟨hopen, hsingle⟩ := Token.significant_of_firstFault hfault
    constructor
    · intro pre run hc heq hrun
      exact alwaysFails_of_significant (hopen pre run hc heq hrun)
    · intro hnone
      exact alwaysFails_of_significant (hsingle hnone)
  · intro ts limits e hts hfails
    have hevaluate : evaluate limits text = .error e := by
      rcases hfails with hevaluate | htrace
      · exact hevaluate
      · exact evaluate_of_trace htrace
    exact illegalToken_not_mem_of_evaluate hts hevaluate

end RatExpr.Expression
