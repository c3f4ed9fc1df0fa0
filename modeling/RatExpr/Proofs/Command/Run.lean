import Mathlib.Data.List.Basic
import RatExpr.Command.Report
import RatExpr.Proofs.Expression.Trace
import RatExpr.Proofs.Pair.Quotient

set_option autoImplicit false

/-! # What a run writes

The report of a run, described without the evaluations that lead to it. A trace is found by
evaluating each side once more, in another way than the pair does: it has a line for every side with
a value (`Shows`), also where the pair has none, or leaves the side out. The causes of an error are
those that are found by asking each for its cause (`EvalError.LeadsTo`). The main statement is
`Invocation.run_reports`.
-/

namespace RatExpr

open Text (AllBlank)
open Token (significant spaced)

/-! ## Following causes -/

namespace EvalError

/-- What is found by asking an error for its cause, then the cause for its own, until there is
none. -/
inductive LeadsTo : EvalError → List EvalError → Prop where
  | last {e : EvalError} (h : e.cause? = none) : LeadsTo e []
  | step {e cause : EvalError} {causes : List EvalError} (h : e.cause? = some cause)
      (hcauses : LeadsTo cause causes) : LeadsTo e (cause :: causes)

/-- **The causes of an error are what it leads to,** and nothing else is. -/
theorem leadsTo_iff {e : EvalError} {causes : List EvalError} :
    e.LeadsTo causes ↔ causes = e.causes := by
  constructor
  · intro h
    induction h with
    | last h => rw [causes_eq, h]
    | @step e cause causes h _ ih => rw [causes_eq e, h, ih]
  · rintro rfl
    induction e with
    | unclosedParen opening cause ih => exact .step rfl ih
    | operand op pos cause ih => exact .step rfl ih
    | side side text cause ih => exact .step rfl ih
    | _ => exact .last rfl

end EvalError

namespace Command

variable {limits : Limits} {side : Side} {text : String}

/-! ## The trace of a side -/

/-- The line for a side with the tokens `ts` and the value `v`. -/
def sideLine (side : Side) (ts : List Token) (v : Rat) : String :=
  side.name ++ " : [" ++ spaced ts ++ "] = " ++ Canonical.render v

/-- The lines that a trace has for a side: one if the text has a value, and none if it has an
error. -/
inductive Shows (limits : Limits) (side : Side) (text : String) : List String → Prop where
  | value {ts : List Token} {v : Rat} (hts : significant text = .ok ts)
      (hvalue : Expression.evaluate limits text = .ok v) :
      Shows limits side text [sideLine side ts v]
  | failure {e : EvalError} (herror : Expression.evaluate limits text = .error e) :
      Shows limits side text []

theorem traceLine?_of_ok {ts : List Token} {v : Rat} (side : Side)
    (hts : significant text = .ok ts) (hvalue : Expression.evaluate limits text = .ok v) :
    traceLine? limits side text = some (sideLine side ts v) := by
  have hblank : Text.trim text.toList ≠ [] :=
    mt Text.trim_eq_nil_iff.1 (Expression.not_allBlank_of_evaluate hvalue)
  have htrace := Expression.trace_eq_ok_iff.2 ⟨hvalue, ts, hts, rfl⟩
  rw [traceLine?, if_neg hblank, htrace]
  rfl

theorem traceLine?_of_error {e : EvalError} (side : Side)
    (herror : Expression.evaluate limits text = .error e) : traceLine? limits side text = none := by
  rw [traceLine?, Expression.trace_eq_error_iff.2 herror]
  split <;> rfl

/-- **A side is traced if it has a value.** -/
theorem shows_traceLine? (limits : Limits) (side : Side) (text : String) :
    Shows limits side text (traceLine? limits side text).toList := by
  cases hvalue : Expression.evaluate limits text with
  | error e =>
      rw [traceLine?_of_error side hvalue]
      exact .failure hvalue
  | ok v =>
      obtain ⟨ts, hts⟩ := Expression.exists_significant_of_evaluate hvalue
      rw [traceLine?_of_ok side hts hvalue]
      exact .value hts hvalue

/-! ## Reports -/

/-- Lines are written one after the other. -/
theorem unlines_append (lines more : List String) :
    unlines (lines ++ more) = unlines lines ++ unlines more := by
  rw [unlines, List.map_append, String.join_append]
  rfl

namespace Invocation

variable {i : Invocation}

/-- The lines of a trace: those of the numerator, then those of the denominator. -/
inductive Traces (i : Invocation) : List String → Prop where
  | silent (h : i.traced = false) : Traces i []
  | traced {num den : List String} (h : i.traced = true)
      (hnum : Shows i.limits .numerator i.pair.numerator num)
      (hden : Shows i.limits .denominator i.pair.denominator den) : Traces i (num ++ den)

theorem traces_traceLines (i : Invocation) : i.Traces i.traceLines := by
  unfold traceLines
  cases htraced : i.traced with
  | false => exact .silent htraced
  | true => exact .traced htraced (shows_traceLine? _ _ _) (shows_traceLine? _ _ _)

theorem run_of_ok {r : Rat} (h : i.pair.evaluate i.limits = .ok r) :
    i.run = ⟨0, unlines (i.traceLines ++ [Canonical.render r]), ""⟩ := by
  rw [run, h]

theorem run_of_error {e : EvalError} (h : i.pair.evaluate i.limits = .error e) :
    i.run = ⟨1, unlines i.traceLines, unlines (errorLines e)⟩ := by
  rw [run, h]

/-- A run succeeds exactly if the pair has a value. -/
theorem exitCode_eq_zero_iff : i.run.exitCode = 0 ↔ ∃ r, i.pair.evaluate i.limits = .ok r := by
  cases h : i.pair.evaluate i.limits with
  | ok r => simp [run_of_ok h]
  | error e => simp [run_of_error h]

/-- **A trace is written before everything else,** and changes nothing of it. -/
theorem run_traced (i : Invocation) : ∃ shown,
    ({ i with traced := true } : Invocation).run =
      ⟨({ i with traced := false } : Invocation).run.exitCode,
        shown ++ ({ i with traced := false } : Invocation).run.stdout,
        ({ i with traced := false } : Invocation).run.stderr⟩ := by
  refine ⟨unlines ({ i with traced := true } : Invocation).traceLines, ?_⟩
  have hsilent : ({ i with traced := false } : Invocation).traceLines = [] := rfl
  cases h : i.pair.evaluate i.limits with
  | ok r =>
      have htraced := run_of_ok (i := { i with traced := true }) h
      have hplain := run_of_ok (i := { i with traced := false }) h
      rw [htraced, hplain, hsilent, unlines_append, List.nil_append]
  | error e =>
      have htraced := run_of_error (i := { i with traced := true }) h
      have hplain := run_of_error (i := { i with traced := false }) h
      rw [htraced, hplain, hsilent]
      simp [unlines]

/-- What a run writes that succeeds with the value `r` and has a trace: `r` is the quotient of the
values in the trace, or the only one if there is no denominator. -/
inductive ShowsQuotient (i : Invocation) (r : Rat) : Prop where
  | whole {ts : List Token} (hblank : AllBlank i.pair.denominator.toList)
      (hts : significant i.pair.numerator = .ok ts)
      (hnum : Expression.evaluate i.limits i.pair.numerator = .ok r)
      (hstdout : i.run.stdout = unlines [sideLine .numerator ts r, Canonical.render r])
  | quotient {ts ts' : List Token} {n d : Rat} (hblank : ¬ AllBlank i.pair.denominator.toList)
      (hts : significant i.pair.numerator = .ok ts)
      (hnum : Expression.evaluate i.limits i.pair.numerator = .ok n)
      (hts' : significant i.pair.denominator = .ok ts')
      (hden : Expression.evaluate i.limits i.pair.denominator = .ok d)
      (hstdout : i.run.stdout = unlines [sideLine .numerator ts n, sideLine .denominator ts' d,
        Canonical.render r])
      (hr : r * d = n)

/-- **A trace has the line of the numerator,** and that of the denominator unless this is blank. -/
theorem showsQuotient_of_evaluate {r : Rat} (htraced : i.traced = true)
    (h : i.pair.evaluate i.limits = .ok r) : i.ShowsQuotient r := by
  have hstdout : i.run.stdout = unlines ((traceLine? i.limits .numerator i.pair.numerator).toList ++
      (traceLine? i.limits .denominator i.pair.denominator).toList ++ [Canonical.render r]) := by
    rw [run_of_ok h, traceLines, if_pos htraced]
  cases Pair.evaluate_eq_iff.1 h with
  | whole hnum hblank =>
      obtain ⟨ts, hts⟩ := Expression.exists_significant_of_evaluate hnum
      have hden := Expression.evaluate_of_allBlank hblank i.limits
      rw [traceLine?_of_ok .numerator hts hnum, traceLine?_of_error .denominator hden] at hstdout
      exact .whole hblank hts hnum hstdout
  | quotient hnum hden hd hq =>
      obtain ⟨ts, hts⟩ := Expression.exists_significant_of_evaluate hnum
      obtain ⟨ts', hts'⟩ := Expression.exists_significant_of_evaluate hden
      have hblank := Expression.not_allBlank_of_evaluate hden
      rw [traceLine?_of_ok .numerator hts hnum, traceLine?_of_ok .denominator hts' hden] at hstdout
      exact .quotient hblank hts hnum hts' hden hstdout hq

/-- **What a run writes.** The lines of the trace come first, if there is to be one, and a line for
each side with a value is in it. Then comes the value of the pair, with the exit code 0 and no
errors; or the pair's error with all that it leads to, the outermost cause first, with the exit
code 1 and nothing more on the output. So a trace only adds to the front of the output; and if the
run succeeds, the values in the trace have the written one as their quotient. -/
theorem run_reports (i : Invocation) :
    (∃ lines, i.Traces lines ∧
      (∀ r, i.pair.evaluate i.limits = .ok r →
        i.run = ⟨0, unlines (lines ++ [Canonical.render r]), ""⟩) ∧
      ∀ e, i.pair.evaluate i.limits = .error e → ∃ causes, e.LeadsTo causes ∧
        i.run = ⟨1, unlines lines, unlines (("erreur : " ++ e.message) ::
          causes.map fun cause => "  cause : " ++ cause.message)⟩) ∧
    (∃ shown, ({ i with traced := true } : Invocation).run =
      ⟨({ i with traced := false } : Invocation).run.exitCode,
        shown ++ ({ i with traced := false } : Invocation).run.stdout,
        ({ i with traced := false } : Invocation).run.stderr⟩) ∧
    (i.traced = true → i.run.exitCode = 0 →
      ∃ r, i.pair.evaluate i.limits = .ok r ∧ i.ShowsQuotient r) := by
  refine ⟨⟨i.traceLines, i.traces_traceLines, fun r hr => run_of_ok hr, fun e he => ?_⟩,
    i.run_traced, fun htraced hexit => ?_⟩
  · exact ⟨e.causes, EvalError.leadsTo_iff.2 rfl, run_of_error he⟩
  · obtain ⟨r, hr⟩ := exitCode_eq_zero_iff.1 hexit
    exact ⟨r, hr, showsQuotient_of_evaluate htraced hr⟩

/-- A run with both sides in its trace. -/
theorem run_reports_traced :
    (⟨⟨"1+2", "2*3"⟩, {}, true⟩ : Invocation).run.exitCode = 0 ∧
      ∃ r, (⟨"1+2", "2*3"⟩ : Pair).evaluate {} = .ok r ∧
        (⟨⟨"1+2", "2*3"⟩, {}, true⟩ : Invocation).ShowsQuotient r := by
  have hexit : (⟨⟨"1+2", "2*3"⟩, {}, true⟩ : Invocation).run.exitCode = 0 := by decide +kernel
  exact ⟨hexit, (run_reports ⟨⟨"1+2", "2*3"⟩, {}, true⟩).2.2 rfl hexit⟩

/-- The pair fails in its numerator, and the trace shows the denominator. -/
example : (⟨⟨"1 +", "2/4"⟩, {}, true⟩ : Invocation).run =
    ⟨1, "dénominateur : [2 / 4] = 1/2\n",
      "erreur : évaluation du numérateur \"1 +\" impossible\n" ++
      "  cause : opérande droite de '+' invalide (position 2)\n" ++
      "  cause : fin d’entrée inattendue à la position 3 (attendu : un nombre ou '(')\n"⟩ := by
  decide +kernel

end Invocation

end Command

end RatExpr
