import RatExpr.Proofs.Command.Run
import RatExpr.Proofs.Expression.Outline

set_option autoImplicit false

/-! # Blank texts

Whether there is anything in a text to evaluate is asked in three places, and each asks in its own
way: a pair and a trace trim their texts, the scanner takes blanks together and leaves them out, and
an evaluation looks whether a token besides the end is left. The answers are the same
(`Expression.evaluate_eq_emptyExpression_iff`, `Token.significant_eq_end_iff`). So the error for a
blank expression is never part of the error of a pair: a blank numerator has an error of its own,
and a blank denominator is no error. The main statement is `Command.Invocation.blank_tests_agree`.
-/

namespace RatExpr

open Text (AllBlank isBlank trim)
open Token (significant)

/-! ## Tokens of blank texts -/

namespace Token

/-- The characters of a blank token or of the end are blank. -/
theorem allBlank_of_spells {kind : Kind} {cs : List Char} (h : kind.Spells cs)
    (hkind : kind = .space ∨ kind = .eof) : AllBlank cs := by
  rcases hkind with rfl | rfl
  · exact h
  · rw [show cs = [] from h]
    exact Text.allBlank_nil

/-- A text with no tokens but ends is blank. -/
theorem allBlank_of_significant {text : String} {ts : List Token} (h : significant text = .ok ts)
    (hts : ∀ t ∈ ts, t.kind = .eof) : AllBlank text.toList := by
  obtain ⟨-, hfilter⟩ := significant_eq_ok_iff.1 h
  have htiles : Tiles 0 text.toList (all text) := tiles_toList 0 text.toList
  intro c hc
  rw [← htiles.written_eq] at hc
  obtain ⟨t, ht, hct⟩ := List.mem_flatMap.1 hc
  -- a token that is left out is a blank, and the others are ends
  have hkind : t.kind = .space ∨ t.kind = .eof := by
    by_cases hspace : t.kind = .space
    · exact Or.inl hspace
    · refine Or.inr (hts t ?_)
      rw [hfilter]
      exact List.mem_filter.2 ⟨ht, by simpa using hspace⟩
  exact allBlank_of_spells (htiles.spells t ht) hkind c hct

/-- **The blank texts are those with no token but the end.** -/
theorem significant_eq_end_iff {text : String} :
    (∃ fin : Token, significant text = .ok [fin] ∧ fin.kind = .eof) ↔ AllBlank text.toList := by
  constructor
  · rintro ⟨fin, hts, hfin⟩
    exact allBlank_of_significant hts (List.forall_mem_singleton.2 hfin)
  · intro hblank
    exact ⟨_, significant_of_allBlank hblank, rfl⟩

end Token

/-! ## Errors of blank texts -/

namespace Expression

variable {limits : Limits} {text blank : String} {e : EvalError}

/-- The error for a blank expression is never the cause of another, and it stands for a blank
text. -/
theorem allBlank_of_emptyExpression_mem (h : evaluate limits text = .error e)
    (hmem : .emptyExpression blank ∈ e :: e.causes) : AllBlank text.toList := by
  cases hts : significant text with
  | error e' =>
      obtain ⟨-, t, -, -, -, -, rfl⟩ := Token.significant_eq_error_iff.1 hts
      simp only [evaluate, tokens, hts, Except.error.injEq] at h
      subst h
      exact absurd (List.mem_singleton.1 hmem) (by simp)
  | ok ts =>
      simp only [evaluate, tokens, hts] at h
      by_cases hall : (ts.all fun t => t.kind == .eof) = true
      · refine Token.allBlank_of_significant hts fun t ht => ?_
        simpa using List.all_eq_true.1 hall t ht
      · -- what reading fails with is about a token, and no token is the reason for this error
        simp only [hall] at h
        rcases Parser.about_of_complete h with habout | ⟨t, -, -, rfl⟩
        · obtain ⟨t, -, hconcerns⟩ := habout.pointsInto _ hmem
          exact absurd hconcerns id
        · exact absurd (List.mem_singleton.1 hmem) (by simp)

/-- **An evaluation finds a text empty if the text is blank.** -/
theorem evaluate_eq_emptyExpression_iff :
    evaluate limits text = .error (.emptyExpression text) ↔ AllBlank text.toList :=
  ⟨fun h => allBlank_of_emptyExpression_mem h List.mem_cons_self,
    fun h => evaluate_of_allBlank h limits⟩

end Expression

namespace Pair

variable {limits : Limits} {p : Pair} {e : EvalError}

/-- **A pair never reports a blank expression,** not even as a cause. -/
theorem emptyExpression_not_mem (h : p.evaluate limits = .error e) (blank : String) :
    .emptyExpression blank ∉ e :: e.causes := by
  -- a side is evaluated only if it is not blank
  have hside : ∀ {side : Side} {text : String} {cause : EvalError}, ¬ AllBlank text.toList →
      Expression.evaluate limits text = .error cause →
      .emptyExpression blank ∉ EvalError.side side text cause :: cause :: cause.causes := by
    intro side text cause hblank hcause hmem
    rcases List.mem_cons.1 hmem with heq | hmem
    · exact absurd heq (by simp)
    · exact hblank (Expression.allBlank_of_emptyExpression_mem hcause hmem)
  cases evaluate_eq_iff.1 h with
  | emptyNumerator hblank => simp [EvalError.causes]
  | numerator hblank hnum => exact hside hblank hnum
  | denominator hnum hblank hden => exact hside hblank hden
  | zeroDenominator hnum hden => simp [EvalError.causes]

/-- A pair has an empty numerator if its numerator is blank. -/
theorem evaluate_eq_emptyNumerator_iff :
    p.evaluate limits = .error .emptyNumerator ↔ AllBlank p.numerator.toList := by
  constructor
  · intro h
    cases evaluate_eq_iff.1 h with
    | emptyNumerator hblank => exact hblank
  · exact fun hblank => evaluate_eq_iff.2 (.emptyNumerator hblank)

end Pair

/-! ## The command -/

namespace Command

/-- **A side is left out of a trace if there is nothing to show:** that a blank side is not traced
makes no difference. -/
theorem traceLine?_eq_none_iff {limits : Limits} {side : Side} {text : String} :
    traceLine? limits side text = none ↔ ∃ e, Expression.trace limits text = .error e := by
  constructor
  · intro h
    cases hvalue : Expression.evaluate limits text with
    | error e => exact ⟨e, Expression.trace_eq_error_iff.2 hvalue⟩
    | ok v =>
        obtain ⟨ts, hts⟩ := Expression.exists_significant_of_evaluate hvalue
        rw [traceLine?_of_ok side hts hvalue] at h
        exact nomatch h
  · rintro ⟨e, he⟩
    exact traceLine?_of_error side (Expression.trace_eq_error_iff.1 he)

/-- **What is blank is told in one way.** A text is trimmed to nothing if it has no token but the
end, and if its evaluation says that it is empty. A pair, or a command line, never says that of one
of its sides, however deep one looks into the causes of its error; it says that the numerator is
empty if the evaluation of the numerator alone would say so. And a trace leaves out the sides that
have none, so that a blank one, which has none either, need not have been looked at. -/
theorem Invocation.blank_tests_agree (limits : Limits) :
    (∀ text : String,
      (trim text.toList = [] ↔ ∃ fin : Token, significant text = .ok [fin] ∧ fin.kind = .eof) ∧
      (trim text.toList = [] ↔
        Expression.evaluate limits text = .error (.emptyExpression text))) ∧
    (∀ (p : Pair) e, p.evaluate limits = .error e →
      ∀ blank, .emptyExpression blank ∉ e :: e.causes) ∧
    (∀ p : Pair, p.evaluate limits = .error .emptyNumerator ↔
      Expression.evaluate limits p.numerator = .error (.emptyExpression p.numerator)) ∧
    (∀ side text, (traceLine? limits side text = none ↔
        ∃ e, Expression.trace limits text = .error e) ∧
      (trim text.toList = [] →
        Expression.trace limits text = .error (.emptyExpression text))) ∧
    ∀ i : Invocation, i.run.exitCode = 0 ∧ i.run.stderr = "" ∨
      ∃ e, i.run.stderr = unlines (errorLines e) ∧
        (∀ blank, .emptyExpression blank ∉ e :: e.causes) ∧
        (e = .emptyNumerator ↔ Expression.evaluate i.limits i.pair.numerator =
          .error (.emptyExpression i.pair.numerator)) := by
  have hempty (limits : Limits) (text : String) : trim text.toList = [] ↔
      Expression.evaluate limits text = .error (.emptyExpression text) :=
    Text.trim_eq_nil_iff.trans Expression.evaluate_eq_emptyExpression_iff.symm
  have hnumerator (limits : Limits) (p : Pair) : p.evaluate limits = .error .emptyNumerator ↔
      Expression.evaluate limits p.numerator = .error (.emptyExpression p.numerator) :=
    Pair.evaluate_eq_emptyNumerator_iff.trans Expression.evaluate_eq_emptyExpression_iff.symm
  refine ⟨fun text => ⟨?_, hempty limits text⟩, fun p e h => Pair.emptyExpression_not_mem h,
    hnumerator limits, fun side text => ⟨traceLine?_eq_none_iff, fun htrim => ?_⟩, fun i => ?_⟩
  · exact Text.trim_eq_nil_iff.trans Token.significant_eq_end_iff.symm
  · exact Expression.trace_eq_error_iff.2 ((hempty limits text).1 htrim)
  · cases h : i.pair.evaluate i.limits with
    | ok r => exact Or.inl (by simp [run_of_ok h])
    | error e =>
        refine Or.inr ⟨e, by rw [run_of_error h], Pair.emptyExpression_not_mem h, ?_⟩
        rw [← hnumerator, h, Except.error.injEq]

/-- The zero width space is no blank, although nothing is seen of it. -/
example : Expression.evaluate {} "\u200b" = .error (.illegalToken "\u200b" 0) := by
  decide +kernel

end Command

end RatExpr
