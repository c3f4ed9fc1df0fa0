import Mathlib.Data.List.Basic
import RatExpr.Pair
import RatExpr.Proofs.Expression.Chain
import RatExpr.Proofs.Expression.RoundTrip
import RatExpr.Proofs.Expression.Spacing

set_option autoImplicit false

/-! # Pairs as quotients

What a pair comes to, said without the shortcut for a denominator that is just `1`: evaluating that
denominator and dividing by it comes to the same (`Pair.evaluate_eq_iff`). And what one expression
comes to that has both sides in parentheses, with the operator of division between them
(`Pair.evaluate_asExpression`). The main statement is `Pair.evaluate_quotient`.
-/

namespace RatExpr

open Text (AllBlank trim)
open Token (significant Word)

/-! ## The text of one -/

namespace Expression

/-- One is worth one, without any room for nesting, and blanks around it do not matter. -/
theorem evaluate_of_trim_eq_one {text : String} (h : trim text.toList = ['1']) (limits : Limits) :
    evaluate limits text = .ok 1 := by
  obtain ⟨lead, gap, hlead, hgap, htext⟩ := Text.exists_eq_trim text.toList
  have hone : evaluate limits "1" = .ok 1 := by
    have hrender : Canonical.render 1 = "1" := by decide
    rw [← hrender]
    exact Canonical.evaluate_render_of_room (Or.inr (by decide))
  have hts : significant "1" = .ok [⟨.number, "1", 0⟩, .endAt 1] := by decide +kernel
  have hwords : [(⟨⟨.number, "1", 0⟩, String.ofList gap⟩ : Word)].map Word.token =
      [(⟨.number, "1", 0⟩ : Token), .endAt 1].filter fun t => t.kind != .eof := rfl
  have hlead' : AllBlank (String.ofList lead).toList := by rwa [String.toList_ofList]
  have hgap' : AllBlank (String.ofList gap).toList := by rwa [String.toList_ofList]
  have hapart : Word.Apart [⟨⟨.number, "1", 0⟩, String.ofList gap⟩] :=
    ⟨List.forall_mem_singleton.2 hgap', by simp⟩
  have hspread : String.ofList lead ++ Word.spread [⟨⟨.number, "1", 0⟩, String.ofList gap⟩] =
      text := by
    rw [← String.toList_inj, htext, h]
    simp [Word.spread]
  have hrespaced := significant_respaced hts hwords hlead' hapart
  rw [hspread] at hrespaced
  exact (evaluate_eq_ok_congr hts hrespaced (map_content_respaced hts hwords _ _) limits).2 hone

end Expression

namespace Pair

variable {limits : Limits} {p : Pair}

/-- A side is worth what its text is worth. -/
theorem evaluateSide_of_ok {text : String} {v : Rat} (side : Side)
    (h : Expression.evaluate limits text = .ok v) : evaluateSide limits side text = .ok v := by
  rw [evaluateSide, h]
  rfl

/-- The error of a side names it, with its text. -/
theorem evaluateSide_of_error {text : String} {e : EvalError} (side : Side)
    (h : Expression.evaluate limits text = .error e) :
    evaluateSide limits side text = .error (.side side text e) := by
  rw [evaluateSide, h]
  rfl

/-! ## What a pair comes to -/

/-- What the evaluation of a pair comes to. No denominator is special unless it is blank. -/
inductive ComesTo (limits : Limits) (p : Pair) : Except EvalError Rat → Prop where
  | emptyNumerator (hblank : AllBlank p.numerator.toList) :
      ComesTo limits p (.error .emptyNumerator)
  | numerator {e : EvalError} (hblank : ¬ AllBlank p.numerator.toList)
      (hnum : Expression.evaluate limits p.numerator = .error e) :
      ComesTo limits p (.error (.side .numerator p.numerator e))
  | whole {n : Rat} (hnum : Expression.evaluate limits p.numerator = .ok n)
      (hblank : AllBlank p.denominator.toList) : ComesTo limits p (.ok n)
  | denominator {n : Rat} {e : EvalError} (hnum : Expression.evaluate limits p.numerator = .ok n)
      (hblank : ¬ AllBlank p.denominator.toList)
      (hden : Expression.evaluate limits p.denominator = .error e) :
      ComesTo limits p (.error (.side .denominator p.denominator e))
  | zeroDenominator {n : Rat} (hnum : Expression.evaluate limits p.numerator = .ok n)
      (hden : Expression.evaluate limits p.denominator = .ok 0) :
      ComesTo limits p (.error .zeroDenominator)
  | quotient {n d q : Rat} (hnum : Expression.evaluate limits p.numerator = .ok n)
      (hden : Expression.evaluate limits p.denominator = .ok d) (hd : d ≠ 0) (hq : q * d = n) :
      ComesTo limits p (.ok q)

/-- Every pair comes to something. -/
theorem exists_comesTo (limits : Limits) (p : Pair) : ∃ outcome, p.ComesTo limits outcome := by
  by_cases hnumBlank : AllBlank p.numerator.toList
  · exact ⟨_, .emptyNumerator hnumBlank⟩
  cases hnum : Expression.evaluate limits p.numerator with
  | error e => exact ⟨_, .numerator hnumBlank hnum⟩
  | ok n =>
      by_cases hdenBlank : AllBlank p.denominator.toList
      · exact ⟨_, .whole hnum hdenBlank⟩
      cases hden : Expression.evaluate limits p.denominator with
      | error e => exact ⟨_, .denominator hnum hdenBlank hden⟩
      | ok d =>
          by_cases hd : d = 0
          · exact ⟨_, .zeroDenominator hnum (hd ▸ hden)⟩
          · exact ⟨_, .quotient hnum hden hd (Rat.div_mul_cancel hd)⟩

/-- The denominators without a division are blank, or just one. -/
theorem isWhole_iff :
    p.isWhole = true ↔ AllBlank p.denominator.toList ∨ trim p.denominator.toList = ['1'] := by
  rw [isWhole, Bool.or_eq_true, beq_iff_eq, beq_iff_eq, Text.trim_eq_nil_iff]

/-- A numerator with a value leaves the pair to the denominator. -/
theorem evaluate_of_numerator {n : Rat} (hnum : Expression.evaluate limits p.numerator = .ok n) :
    p.evaluate limits = if p.isWhole then .ok n else
      (evaluateSide limits .denominator p.denominator).bind fun d =>
        if d = 0 then .error .zeroDenominator else .ok (n / d) := by
  have hblank : trim p.numerator.toList ≠ [] :=
    mt Text.trim_eq_nil_iff.1 (Expression.not_allBlank_of_evaluate hnum)
  rw [evaluate, if_neg hblank, evaluateSide_of_ok .numerator hnum]
  cases evaluateSide limits .denominator p.denominator with
  | error e => rfl
  | ok d => rfl

/-- A denominator with a value divides, also where the pair does not evaluate it. -/
theorem evaluate_of_values {n d : Rat} (hnum : Expression.evaluate limits p.numerator = .ok n)
    (hden : Expression.evaluate limits p.denominator = .ok d) :
    p.evaluate limits = if d = 0 then .error .zeroDenominator else .ok (n / d) := by
  rw [evaluate_of_numerator hnum]
  by_cases hwhole : p.isWhole = true
  · rcases isWhole_iff.1 hwhole with hblank | hone
    · exact absurd hblank (Expression.not_allBlank_of_evaluate hden)
    · -- the shortcut: the denominator is not evaluated, but it would be one
      obtain rfl : 1 = d := Except.ok.inj
        ((Expression.evaluate_of_trim_eq_one hone limits).symm.trans hden)
      have hdiv : n / 1 = n := by rw [← Rat.mul_one (n / 1), Rat.div_mul_cancel (by decide)]
      rw [if_pos hwhole, if_neg (by decide), hdiv]
  · rw [if_neg hwhole, evaluateSide_of_ok .denominator hden]
    rfl

/-- The evaluation comes to nothing else. -/
theorem ComesTo.evaluate_eq {outcome : Except EvalError Rat} (h : p.ComesTo limits outcome) :
    p.evaluate limits = outcome := by
  cases h with
  | emptyNumerator hblank => rw [evaluate, if_pos (Text.trim_eq_nil_iff.2 hblank)]
  | numerator hblank hnum =>
      rw [evaluate, if_neg (mt Text.trim_eq_nil_iff.1 hblank),
        evaluateSide_of_error .numerator hnum]
  | whole hnum hblank => rw [evaluate_of_numerator hnum, if_pos (isWhole_iff.2 (Or.inl hblank))]
  | denominator hnum hblank hden =>
      have hwhole : ¬ p.isWhole = true := by
        intro hwhole
        rcases isWhole_iff.1 hwhole with hblank' | hone
        · exact hblank hblank'
        · rw [Expression.evaluate_of_trim_eq_one hone] at hden
          exact nomatch hden
      rw [evaluate_of_numerator hnum, if_neg hwhole, evaluateSide_of_error .denominator hden]
      rfl
  | zeroDenominator hnum hden => rw [evaluate_of_values hnum hden, if_pos rfl]
  | quotient hnum hden hd hq =>
      rw [evaluate_of_values hnum hden, if_neg hd, ← hq, Rat.mul_div_cancel hd]

/-- **The value or the error of a pair is what the pair comes to.** -/
theorem evaluate_eq_iff {outcome : Except EvalError Rat} :
    p.evaluate limits = outcome ↔ p.ComesTo limits outcome := by
  constructor
  · rintro rfl
    obtain ⟨outcome, h⟩ := exists_comesTo limits p
    rw [h.evaluate_eq]
    exact h
  · exact ComesTo.evaluate_eq

/-! ## One expression for a pair -/

/-- The text of the quotient: both sides in parentheses. -/
def asExpression (p : Pair) : String := "(" ++ p.numerator ++ ")/(" ++ p.denominator ++ ")"

/-- The quotient is a chain with one operator. -/
theorem asExpression_eq (p : Pair) (d : Rat) :
    p.asExpression = Chain.text p.numerator [⟨.div, p.denominator, d⟩] := by
  rw [← String.toList_inj]
  simp [asExpression, Chain.text, Chain.tail, BinaryOp.symbol]

/-- **The text of the quotient is worth the quotient,** with one more level for the parentheses. -/
theorem evaluate_asExpression {n d : Rat}
    (hnum : Expression.evaluate limits p.numerator = .ok n)
    (hden : Expression.evaluate limits p.denominator = .ok d) :
    Expression.evaluate (limits.deeper 1) p.asExpression =
      if d = 0 then .error (.divisionByZero (p.numerator.length + 2)) else .ok (n / d) := by
  have hops : ∀ l ∈ [(⟨.div, p.denominator, d⟩ : Link)],
      Level.terms.operator? l.op.kind = some l.op := List.forall_mem_singleton.2 rfl
  have hlinks : ∀ l ∈ [(⟨.div, p.denominator, d⟩ : Link)],
      Expression.evaluate limits l.text = .ok l.value := List.forall_mem_singleton.2 hden
  rw [p.asExpression_eq d, Chain.evaluate_text_of_loop Level.terms hnum hops hlinks, Chain.fromLeft]
  by_cases hd : d = 0
  · simp [BinaryOp.apply, hd, Except.bind]
  · simp [BinaryOp.apply, hd, Except.bind, Chain.fromLeft]

/-- **A pair is the quotient of its sides.** It comes to an error or a value as `ComesTo` says: the
numerator first, the denominator unless it is blank, then the exact quotient. If both sides have a
value, then one expression that divides them, under limits with one more level of nesting, has the
value of the pair, or divides by zero at its operator where the pair has a zero denominator. -/
theorem evaluate_quotient (limits : Limits) (p : Pair) :
    (∀ outcome, p.evaluate limits = outcome ↔ p.ComesTo limits outcome) ∧
    ∀ n d, Expression.evaluate limits p.numerator = .ok n →
      Expression.evaluate limits p.denominator = .ok d →
      (∀ q, Expression.evaluate (limits.deeper 1) p.asExpression = .ok q ↔
        p.evaluate limits = .ok q) ∧
      (Expression.evaluate (limits.deeper 1) p.asExpression =
        .error (.divisionByZero (p.numerator.length + 2)) ↔
        p.evaluate limits = .error .zeroDenominator) ∧
      ((∃ q, p.evaluate limits = .ok q) ∨ p.evaluate limits = .error .zeroDenominator) := by
  refine ⟨fun outcome => evaluate_eq_iff, fun n d hnum hden => ?_⟩
  rw [evaluate_asExpression hnum hden, evaluate_of_values hnum hden]
  by_cases hd : d = 0
  · simp [hd]
  · simp [hd]

/-- Both sides have a value without any room for nesting, and the denominator is zero. -/
theorem evaluate_quotient_by_zero :
    Expression.evaluate ⟨0, 0⟩ "2*3" = .ok 6 ∧ Expression.evaluate ⟨0, 0⟩ " 4-4" = .ok 0 ∧
      (⟨"2*3", " 4-4"⟩ : Pair).evaluate ⟨0, 0⟩ = .error .zeroDenominator ∧
      Expression.evaluate ⟨1, 0⟩ "(2*3)/( 4-4)" = .error (.divisionByZero 5) := by
  have hnum : Expression.evaluate ⟨0, 0⟩ "2*3" = .ok 6 := by decide +kernel
  have hden : Expression.evaluate ⟨0, 0⟩ " 4-4" = .ok 0 := by decide +kernel
  have hpair : (⟨"2*3", " 4-4"⟩ : Pair).evaluate ⟨0, 0⟩ = .error .zeroDenominator := by
    decide +kernel
  have hquotient := (evaluate_quotient ⟨0, 0⟩ ⟨"2*3", " 4-4"⟩).2 6 0 hnum hden
  exact ⟨hnum, hden, hpair, hquotient.2.1.2 hpair⟩

example : (⟨"2*3", "\u00a01 "⟩ : Pair).evaluate ⟨0, 0⟩ = .ok 6 := by decide +kernel

end Pair

end RatExpr
