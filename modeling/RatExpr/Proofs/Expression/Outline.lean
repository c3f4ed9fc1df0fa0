import RatExpr.Pair
import RatExpr.Proofs.Grammar.Outline
import RatExpr.Proofs.Token.Place

set_option autoImplicit false

/-! # What the error of an evaluation looks like

Which errors a text and a pair of texts can be evaluated to. An error of a text is one of its
tokens, one of its blanks, or an error of reading (`Expression.error_cases`); its chain of causes
has a fixed form, is no longer than the limit on nesting allows, and goes on in the text
(`EvalError.Outlined`). A pair adds at most one context, the side. The main statement is
`Pair.error_outlined`.
-/

namespace RatExpr

/-- The errors that evaluating one text can come to, by themselves or as a cause. -/
def EvalError.IsOfText : EvalError → Prop
  | emptyNumerator | zeroDenominator | powerOverZero | side .. => False
  | _ => True

/-- The chain of causes of an error of a text: right operands, two for each nesting at most, then
the core, then, if the core is a parenthesis that is not closed, the token in the closing one's
place. Positions increase along the chain; it ends with the root, and has no errors in it but those
of a text. -/
structure EvalError.Outlined (limits : Limits) (e : EvalError) : Prop where
  layered : ∃ operands, e.Layered (2 * (limits.maxDepth + 1)) operands
  core_not_isOperand : ¬ e.core.IsOperand
  length_le : (e :: e.causes).length ≤ 2 * (limits.maxDepth + 1) + 2
  increasing : e.positions.Pairwise (· < ·)
  root_eq : e.root = (e :: e.causes).getLast (List.cons_ne_nil _ _)
  isOfText : ∀ c ∈ e :: e.causes, c.IsOfText

namespace EvalError

variable {limits : Limits} {e : EvalError}

theorem Concerns.isOfText {t : Token} (h : e.Concerns limits t) : e.IsOfText := by
  cases e with
  | emptyNumerator => exact h
  | zeroDenominator => exact h
  | powerOverZero => exact h
  | side side text cause => exact h
  | _ => trivial

/-- An error in layers is outlined if its positions increase. -/
theorem Layered.outlined {operands : List EvalError}
    (h : e.Layered (2 * (limits.maxDepth + 1)) operands) (hpositions : e.positions.Pairwise (· < ·))
    (htext : ∀ c ∈ e :: e.causes, c.IsOfText) : e.Outlined limits where
  layered := ⟨operands, h⟩
  core_not_isOperand := core_not_isOperand e
  length_le := h.length_chain_le
  increasing := hpositions
  root_eq := root_eq_getLast e
  isOfText := htext

/-- An error without a cause and without a context is outlined. -/
theorem outlined_of_causes_eq_nil (hcore : e.core = e) (hcauses : e.causes = [])
    (htext : e.IsOfText) : e.Outlined limits := by
  refine (layered_of_core_eq hcore (Or.inl hcauses)).outlined
    (pairwise_positions_of_causes_eq_nil hcauses) ?_
  rw [hcauses]
  exact List.forall_mem_singleton.2 htext

/-- Errors of reading are outlined, if the tokens are in order. -/
theorem About.outlined {endPos : Nat} {ts : List Token}
    (h : About ⟨limits, endPos⟩ (2 * (limits.maxDepth + 1)) ts e)
    (hord : (⟨limits, endPos⟩ : Context).Orders ts) : e.Outlined limits := by
  obtain ⟨operands, hlayered⟩ := h.exists_layered
  refine hlayered.outlined (h.pairwise_positions hord) fun c hc => ?_
  obtain ⟨t, -, hconcerns⟩ := h.pointsInto c hc
  exact hconcerns.isOfText

end EvalError

/-! ## Texts -/

/-- The tokens that an expression is read from are tokens of its text, in their order. -/
theorem Token.orders_of_significant {text : String} {ts : List Token}
    (h : significant text = .ok ts) (limits : Limits) :
    ts ⊆ all text ∧ (⟨limits, text.length⟩ : Context).Orders ts ∧
      Parser.endOf ts = text.length := by
  obtain ⟨-, hfilter⟩ := significant_eq_ok_iff.1 h
  obtain ⟨us, -, hus⟩ := significant_eq_ok_iff_cut.1 h
  have hsub : ts ⊆ all text := by
    rw [hfilter]
    exact List.filter_sublist.subset
  refine ⟨hsub, ⟨?_, fun t ht hkind => pos_lt_length (hsub ht) hkind⟩, ?_⟩
  · rw [hfilter]
    exact (pairwise_pos_all text).filter _
  · rw [hus, Parser.endOf, List.getLast?_concat]
    rfl

namespace Expression

open Token (all significant)

/-- **Why a text has no value.** It has an illegal token; or it is blank; or there is a token after
the expression; or the expression cannot be read or evaluated, which is about its tokens. -/
theorem error_cases {limits : Limits} {text : String} {e : EvalError}
    (h : evaluate limits text = .error e) :
    (∃ t ∈ all text, t.kind = .illegal ∧ e = .illegalToken t.text t.pos) ∨
      e = .emptyExpression text ∨
      (∃ t ∈ all text, t.kind ≠ .eof ∧ e = .trailingToken t) ∨
      ∃ ts, ts ⊆ all text ∧ (⟨limits, text.length⟩ : Context).Orders ts ∧
        EvalError.About ⟨limits, text.length⟩ (2 * (limits.maxDepth + 1)) ts e := by
  cases hsig : significant text with
  | error e' =>
      obtain ⟨before, t, after, hall, -, ht, rfl⟩ := Token.significant_eq_error_iff.1 hsig
      simp only [evaluate, tokens, hsig, Except.error.injEq] at h
      exact Or.inl ⟨t, by simp [hall], ht, h.symm⟩
  | ok ts =>
      obtain ⟨hsub, hord, hend⟩ := Token.orders_of_significant hsig limits
      simp only [evaluate, tokens, hsig] at h
      by_cases hblank : (ts.all fun t => t.kind == .eof) = true
      · simp only [hblank, if_true, Except.error.injEq] at h
        exact Or.inr (Or.inl h.symm)
      · simp only [hblank] at h
        rcases Parser.about_of_complete h with habout | ⟨t, ht, hkind, rfl⟩
        · rw [hend] at habout
          exact Or.inr (Or.inr (Or.inr ⟨ts, hsub, hord, habout⟩))
        · exact Or.inr (Or.inr (Or.inl ⟨t, hsub ht, hkind, rfl⟩))

/-- The error of a text is outlined. -/
theorem outlined_of_evaluate {limits : Limits} {text : String} {e : EvalError}
    (h : evaluate limits text = .error e) : e.Outlined limits := by
  rcases error_cases h with ⟨t, -, -, rfl⟩ | rfl | ⟨t, -, -, rfl⟩ | ⟨ts, -, hord, habout⟩
  · exact EvalError.outlined_of_causes_eq_nil rfl rfl trivial
  · exact EvalError.outlined_of_causes_eq_nil rfl rfl trivial
  · exact EvalError.outlined_of_causes_eq_nil rfl rfl trivial
  · exact habout.outlined hord

end Expression

/-! ## Pairs -/

namespace Pair

/-- The text of one side. -/
def text (p : Pair) : Side → String
  | .numerator => p.numerator
  | .denominator => p.denominator

/-- A side fails with the error of its text, which is named with it. -/
theorem evaluateSide_eq_error {limits : Limits} {side : Side} {text : String} {e : EvalError}
    (h : evaluateSide limits side text = .error e) :
    ∃ cause, Expression.evaluate limits text = .error cause ∧ e = .side side text cause := by
  cases hvalue : Expression.evaluate limits text with
  | ok v =>
      rw [evaluateSide, hvalue] at h
      exact nomatch h
  | error cause =>
      rw [evaluateSide, hvalue] at h
      exact ⟨cause, rfl, (Except.error.inj h).symm⟩

/-- **Why a pair has no value.** The numerator is blank, the denominator is zero, or one of the
sides has no value. -/
theorem error_cases {limits : Limits} {p : Pair} {e : EvalError}
    (h : p.evaluate limits = .error e) :
    e = .emptyNumerator ∨ e = .zeroDenominator ∨
      ∃ side cause, Expression.evaluate limits (p.text side) = .error cause ∧
        e = .side side (p.text side) cause := by
  unfold evaluate at h
  split at h
  · exact Or.inl (Except.error.inj h).symm
  split at h
  · rename_i e' hnum
    obtain ⟨cause, hcause, rfl⟩ := evaluateSide_eq_error hnum
    exact Or.inr (Or.inr ⟨.numerator, cause, hcause, (Except.error.inj h).symm⟩)
  split at h
  · exact absurd h (by simp)
  split at h
  · rename_i e' hden
    obtain ⟨cause, hcause, rfl⟩ := evaluateSide_eq_error hden
    exact Or.inr (Or.inr ⟨.denominator, cause, hcause, (Except.error.inj h).symm⟩)
  split at h
  · exact Or.inr (Or.inl (Except.error.inj h).symm)
  · exact absurd h (by simp)

/-- **What errors look like.** The chain of causes of a text's error consists of right operands, two
for each nesting at most, and of the core, which may be a parenthesis that is not closed with the
token in its place. It goes on in the text, and holds only errors of a text. The error of a pair is
that of a blank numerator, that of a zero denominator, or that of a side, which has the error of
its text as its cause and the same core and root. -/
theorem error_outlined (limits : Limits) :
    (∀ text e, Expression.evaluate limits text = .error e → e.Outlined limits) ∧
    ∀ (p : Pair) e, p.evaluate limits = .error e →
      e = .emptyNumerator ∨ e = .zeroDenominator ∨
      ∃ side cause, e = .side side (p.text side) cause ∧
        Expression.evaluate limits (p.text side) = .error cause ∧ cause.Outlined limits ∧
        e.core = cause.core ∧ e.root = cause.root := by
  refine ⟨fun text e h => Expression.outlined_of_evaluate h, fun p e h => ?_⟩
  rcases error_cases h with hblank | hzero | ⟨side, cause, hcause, rfl⟩
  · exact Or.inl hblank
  · exact Or.inr (Or.inl hzero)
  · exact Or.inr (Or.inr ⟨side, cause, rfl, hcause, Expression.outlined_of_evaluate hcause,
      rfl, rfl⟩)

end Pair

end RatExpr
