import RatExpr.Error
import RatExpr.Token.Scanner

set_option autoImplicit false

/-! # Significant tokens

The tokens that an expression is read from: all tokens of its text but the blanks, the end
included. A text with an illegal piece has none; the first such piece is the error.
-/

namespace RatExpr.Token

/-- The tokens of a text without the blanks, or its first illegal piece. -/
def significant (text : String) : Except EvalError (List Token) :=
  match (all text).find? fun t => t.kind == .illegal with
  | some t => .error (.illegalToken t.text t.pos)
  | none => .ok ((all text).filter fun t => t.kind != .space)

/-- The tokens are given exactly of the texts without an illegal piece. -/
theorem significant_eq_ok_iff {text : String} {ts : List Token} :
    significant text = .ok ts ↔
      (∀ t ∈ all text, t.kind ≠ .illegal) ∧
        ts = (all text).filter fun t => t.kind != .space := by
  unfold significant
  cases h : (all text).find? fun t => t.kind == .illegal with
  | some t =>
      have hmem := List.mem_of_find?_eq_some h
      have hill := List.find?_some h
      simp only [beq_iff_eq] at hill
      simp only [reduceCtorEq, false_iff, not_and]
      exact fun hall => absurd hill (hall t hmem)
  | none =>
      simp only [List.find?_eq_none, beq_iff_eq] at h
      simp only [Except.ok.injEq]
      exact ⟨fun hts => ⟨h, hts.symm⟩, fun hts => hts.2.symm⟩

/-- A text has no significant tokens because of its first illegal token. -/
theorem significant_eq_error_iff {text : String} {e : EvalError} :
    significant text = .error e ↔
      ∃ before t after, all text = before ++ t :: after ∧ (∀ u ∈ before, u.kind ≠ .illegal) ∧
        t.kind = .illegal ∧ e = .illegalToken t.text t.pos := by
  unfold significant
  cases h : (all text).find? fun t => t.kind == .illegal with
  | some t =>
      obtain ⟨ht, before, after, hall, hbefore⟩ := List.find?_eq_some_iff_append.1 h
      simp only [Except.error.injEq]
      constructor
      · rintro rfl
        exact ⟨before, t, after, hall, by simpa using hbefore, by simpa using ht, rfl⟩
      · rintro ⟨before', t', after', hall', hbefore', ht', rfl⟩
        have hfind : (all text).find? (fun t => t.kind == .illegal) = some t' :=
          List.find?_eq_some_iff_append.2
            ⟨by simpa using ht', before', after', hall', by simpa using hbefore'⟩
        obtain rfl := Option.some.inj (h.symm.trans hfind)
        rfl
  | none =>
      simp only [reduceCtorEq, false_iff]
      rintro ⟨before, t, after, hall, -, ht, -⟩
      exact List.find?_eq_none.1 h t (by simp [hall]) (by simpa using ht)

end RatExpr.Token
