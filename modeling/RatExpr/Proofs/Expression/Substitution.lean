import Mathlib.Data.List.Basic
import RatExpr.Proofs.Expression.Derivation
import RatExpr.Proofs.Grammar.Exchange

set_option autoImplicit false

/-! # Expressions in parentheses can be exchanged

An expression in parentheses counts for its value only: another expression of the same value
can stand in its place, whatever text is around the parentheses
(`Expression.evaluate_exchange`). The texts around them need not be expressions, so they have
no derivation of their own. It is the derivation of the whole text that is taken apart.
-/

namespace RatExpr.Expression

theorem toList_parentheses (pre inside post : String) :
    (pre ++ "(" ++ inside ++ ")" ++ post).toList =
      pre.toList ++ '(' :: (inside.toList ++ ')' :: post.toList) := by
  simp [String.toList_append]

/-- **What stands in parentheses counts for its value only.** If `a` and `b` are worth the same
and a text with `a` in parentheses has a value, the text with `b` there has that value too. As
`b` may need more nesting than `a`, twice as much is allowed for it. -/
theorem evaluate_exchange {limits limits' : Limits} {pre post a b : String} {v w : Rat}
    (ha : evaluate limits a = .ok v) (hb : evaluate limits b = .ok v)
    (hw : evaluate limits (pre ++ "(" ++ a ++ ")" ++ post) = .ok w)
    (hexponent : limits'.maxExponent = limits.maxExponent)
    (hdepth : 2 * limits.maxDepth ≤ limits'.maxDepth) :
    evaluate limits' (pre ++ "(" ++ b ++ ")" ++ post) = .ok w := by
  have hle : limits ≤ limits' := ⟨by omega, by omega⟩
  obtain ⟨treeA, hcutA, hvalueA⟩ := evaluate_eq_ok_iff.1 ha
  obtain ⟨treeB, hcutB, hvalueB⟩ := evaluate_eq_ok_iff.1 hb
  obtain ⟨tree, hcut, hvalue⟩ := evaluate_eq_ok_iff.1 hw
  rw [toList_parentheses, Token.cut_parentheses] at hcut
  obtain ⟨us, vs, ws, hus, hvs, hws, htokens⟩ := hcut
  -- in the whole text, the tokens of `a` stand elsewhere
  obtain ⟨inside, rfl, hinside⟩ := Tree.exists_moved_of_cut hcutA hvs
  have hkeeps : Tree.Keeps limits limits' limits.maxDepth inside treeB := by
    intro room v' hv'
    have hv : v = v' := by
      have hmoved := hinside limits limits 0 (Limits.le_refl limits) _ v hvalueA
      exact Tree.value_unique hmoved hv'
    rw [← hv, Nat.add_comm]
    exact Tree.Keeps.refl hle treeB _ v hvalueB
  obtain ⟨tree', htokens', htree'⟩ := tree.exists_exchanged rfl rfl inside treeB htokens
  have hvalue' := htree' limits limits' _ hle hkeeps _ w hvalue
  -- these are the tokens of the text with `b`, but for their positions
  obtain ⟨bs, hbs, hbs_content⟩ := hcutB.exists_at (0 + pre.toList.length + 1)
  obtain ⟨xs, hxs, hxs_content⟩ := hws.exists_at (0 + pre.toList.length + 1 + b.toList.length + 1)
  have hcut' := Token.cut_parentheses.2 ⟨us, bs, xs, hus, hbs, hxs, rfl⟩
  rw [← toList_parentheses] at hcut'
  have hcontent : (us ++ ⟨.leftParen, "(", 0 + pre.toList.length⟩ :: (bs ++
      ⟨.rightParen, ")", 0 + pre.toList.length + 1 + b.toList.length⟩ :: xs)).map Token.content =
        tree'.tokens.map Token.content := by
    simp only [htokens', List.map_append, List.map_cons, hbs_content, hxs_content]
    rfl
  obtain ⟨moved, hmoved, hkeeps'⟩ := tree'.exists_moved hcontent
  rw [← hmoved] at hcut'
  have hroom : limits.maxDepth + limits.maxDepth +
      (limits'.maxDepth - 2 * limits.maxDepth) = limits'.maxDepth := by omega
  rw [evaluate_of_cut limits' hcut', ← hroom]
  exact hkeeps' limits' limits' _ (Limits.le_refl limits') _ w hvalue'

/-- All the nesting that is allowed is needed here, and neither side of the parentheses is an
expression. -/
theorem evaluate_exchange_nested :
    evaluate ⟨2, 10⟩ "3" = .ok 3 ∧ evaluate ⟨2, 10⟩ "((3))" = .ok 3 ∧
      evaluate ⟨2, 10⟩ ("2*(1+" ++ "(" ++ "3" ++ ")" ++ ")**2") = .ok 32 ∧
      (2 * 2 ≤ 4 ∧ evaluate ⟨4, 10⟩ ("2*(1+" ++ "(" ++ "((3))" ++ ")" ++ ")**2") = .ok 32) := by
  have ha : evaluate ⟨2, 10⟩ "3" = .ok 3 := by decide +kernel
  have hb : evaluate ⟨2, 10⟩ "((3))" = .ok 3 := by decide +kernel
  have hw : evaluate ⟨2, 10⟩ ("2*(1+" ++ "(" ++ "3" ++ ")" ++ ")**2") = .ok 32 := by decide +kernel
  exact ⟨ha, hb, hw, by decide, evaluate_exchange ha hb hw rfl (by decide)⟩

end RatExpr.Expression
