import Mathlib.Data.List.Basic
import RatExpr.Proofs.Expression.Outline

set_option autoImplicit false

/-! # Errors point at what they name

An error that a text is evaluated to gives positions in the text, and so do its causes. At each of
them stands what the error speaks of (`EvalError.FaithfulTo`): the operator whose operand is at
fault, the parenthesis that is not closed, the token that is not expected. Each of these is a token
of the text that starts at the position, and the text has there the characters of the token
(`Token.IsAt.text_prefix`). The main statement is `Expression.error_faithful`.
-/

namespace RatExpr

/-! ## Tokens of one kind -/

namespace Token

variable {text : String} {pos : Nat} {t : Token}

theorem IsAt.mem (h : IsAt text pos t) : t ∈ all text := ((h t).2 rfl).1

theorem IsAt.pos_eq (h : IsAt text pos t) : t.pos = pos := ((h t).2 rfl).2

/-- The text has the characters of the token at its position. -/
theorem IsAt.text_prefix (h : IsAt text pos t) : t.text.toList <+: text.toList.drop pos := by
  rw [← h.pos_eq]
  exact text_prefix_drop_pos h.mem

/-- A token of one character is that character of the text. -/
theorem IsAt.getElem?_eq {c : Char} (h : IsAt text pos t) (hc : t.text.toList = [c]) :
    text.toList[pos]? = some c := by
  rw [← h.pos_eq]
  exact getElem?_pos h.mem hc

/-- The text of an operator is its symbol. -/
theorem toList_eq_symbol {op : BinaryOp} (ht : t ∈ all text) (hkind : t.kind = op.kind) :
    t.text.toList = op.symbol.toList := by
  have hspells := spells_of_mem_all ht
  rw [hkind] at hspells
  cases op <;> exact hspells

/-- A single star is followed by no other. -/
theorem IsAt.next_ne_star (h : IsAt text pos t) (hkind : t.kind = .star) :
    text.toList[pos + 1]? ≠ some '*' := by
  intro hstar
  have hspells := spells_of_mem_all h.mem
  rw [hkind] at hspells
  have hlength : t.text.length = 1 := by
    rw [← String.length_toList, show t.text.toList = ['*'] from hspells]
    rfl
  have hnext := mayPrecede_of_mem_all h.mem
  rw [hlength, h.pos_eq, hkind] at hnext
  exact hnext '*' hstar rfl

end Token

/-! ## Errors of a text -/

/-- What the error says of the text is so. Where it gives a position, the token or the character
that it speaks of stands there; where it quotes a token or a text, it is the one that is there; and
a limit in it is the one that is kept to. -/
def EvalError.FaithfulTo (limits : Limits) (text : String) : EvalError → Prop
  | illegalToken fragment pos => fragment.toList <+: text.toList.drop pos ∧
      ∃ t : Token, t.IsAt text pos ∧ t.kind = .illegal ∧ t.text = fragment
  | invalidNumber number pos => ∃ t : Token, t.IsAt text pos ∧ t.kind = .number ∧ t.text = number
  | unexpectedEnd pos _ => pos = text.length
  | unexpectedToken token _ | trailingToken token =>
      token.IsAt text token.pos ∧ token.kind ≠ .eof
  | unclosedParen opening _ => text.toList[opening]? = some '('
  | operand op pos _ => op.symbol.toList <+: text.toList.drop pos ∧
      (∃ t : Token, t.IsAt text pos ∧ t.kind = op.kind) ∧
      (op = .mul → text.toList[pos + 1]? ≠ some '*')
  | divisionByZero pos => text.toList[pos]? = some '/'
  | moduloByZero pos | moduloNotInteger pos => text.toList[pos]? = some '%'
  | tooDeep max pos => max = limits.maxDepth ∧ ∃ t : Token, t.IsAt text pos ∧
      (t.kind = .leftParen ∨ t.kind = .plus ∨ t.kind = .minus ∨ t.kind = .power)
  | exponentTooLarge max => max = limits.maxExponent
  | emptyExpression blank => blank = text
  | exponentNotInteger | zeroToNegative => True
  | emptyNumerator | powerOverZero | zeroDenominator | side .. => False

/-- The tokens that open a level of nesting. -/
theorem Token.Kind.nests_iff {kind : Kind} :
    kind.Nests ↔ kind = .leftParen ∨ kind = .plus ∨ kind = .minus ∨ kind = .power := by
  cases kind <;> simp [Nests, Sign.ofKind?]

namespace EvalError

variable {limits : Limits} {text : String} {e : EvalError}

/-- **An error about a token of the text is faithful to the text.** -/
theorem Concerns.faithfulTo {t : Token} (h : e.Concerns limits t) (ht : t ∈ Token.all text) :
    e.FaithfulTo limits text := by
  have hat := Token.isAt_of_mem_all ht
  have hspells := Token.spells_of_mem_all ht
  cases e with
  | invalidNumber number pos =>
      obtain ⟨hkind, hnumber, rfl, -⟩ := h
      exact ⟨t, hat, hkind, hnumber⟩
  | unexpectedEnd pos expected =>
      obtain ⟨hkind, rfl⟩ := h
      exact Token.pos_of_eof ht hkind
  | unexpectedToken token expected =>
      obtain ⟨hkind, rfl⟩ := h
      exact ⟨hat, hkind⟩
  | trailingToken token =>
      obtain ⟨hkind, rfl⟩ := h
      exact ⟨hat, hkind⟩
  | unclosedParen opening cause =>
      obtain ⟨hkind, rfl⟩ := h
      rw [hkind] at hspells
      exact hat.getElem?_eq hspells
  | operand op pos cause =>
      obtain ⟨hkind, rfl⟩ := h
      refine ⟨Token.toList_eq_symbol ht hkind ▸ hat.text_prefix, ⟨t, hat, hkind⟩, ?_⟩
      rintro rfl
      exact hat.next_ne_star hkind
  | divisionByZero pos =>
      obtain ⟨hkind, rfl⟩ := h
      rw [hkind] at hspells
      exact hat.getElem?_eq hspells
  | moduloByZero pos =>
      obtain ⟨hkind, rfl⟩ := h
      rw [hkind] at hspells
      exact hat.getElem?_eq hspells
  | moduloNotInteger pos =>
      obtain ⟨hkind, rfl⟩ := h
      rw [hkind] at hspells
      exact hat.getElem?_eq hspells
  | exponentNotInteger => trivial
  | zeroToNegative => trivial
  | exponentTooLarge max => exact h.2
  | tooDeep max pos =>
      obtain ⟨hnests, hmax, rfl⟩ := h
      exact ⟨hmax, t, hat, Token.Kind.nests_iff.1 hnests⟩
  | _ => exact absurd h id

/-- The end of the text is a token of it, too. -/
theorem PointsInto.faithfulTo {ts : List Token} (h : e.PointsInto ⟨limits, text.length⟩ ts)
    (hsub : ts ⊆ Token.all text) : e.FaithfulTo limits text := by
  obtain ⟨t, ht, hconcerns⟩ := h
  refine hconcerns.faithfulTo ?_
  rcases ht with ht | rfl
  · exact hsub ht
  · rw [Token.all_eq_pieces]
    exact List.mem_append_right _ (List.mem_singleton_self _)

end EvalError

namespace Expression

/-- **Every error is faithful to the text,** and so is every cause of it: what it names stands at
the position that it gives. -/
theorem error_faithful {limits : Limits} {text : String} {e : EvalError}
    (h : evaluate limits text = .error e) : ∀ c ∈ e :: e.causes, c.FaithfulTo limits text := by
  rcases error_cases h with ⟨t, ht, hkind, rfl⟩ | rfl | ⟨t, ht, hkind, rfl⟩ |
    ⟨ts, hsub, -, habout⟩
  · have hat := Token.isAt_of_mem_all ht
    exact List.forall_mem_singleton.2 ⟨hat.text_prefix, t, hat, hkind, rfl⟩
  · exact List.forall_mem_singleton.2 rfl
  · exact List.forall_mem_singleton.2 ⟨Token.isAt_of_mem_all ht, hkind⟩
  · exact fun c hc => (habout.pointsInto c hc).faithfulTo hsub

/-- An error in nested operands. The parenthesis is not closed either, but it is not at fault. -/
theorem error_faithful_nested :
    evaluate {} "(1+2* /3" =
        .error (.operand .add 2 (.operand .mul 4 (.unexpectedToken ⟨.slash, "/", 6⟩ .operand))) ∧
      ∀ c ∈ [EvalError.operand .add 2 (.operand .mul 4
          (.unexpectedToken ⟨.slash, "/", 6⟩ .operand)),
        .operand .mul 4 (.unexpectedToken ⟨.slash, "/", 6⟩ .operand),
        .unexpectedToken ⟨.slash, "/", 6⟩ .operand], c.FaithfulTo {} "(1+2* /3" := by
  have herror : evaluate {} "(1+2* /3" =
      .error (.operand .add 2 (.operand .mul 4 (.unexpectedToken ⟨.slash, "/", 6⟩ .operand))) := by
    decide +kernel
  exact ⟨herror, error_faithful herror⟩

end Expression

end RatExpr
