import RatExpr.Grammar.Parser
import RatExpr.Proofs.Grammar.Derivation
import RatExpr.Proofs.Grammar.Unambiguous

set_option autoImplicit false

/-! # Evaluating while reading

A parser evaluates what it reads and never holds a tree. Its answer is nevertheless the one
that would be found by deriving the tokens first and evaluating the tree afterwards
(`Parser.complete_refines_tree`): the tokens before the end have one derivation at most, the
parser gives its value or its error, and it gives no value where there is none.
-/

namespace RatExpr

/-- The kinds of tokens that stand in expressions: all but the end, blanks and illegal pieces. -/
def Token.Kind.IsProper (kind : Token.Kind) : Prop :=
  kind ≠ .eof ∧ kind ≠ .space ∧ kind ≠ .illegal

theorem Token.Kind.isProper_of_additive {kind : Token.Kind} {op : BinaryOp}
    (h : BinaryOp.additive? kind = some op) : kind.IsProper := by
  cases kind <;> simp_all [BinaryOp.additive?, IsProper]

theorem Token.Kind.isProper_of_multiplicative {kind : Token.Kind} {op : BinaryOp}
    (h : BinaryOp.multiplicative? kind = some op) : kind.IsProper := by
  cases kind <;> simp_all [BinaryOp.multiplicative?, IsProper]

theorem Token.Kind.isProper_of_sign {kind : Token.Kind} {sign : Sign}
    (h : Sign.ofKind? kind = some sign) : kind.IsProper := by
  cases kind <;> simp_all [Sign.ofKind?, IsProper]

/-- A tree holds proper tokens only. -/
theorem Tree.kind_isProper {level : Level} (tree : Tree level) :
    ∀ t ∈ tree.tokens, t.kind.IsProper := by
  induction tree with
  | number t ht => simp [tokens, ht, Token.Kind.IsProper]
  | group opening inside closing ho hc ih =>
      have hopening : opening.kind.IsProper := by simp [ho, Token.Kind.IsProper]
      have hclosing : closing.kind.IsProper := by simp [hc, Token.Kind.IsProper]
      simp only [tokens, List.forall_mem_cons, List.forall_mem_append]
      exact ⟨hopening, ih, hclosing, List.forall_mem_nil _⟩
  | unsigned operand ih => exact ih
  | signed t sign operand ht ih =>
      exact List.forall_mem_cons.2 ⟨Token.Kind.isProper_of_sign ht, ih⟩
  | unraised operand ih => exact ih
  | raised base t exponent ht ihb ihe =>
      have hpower : t.kind.IsProper := by simp [ht, Token.Kind.IsProper]
      simp only [tokens, List.forall_mem_append, List.forall_mem_cons]
      exact ⟨ihb, hpower, ihe⟩
  | factor operand ih => exact ih
  | product left t op right ht ihl ihr =>
      simp only [tokens, List.forall_mem_append, List.forall_mem_cons]
      exact ⟨ihl, Token.Kind.isProper_of_multiplicative ht, ihr⟩
  | summand operand ih => exact ih
  | sum left t op right ht ihl ihr =>
      simp only [tokens, List.forall_mem_append, List.forall_mem_cons]
      exact ⟨ihl, Token.Kind.isProper_of_additive ht, ihr⟩

namespace Parser

/-! ## The tokens before the end -/

/-- The tokens before the first end; all of them if there is none. -/
def beforeEnd (ts : List Token) : List Token := ts.takeWhile fun t => t.kind != .eof

theorem exists_eq_beforeEnd_append (ts : List Token) :
    ∃ rest, AtEnd rest ∧ ts = beforeEnd ts ++ rest := by
  refine ⟨ts.dropWhile fun t => t.kind != .eof, ?_, List.takeWhile_append_dropWhile.symm⟩
  intro t ht
  have hnot := List.head?_dropWhile_not (fun t : Token => t.kind != .eof) ts
  rw [Option.mem_def.1 ht] at hnot
  simpa using hnot

theorem beforeEnd_append {ts rest : List Token} (hts : ∀ t ∈ ts, t.kind ≠ .eof)
    (hrest : AtEnd rest) : beforeEnd (ts ++ rest) = ts := by
  have hpos : ∀ t ∈ ts, (t.kind != .eof) = true := fun t ht => by simpa using hts t ht
  rw [beforeEnd, List.takeWhile_append_of_pos hpos]
  cases rest with
  | nil => simp
  | cons t rest => simp [atEnd_cons.1 hrest]

/-! ## Trees and readings -/

theorem AtEnd.over {rest : List Token} (h : AtEnd rest) (level : Level) : level.Over rest := by
  cases rest with
  | nil => exact Level.over_nil level
  | cons t rest => exact Level.over_of_eof level rest (atEnd_cons.1 h)

/-- The tokens of a tree are read as it is worth, and no others, if what follows does not go on with
an expression. -/
theorem expression_tokens (ctx : Context) (tree : Tree .expression) {rest : List Token}
    (hrest : Level.Over .expression rest) :
    ((Level.readAt ctx ctx.limits.maxDepth .expression).run (tree.tokens ++ rest)).Of
      (tree.value ctx.limits ctx.limits.maxDepth) fun v => ⟨.ok v, rest⟩ := by
  have hstop : (fun v => Level.goOn ctx (Level.innerAt ctx ctx.limits.maxDepth) .expression v rest) =
      fun v => ⟨.ok v, rest⟩ := by
    funext v
    cases rest with
    | nil => exact chainFrom_nil ctx _ _ v
    | cons t rest => exact chainFrom_cons_of_none ctx _ v rest hrest.1
  rw [← hstop]
  exact Level.readAt_tokens ctx tree ctx.limits.maxDepth rest hrest.delimited

/-- The tokens of a tree are read as it is worth, if the end follows. -/
theorem complete_tokens (limits : Limits) (tree : Tree .expression) {rest : List Token}
    (hrest : AtEnd rest) :
    (ofTokens limits (tree.tokens ++ rest)).complete.1 = tree.value limits limits.maxDepth := by
  have hread := expression_tokens ⟨limits, endOf (tree.tokens ++ rest)⟩ tree
    (hrest.over .expression)
  cases hvalue : tree.value limits limits.maxDepth with
  | error e =>
      rw [hvalue] at hread
      exact complete_of_error hread
  | ok v =>
      rw [hvalue] at hread
      have hleft : (ofTokens limits (tree.tokens ++ rest)).expression.2.rest = rest :=
        congrArg Reading.rest hread
      refine complete_of_atEnd (congrArg Reading.value hread) ?_
      rw [hleft]
      exact hrest

/-- A value is the value of a tree, whose tokens have been read. -/
theorem exists_tree_of_complete {limits : Limits} {ts : List Token} {v : Rat}
    (h : (ofTokens limits ts).complete.1 = .ok v) :
    ∃ tree : Tree .expression, ts = tree.tokens ++ (ofTokens limits ts).complete.2.rest ∧
      AtEnd (ofTokens limits ts).complete.2.rest ∧
      tree.value limits limits.maxDepth = .ok v := by
  obtain ⟨hvalue, hend⟩ := complete_eq_ok_iff.1 h
  rw [complete_snd]
  obtain ⟨tree, htokens, htree, -⟩ := Level.faithful ⟨limits, endOf ts⟩ limits.maxDepth
    .expression ts v _ (by rw [← hvalue]; rfl)
  exact ⟨tree, htokens, hend, htree⟩

/-- **Evaluating while reading is deriving first and evaluating then.** The tokens before the
end have at most one derivation. If they have one, the parser gives what it is worth, be that
a value or an error; and a value is always that of a derivation, all of which has been read. -/
theorem complete_refines_tree (limits : Limits) (ts : List Token) :
    (∀ a b : Tree .expression, a.tokens = beforeEnd ts → b.tokens = beforeEnd ts → a = b) ∧
    (∀ tree : Tree .expression, tree.tokens = beforeEnd ts →
      (ofTokens limits ts).complete.1 = tree.value limits limits.maxDepth) ∧
    (∀ v, (ofTokens limits ts).complete.1 = .ok v →
      ∃ tree : Tree .expression, tree.tokens = beforeEnd ts ∧
        tree.value limits limits.maxDepth = .ok v ∧
        ts = tree.tokens ++ (ofTokens limits ts).complete.2.rest) := by
  refine ⟨fun a b ha hb => Tree.eq_of_tokens_eq (ha.trans hb.symm), ?_, ?_⟩
  · intro tree htree
    obtain ⟨rest, hend, hts⟩ := exists_eq_beforeEnd_append ts
    rw [hts, ← htree]
    exact complete_tokens limits tree hend
  · intro v hv
    obtain ⟨tree, htokens, hend, htree⟩ := exists_tree_of_complete hv
    refine ⟨tree, ?_, htree, htokens⟩
    rw [htokens, beforeEnd_append (fun t ht => (tree.kind_isProper t ht).1) hend]

end Parser

end RatExpr
