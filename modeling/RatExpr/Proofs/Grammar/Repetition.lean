import RatExpr.Grammar.TreeReading

set_option autoImplicit false

/-! # The two loops of the grammar

```text
expression = term  (('+' | '-') term)*
term       = power (('*' | '/' | '%') power)*
```

Both levels repeat an operator and a right operand, and their trees grow to the left by such
a step. `Level.Repetition` is what the two have in common, so that what is proved of one loop
holds of the other. It also needs to be known where a level ends: the tokens after it must not
go on with it (`Level.Over`).
-/

namespace RatExpr.Level

/-! ## Where a level is over -/

/-- The tokens `ts` do not go on with a level: the first of them is none of its operators and
none that binds tighter. -/
def Over : Level → List Token → Prop
  | expression, t :: _ => BinaryOp.additive? t.kind = none ∧
      BinaryOp.multiplicative? t.kind = none ∧ t.kind ≠ .power
  | term, t :: _ => BinaryOp.multiplicative? t.kind = none ∧ t.kind ≠ .power
  | power, t :: _ => t.kind ≠ .power
  | _, _ => True

@[simp] theorem over_nil (level : Level) : level.Over [] := by
  cases level <;> trivial

/-- Every level is over before the end. -/
theorem over_of_eof (level : Level) {t : Token} (ts : List Token) (ht : t.kind = .eof) :
    level.Over (t :: ts) := by
  cases level <;> simp [Over, ht, BinaryOp.additive?, BinaryOp.multiplicative?]

/-- Every level is over before a closing parenthesis. -/
theorem over_of_rightParen (level : Level) {t : Token} (ts : List Token)
    (ht : t.kind = .rightParen) : level.Over (t :: ts) := by
  cases level <;> simp [Over, ht, BinaryOp.additive?, BinaryOp.multiplicative?]

/-- What ends a level ends its operands. -/
theorem Over.delimited {level : Level} {ts : List Token} (h : level.Over ts) :
    Delimited level ts := by
  cases ts with
  | nil => cases level <;> trivial
  | cons t ts =>
      cases level with
      | expression => exact h.2
      | term => exact h.2
      | power => exact h
      | unary => trivial
      | atom => trivial

/-! ## Operators and right operands -/

/-- An operator of a loop and its right operand. -/
structure Step (operator? : Token.Kind → Option BinaryOp) (operand : Level) where
  token : Token
  op : BinaryOp
  right : Tree operand
  isOperator : operator? token.kind = some op

/-- A step is told by its operator's token and its right operand. -/
theorem Step.ext {operator? : Token.Kind → Option BinaryOp} {operand : Level}
    {s s' : Step operator? operand} (htoken : s.token = s'.token) (hright : s.right = s'.right) :
    s = s' := by
  obtain ⟨t, op, right, ht⟩ := s
  obtain ⟨t', op', right', ht'⟩ := s'
  simp only at htoken hright
  subst htoken hright
  rw [ht, Option.some.injEq] at ht'
  subst ht'
  rfl

/-- The tokens of a step. -/
def Step.tokens {operator? : Token.Kind → Option BinaryOp} {operand : Level}
    (step : Step operator? operand) : List Token :=
  step.token :: step.right.tokens

/-- A level that repeats `operator? operand`. -/
structure Repetition (level operand : Level) where
  operator? : Token.Kind → Option BinaryOp
  /-- The tree of one operand. -/
  single : Tree operand → Tree level
  /-- The tree with one more step. -/
  grow : Tree level → Step operator? operand → Tree level
  eq_single_or_grow : ∀ tree, (∃ first, tree = single first) ∨ ∃ left step, tree = grow left step
  tokens_single : ∀ first, (single first).tokens = first.tokens
  tokens_grow : ∀ left step, (grow left step).tokens = left.tokens ++ step.tokens
  value_single : ∀ limits room first,
    (single first).value limits room = first.value limits room
  value_grow : ∀ limits room left step a, left.value limits room = .ok a →
    (grow left step).value limits room =
      step.op.combine limits step.token.pos a (step.right.value limits room)
  value_grow_of_error : ∀ limits room left step e, left.value limits room = .error e →
    (grow left step).value limits room = .error e
  readAt_eq : ∀ ctx room, readAt ctx room level = chain ctx operator? (readAt ctx room operand)
  over_cons : ∀ t ts, Over level (t :: ts) ↔ operator? t.kind = none ∧ Over operand (t :: ts)
  /-- An operator of the loop ends the operand before it. -/
  over_of_operator : ∀ t ts op, operator? t.kind = some op → Over operand (t :: ts)

/-- Terms are powers with `*`, `/` and `%` between them. -/
def terms : Repetition .term .power where
  operator? := BinaryOp.multiplicative?
  single := .factor
  grow left step := .product left step.token step.op step.right step.isOperator
  eq_single_or_grow tree := by
    cases tree with
    | factor operand => exact Or.inl ⟨operand, rfl⟩
    | product left t op right ht => exact Or.inr ⟨left, ⟨t, op, right, ht⟩, rfl⟩
  tokens_single _ := rfl
  tokens_grow _ _ := rfl
  value_single _ _ _ := rfl
  value_grow limits room left step a ha := by simp [Tree.value, ha]
  value_grow_of_error limits room left step e he := by simp [Tree.value, he]
  readAt_eq _ _ := rfl
  over_cons _ _ := Iff.rfl
  over_of_operator _ _ _ ht := BinaryOp.ne_power_of_multiplicative ht

/-- Expressions are terms with `+` and `-` between them. -/
def sums : Repetition .expression .term where
  operator? := BinaryOp.additive?
  single := .summand
  grow left step := .sum left step.token step.op step.right step.isOperator
  eq_single_or_grow tree := by
    cases tree with
    | summand operand => exact Or.inl ⟨operand, rfl⟩
    | sum left t op right ht => exact Or.inr ⟨left, ⟨t, op, right, ht⟩, rfl⟩
  tokens_single _ := rfl
  tokens_grow _ _ := rfl
  value_single _ _ _ := rfl
  value_grow limits room left step a ha := by simp [Tree.value, ha]
  value_grow_of_error limits room left step e he := by simp [Tree.value, he]
  readAt_eq _ _ := rfl
  over_cons _ _ := Iff.rfl
  over_of_operator _ _ _ ht :=
    ⟨BinaryOp.multiplicative_eq_none_of_additive ht, BinaryOp.ne_power_of_additive ht⟩

namespace Repetition

variable {level operand : Level}

/-- What ends a loop ends its last operand. -/
theorem over_operand (loop : Repetition level operand) {ts : List Token}
    (h : Over level ts) : Over operand ts := by
  cases ts with
  | nil => exact over_nil operand
  | cons t ts => exact ((loop.over_cons t ts).1 h).2

/-- **A tree of a loop is an operand with steps after it.** -/
theorem exists_steps (loop : Repetition level operand) (tree : Tree level) :
    ∃ first steps, tree = List.foldl loop.grow (loop.single first) steps := by
  induction h : tree.tokens.length using Nat.strongRecOn generalizing tree with
  | _ n ih =>
      rcases loop.eq_single_or_grow tree with ⟨first, rfl⟩ | ⟨left, step, rfl⟩
      · exact ⟨first, [], rfl⟩
      · have hlt : left.tokens.length < n := by
          rw [← h, loop.tokens_grow, Step.tokens, List.length_append, List.length_cons]
          omega
        obtain ⟨first, steps, hleft⟩ := ih _ hlt left rfl
        refine ⟨first, steps ++ [step], ?_⟩
        rw [List.foldl_append, ← hleft]
        rfl

/-- The tokens of an operand with steps after it. -/
theorem tokens_foldl (loop : Repetition level operand)
    (steps : List (Step loop.operator? operand)) (left : Tree level) :
    (steps.foldl loop.grow left).tokens = left.tokens ++ steps.flatMap Step.tokens := by
  induction steps generalizing left with
  | nil => simp
  | cons step steps ih =>
      rw [List.foldl_cons, ih, loop.tokens_grow, List.flatMap_cons, List.append_assoc]

end Repetition

end RatExpr.Level
