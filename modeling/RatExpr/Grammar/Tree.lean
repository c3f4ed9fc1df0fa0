import RatExpr.Grammar.Level

set_option autoImplicit false

/-! # Parse trees

The derivations of the grammar, level by level. A tree holds the tokens that it derives
(`Tree.tokens`), each with the evidence that it may stand where it does, so every tree is a
derivation and no two levels can be confused. Chains of operators lean to the left, exponents
to the right.

`Tree.value` evaluates a finished tree from its leaves, with no list of tokens in sight: what
a tree is worth under limits is defined here without reading.
-/

namespace RatExpr

/-- The derivations of a level of the grammar. -/
inductive Tree : Level → Type where
  | number (t : Token) (ht : t.kind = .number) : Tree .atom
  | group (opening : Token) (inside : Tree .expression) (closing : Token)
      (ho : opening.kind = .leftParen) (hc : closing.kind = .rightParen) : Tree .atom
  | unsigned (operand : Tree .atom) : Tree .unary
  | signed (t : Token) (sign : Sign) (operand : Tree .unary)
      (ht : Sign.ofKind? t.kind = some sign) : Tree .unary
  | unraised (operand : Tree .unary) : Tree .power
  | raised (base : Tree .unary) (t : Token) (exponent : Tree .power)
      (ht : t.kind = .power) : Tree .power
  | factor (operand : Tree .power) : Tree .term
  | product (left : Tree .term) (t : Token) (op : BinaryOp) (right : Tree .power)
      (ht : BinaryOp.multiplicative? t.kind = some op) : Tree .term
  | summand (operand : Tree .term) : Tree .expression
  | sum (left : Tree .expression) (t : Token) (op : BinaryOp) (right : Tree .term)
      (ht : BinaryOp.additive? t.kind = some op) : Tree .expression

namespace Tree

/-- The tokens that a tree derives, in order. -/
def tokens {level : Level} : Tree level → List Token
  | number t _ => [t]
  | group opening inside closing _ _ => opening :: (inside.tokens ++ [closing])
  | unsigned operand => operand.tokens
  | signed t _ operand _ => t :: operand.tokens
  | unraised operand => operand.tokens
  | raised base t exponent _ => base.tokens ++ t :: exponent.tokens
  | factor operand => operand.tokens
  | product left t _ right _ => left.tokens ++ t :: right.tokens
  | summand operand => operand.tokens
  | sum left t _ right _ => left.tokens ++ t :: right.tokens

/-- What `inside` is worth one level of nesting further in, which the token at `pos` opens,
where `room` more levels are allowed. -/
def nestedValue (limits : Limits) (room pos : Nat) (inside : Nat → Except EvalError Rat) :
    Except EvalError Rat :=
  match room with
  | 0 => .error (.tooDeep limits.maxDepth pos)
  | room + 1 => inside room

/-- The value of a tree, where `room` more levels of nesting are allowed. The left operand
comes before the right one, and both before their operator. -/
def value (limits : Limits) (room : Nat) {level : Level} : Tree level → Except EvalError Rat
  | number t _ => Literal.evaluate t.text t.pos
  | group opening inside _ _ _ =>
      nestedValue limits room opening.pos fun room => inside.value limits room
  | unsigned operand => operand.value limits room
  | signed t sign operand _ =>
      nestedValue limits room t.pos fun room => (operand.value limits room).map sign.apply
  | unraised operand => operand.value limits room
  | raised base t exponent _ =>
      match base.value limits room with
      | .error e => .error e
      | .ok b =>
          nestedValue limits room t.pos fun room =>
            BinaryOp.pow.combine limits t.pos b (exponent.value limits room)
  | factor operand => operand.value limits room
  | product left t op right _ =>
      match left.value limits room with
      | .error e => .error e
      | .ok a => op.combine limits t.pos a (right.value limits room)
  | summand operand => operand.value limits room
  | sum left t op right _ =>
      match left.value limits room with
      | .error e => .error e
      | .ok a => op.combine limits t.pos a (right.value limits room)

/-- **No tree derives the empty list.** -/
theorem tokens_ne_nil {level : Level} (tree : Tree level) : tree.tokens ≠ [] := by
  induction tree with
  | unsigned operand ih => exact ih
  | unraised operand ih => exact ih
  | factor operand ih => exact ih
  | summand operand ih => exact ih
  | _ => simp [tokens]

/-! ## The value of two operands

The left operand is evaluated first, and only its value is needed further on. -/

variable {limits : Limits} {room : Nat}

theorem value_raised {base : Tree .unary} {t : Token} {exponent : Tree .power}
    (ht : t.kind = .power) :
    (raised base t exponent ht).value limits room =
      (base.value limits room).bind fun b =>
        nestedValue limits room t.pos fun room =>
          BinaryOp.pow.combine limits t.pos b (exponent.value limits room) := by
  rw [value]
  cases base.value limits room with
  | error e => rfl
  | ok b => rfl

theorem value_product {left : Tree .term} {t : Token} {op : BinaryOp} {right : Tree .power}
    (ht : BinaryOp.multiplicative? t.kind = some op) :
    (product left t op right ht).value limits room =
      (left.value limits room).bind fun a =>
        op.combine limits t.pos a (right.value limits room) := by
  rw [value]
  cases left.value limits room with
  | error e => rfl
  | ok a => rfl

theorem value_sum {left : Tree .expression} {t : Token} {op : BinaryOp} {right : Tree .term}
    (ht : BinaryOp.additive? t.kind = some op) :
    (sum left t op right ht).value limits room =
      (left.value limits room).bind fun a =>
        op.combine limits t.pos a (right.value limits room) := by
  rw [value]
  cases left.value limits room with
  | error e => rfl
  | ok a => rfl

end Tree

end RatExpr
