import RatExpr.Token.Basic

set_option autoImplicit false

/-! # Operators

The six operators that stand between two operands and the two signs that stand before one.
A table says which token is which operator at which level of the grammar.
-/

namespace RatExpr

/-- The operators between two operands. -/
inductive BinaryOp where
  | add
  | sub
  | mul
  | div
  | mod
  | pow
  deriving DecidableEq, Repr

/-- The operator as it is written in an expression. -/
def BinaryOp.symbol : BinaryOp → String
  | .add => "+"
  | .sub => "-"
  | .mul => "*"
  | .div => "/"
  | .mod => "%"
  | .pow => "**"

/-- The operators between the terms of an expression. -/
def BinaryOp.additive? : Token.Kind → Option BinaryOp
  | .plus => some .add
  | .minus => some .sub
  | _ => none

/-- The operators between the factors of a term. -/
def BinaryOp.multiplicative? : Token.Kind → Option BinaryOp
  | .star => some .mul
  | .slash => some .div
  | .percent => some .mod
  | _ => none

/-- The signs before an operand. -/
inductive Sign where
  | positive
  | negative
  deriving DecidableEq, Repr

/-- The sign that a token is. -/
def Sign.ofKind? : Token.Kind → Option Sign
  | .plus => some .positive
  | .minus => some .negative
  | _ => none

/-- The signed value. -/
def Sign.apply : Sign → Rat → Rat
  | .positive, v => v
  | .negative, v => -v

end RatExpr
