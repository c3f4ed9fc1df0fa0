import RatExpr.Grammar.Parser

set_option autoImplicit false

/-! # Acceptors

Whether a list of tokens is an expression can be told in one pass, without evaluating and
without recursion: it is enough to know whether an operand has to come next, and which
parentheses are open. `Acceptor.verdict` says of a list of tokens whether it is an expression
up to its end or, if not, which token is the first that cannot stand where it does.
-/

namespace RatExpr

/-- What an acceptor knows of the tokens before. -/
structure Acceptor where
  /-- An operand has to come next; otherwise an operand has just ended. -/
  expectsOperand : Bool
  /-- The positions of the open parentheses, the innermost first. -/
  opened : List Nat
  deriving DecidableEq, Repr

/-- Whether a list of tokens is an expression. -/
inductive Verdict where
  | accepted
  /-- The token cannot stand where it does, after what the acceptor knows. -/
  | rejected (after : Acceptor) (token : Token)
  deriving DecidableEq, Repr

namespace Acceptor

/-- An acceptor that has seen no token. -/
def start : Acceptor := ⟨true, []⟩

/-- Is the token an operator between two operands? An acceptor has no levels, so it makes no
difference how tight the operators bind. -/
def isOperator : Token.Kind → Bool
  | .plus | .minus | .star | .slash | .percent | .power => true
  | _ => false

/-- Takes a token: the acceptor after it, or the verdict if the token decides. -/
def step (a : Acceptor) (t : Token) : Except Verdict Acceptor :=
  if a.expectsOperand then
    match t.kind with
    | .number => .ok { a with expectsOperand := false }
    | .leftParen => .ok { a with opened := t.pos :: a.opened }
    | .plus | .minus => .ok a
    | _ => .error (.rejected a t)
  else if isOperator t.kind then .ok { a with expectsOperand := true }
  else
    match t.kind, a.opened with
    | .rightParen, _ :: opened => .ok { a with opened := opened }
    | .eof, [] => .error .accepted
    | _, _ => .error (.rejected a t)

/-- The verdict on the tokens `ts`, after which the text ends at `endPos`. -/
def run (endPos : Nat) : Acceptor → List Token → Verdict
  | a, [] =>
      match a.step (.endAt endPos) with
      | .ok a => .rejected a (.endAt endPos)
      | .error verdict => verdict
  | a, t :: ts =>
      match a.step t with
      | .ok a => run endPos a ts
      | .error verdict => verdict

/-- The verdict on a list of tokens. -/
def verdict (ts : List Token) : Verdict := run (Parser.endOf ts) start ts

end Acceptor

end RatExpr
