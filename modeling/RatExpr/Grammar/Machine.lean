import RatExpr.Grammar.Parser
import RatExpr.Number.Checked

set_option autoImplicit false

/-! # Parsers as machines

A parser that keeps its tokens whole. It knows which token is the current one and counts the
levels of nesting that it is in, and both are all that one call leaves behind for the next. The
levels of the grammar call one another on a stack that holds only so many calls.

A `Parser` gets along without a cursor, a counter and a stack. Here they can be spoken of, and
what must never be done with them breaks the machine down (`Breakdown`), so that it can be proved
that it is not done.
-/

namespace RatExpr

/-- What a machine keeps. -/
structure Machine where
  tokens : List Token
  /-- The index of the current token. -/
  cursor : Nat
  /-- The current token, where no tokens are left. -/
  endToken : Token
  limits : Limits
  /-- The levels of nesting that have been entered and not yet left. -/
  depth : Nat
  deriving DecidableEq, Repr

namespace Machine

/-- The end, after a list of tokens: its last token if that is the end. -/
def endTokenOf (ts : List Token) : Token :=
  match ts.getLast? with
  | some t => if t.kind = .eof then t else .endAt t.stop
  | none => .endAt 0

/-- A machine at the start of a list of tokens. -/
def ofTokens (limits : Limits) (ts : List Token) : Machine := ⟨ts, 0, endTokenOf ts, limits, 0⟩

/-- The current token. -/
def current (m : Machine) : Token := m.tokens.getD m.cursor m.endToken

/-- The machine after the current token. -/
def advanced (m : Machine) : Machine :=
  if m.cursor < m.tokens.length then { m with cursor := m.cursor + 1 } else m

end Machine

/-- What a machine does: it may change, whether there is a value or an error. -/
abbrev Action (α : Type) := ExceptT EvalError (StateT Machine (Except Breakdown)) α

namespace Action

variable {α : Type}

/-- The machine breaks down. -/
def breakDown (b : Breakdown) : Action α := fun _ => .error b

/-- The outcome of an action, as a value. -/
def observe (action : Action α) : Action (Except EvalError α) := fun m =>
  match action m with
  | .error b => .error b
  | .ok (outcome, m) => .ok (.ok outcome, m)

/-- Takes an outcome as it is. -/
def ofOutcome (outcome : Except EvalError α) : Action α := fun m => .ok (outcome, m)

/-- Takes what a computation comes to, and breaks down with it. -/
def ofChecked (computation : Checked α) : Action α := fun m =>
  match computation.run with
  | .error b => .error b
  | .ok outcome => .ok (outcome, m)

/-! ## The cursor -/

/-- The current token. -/
def peek : Action Token := fun m => .ok (.ok m.current, m)

/-- Passes the current token. -/
def advance : Action Unit := fun m => .ok (.ok (), m.advanced)

/-- Passes the current token, if it is of the kind that has to stand here. -/
def expect (kind : Token.Kind) (expected : Expected) : Action Unit := do
  let t ← peek
  if t.kind = kind then advance else throw (.unexpected expected t)

/-! ## The levels of nesting -/

/-- Sets the counter, which must never pass the limit. -/
def count (depth : Nat) : Action Unit := fun m =>
  if m.limits.maxDepth < depth then .error .overNested
  else .ok (.ok (), { m with depth := depth })

/-- Enters a level of nesting, which the token at `pos` opens. -/
def enter (pos : Nat) : Action Unit := do
  let m ← get
  if m.limits.maxDepth ≤ m.depth then throw (.tooDeep m.limits.maxDepth pos)
  else count (m.depth + 1)

/-- Leaves a level of nesting. -/
def leave : Action Unit := do
  let m ← get
  match m.depth with
  | 0 => breakDown .notNested
  | depth + 1 => count depth

/-- The outcome of `inside`, one level of nesting further in. That level is left with an error
as well. -/
def nested (pos : Nat) (inside : Action Rat) : Action (Except EvalError Rat) := do
  enter pos
  let outcome ← observe inside
  leave
  return outcome

/-! ## The levels of the grammar -/

/-- Applies the operator at `pos` to a value and the outcome of its right operand. -/
def combine (op : BinaryOp) (pos : Nat) (left : Rat) (right : Except EvalError Rat) :
    Action Rat := do
  let m ← get
  ofChecked (Checked.combine m.limits op pos left right)

/-- Goes on from the value of what has been read, as long as an operator follows. -/
def loop (operator? : Token.Kind → Option BinaryOp) (operand : Action Rat) :
    Nat → Rat → Action Rat
  | 0, _ => breakDown .endlessLoop
  | turns + 1, left => do
      let t ← peek
      match operator? t.kind with
      | none => return left
      | some op =>
          advance
          let right ← observe operand
          let value ← combine op t.pos left right
          loop operator? operand turns value

/-- Passes the parenthesis that closes the one opened at `opening`. -/
def close (opening : Nat) : Action Unit := do
  let closed ← observe (expect .rightParen .closingParen)
  ofOutcome (closed.mapError (.unclosedParen opening))

/-- The exponent of `base`, if one follows. -/
def exponent (power : Action Rat) (base : Rat) : Action Rat := do
  let t ← peek
  if t.kind = .power then
    advance
    let outcome ← nested t.pos power
    combine .pow t.pos base outcome
  else return base

/-- Operands with operators between them. A loop that passes a token in each of its turns does
not go on for longer than there are tokens. -/
def repeated (operator? : Token.Kind → Option BinaryOp) (operand : Action Rat) : Action Rat := do
  let first ← operand
  let m ← get
  loop operator? operand (m.tokens.length + 1) first

/-- What a level does, given how levels are called. -/
def body (call : Level → Action Rat) : Level → Action Rat
  | .expression => repeated BinaryOp.additive? (call .term)
  | .term => repeated BinaryOp.multiplicative? (call .power)
  | .power => do
      let base ← call .unary
      exponent (call .power) base
  | .unary => do
      let t ← peek
      match Sign.ofKind? t.kind with
      | none => call .atom
      | some sign =>
          advance
          let outcome ← nested t.pos (call .unary)
          ofOutcome (outcome.map sign.apply)
  | .atom => do
      let t ← peek
      match t.kind with
      | .number =>
          advance
          ofChecked (Checked.number t.text t.pos)
      | .leftParen =>
          advance
          let outcome ← nested t.pos (call .expression)
          let value ← ofOutcome outcome
          close t.pos
          return value
      | _ => throw (.unexpected .operand t)

/-- Calls a level on a stack that holds `frames` more calls. -/
def call : Nat → Level → Action Rat
  | 0, _ => breakDown .stackOverflow
  | frames + 1, level => body (call frames) level

/-! ## Calls from outside -/

/-- Reads one expression, as long as it can be. The stack has room for a call of each level of
the grammar in each level of nesting. -/
def expression : Action Rat := fun m => call (5 * (m.limits.maxDepth + 1)) .expression m

/-- Reads one expression that only the end may follow. -/
def complete : Action Rat := do
  let value ← expression
  let t ← peek
  if t.kind = .eof then return value else throw (.trailingToken t)

end Action

namespace Machine

/-- Answers a call. -/
def perform (m : Machine) : Parser.Call → Except Breakdown (Except EvalError Rat × Machine)
  | .expression => Action.expression m
  | .complete => Action.complete m

/-- Answers calls, one after the other. -/
def performAll (m : Machine) :
    List Parser.Call → Except Breakdown (List (Except EvalError Rat) × Machine)
  | [] => .ok ([], m)
  | call :: calls => do
      let (outcome, m) ← m.perform call
      let (outcomes, m) ← m.performAll calls
      return (outcome :: outcomes, m)

end Machine

end RatExpr
