import RatExpr.Number.Arithmetic

set_option autoImplicit false

/-! # Readers

A reader takes a value from the front of a list of tokens and says which tokens are left,
also when there is no value: a caller can go on from there. What is left is always a final
part of the list (`Reader.rest_suffix`), so a reader never looks back, and repeated reading
ends: `chain` reads operands and the operators between them until no operator follows, and
terminates because every operator it passes leaves fewer tokens.
-/

namespace RatExpr

/-- What a reader gives back: a value or an error, and the tokens that are left. -/
structure Reading where
  value : Except EvalError Rat
  rest : List Token

/-- The same tokens left, with another outcome. -/
def Reading.mapValue (r : Reading) (f : Except EvalError Rat → Except EvalError Rat) : Reading :=
  ⟨f r.value, r.rest⟩

/-- Goes on with the value and the tokens that are left. An error is the end. -/
def Reading.andThen (r : Reading) (next : Rat → List Token → Reading) : Reading :=
  match r.value with
  | .error e => ⟨.error e, r.rest⟩
  | .ok v => next v r.rest

/-- Going on leaves a final part of what was left. -/
theorem Reading.andThen_rest_suffix (r : Reading) {next : Rat → List Token → Reading}
    (h : ∀ v ts, (next v ts).rest <:+ ts) : (r.andThen next).rest <:+ r.rest := by
  unfold Reading.andThen
  split
  · exact List.suffix_rfl
  · exact h _ _

/-- A reader of values. -/
structure Reader where
  run : List Token → Reading
  rest_suffix : ∀ ts, (run ts).rest <:+ ts

/-- What a reader knows besides the tokens. -/
structure Context where
  limits : Limits
  /-- The position of the end, where no token says it. -/
  endPos : Nat

namespace Context

/-- The error for a list of tokens that does not start as expected. -/
def unexpected (ctx : Context) (expected : Expected) : List Token → EvalError
  | [] => .unexpectedEnd ctx.endPos expected
  | t :: _ =>
      if t.kind = .eof then .unexpectedEnd t.pos expected else .unexpectedToken t expected

/-- The first of the tokens, or the end if there is none. -/
def next (ctx : Context) (ts : List Token) : Token := ts.headD (.endAt ctx.endPos)

theorem unexpected_eq (ctx : Context) (expected : Expected) (ts : List Token) :
    ctx.unexpected expected ts = EvalError.unexpected expected (ctx.next ts) := by
  cases ts with
  | nil => rfl
  | cons t ts => rfl

end Context

/-! ## Chains of operators -/

/-- Goes on from the value `acc` of what has been read: as long as an operator follows, its
right operand is read and the operator is applied. -/
def chainFrom (ctx : Context) (operator? : Token.Kind → Option BinaryOp) (operand : Reader)
    (acc : Rat) : List Token → Reading
  | [] => ⟨.ok acc, []⟩
  | t :: ts =>
      match operator? t.kind with
      | none => ⟨.ok acc, t :: ts⟩
      | some op =>
          let right := operand.run ts
          match op.combine ctx.limits t.pos acc right.value with
          | .error e => ⟨.error e, right.rest⟩
          | .ok acc => chainFrom ctx operator? operand acc right.rest
termination_by ts => ts.length
decreasing_by
  have := (operand.rest_suffix ts).length_le
  simp only [List.length_cons]
  omega

/-- A chain ends at the end of the tokens. -/
theorem chainFrom_nil (ctx : Context) (operator? : Token.Kind → Option BinaryOp)
    (operand : Reader) (acc : Rat) : chainFrom ctx operator? operand acc [] = ⟨.ok acc, []⟩ := by
  rw [chainFrom]

/-- A chain ends before a token that is none of its operators. -/
theorem chainFrom_cons_of_none (ctx : Context) {operator? : Token.Kind → Option BinaryOp}
    (operand : Reader) (acc : Rat) {t : Token} (ts : List Token)
    (ht : operator? t.kind = none) :
    chainFrom ctx operator? operand acc (t :: ts) = ⟨.ok acc, t :: ts⟩ := by
  rw [chainFrom]
  simp only [ht]

/-- **An operator is applied to what has been read and its right operand,** and the chain
goes on from there. -/
theorem chainFrom_cons_of_some (ctx : Context) {operator? : Token.Kind → Option BinaryOp}
    (operand : Reader) (acc : Rat) {t : Token} (ts : List Token) {op : BinaryOp}
    (ht : operator? t.kind = some op) :
    chainFrom ctx operator? operand acc (t :: ts) =
      ((operand.run ts).mapValue (op.combine ctx.limits t.pos acc)).andThen
        (chainFrom ctx operator? operand) := by
  rw [chainFrom]
  simp only [ht, Reading.andThen, Reading.mapValue]

theorem chainFrom_rest_suffix (ctx : Context) (operator? : Token.Kind → Option BinaryOp)
    (operand : Reader) (acc : Rat) (ts : List Token) :
    (chainFrom ctx operator? operand acc ts).rest <:+ ts := by
  fun_induction chainFrom ctx operator? operand acc ts with
  | case1 acc => exact List.suffix_rfl
  | case2 acc t ts hop => exact List.suffix_rfl
  | case3 acc t ts op hop right e he =>
      exact (operand.rest_suffix ts).trans (List.suffix_cons t ts)
  | case4 acc t ts op hop right acc' he ih =>
      exact ih.trans ((operand.rest_suffix ts).trans (List.suffix_cons t ts))

/-- Operands with operators between them, applied from the left. -/
def chain (ctx : Context) (operator? : Token.Kind → Option BinaryOp) (operand : Reader) :
    Reader where
  run ts := (operand.run ts).andThen (chainFrom ctx operator? operand)
  rest_suffix ts :=
    ((operand.run ts).andThen_rest_suffix (chainFrom_rest_suffix ctx operator? operand)).trans
      (operand.rest_suffix ts)

end RatExpr
