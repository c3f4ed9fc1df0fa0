import RatExpr.Grammar.Level
import RatExpr.Token.Significant

set_option autoImplicit false

/-! # Parsers

A parser holds a list of tokens and evaluates expressions from it, one call after another.
Each call starts where the one before stopped, after an error too, and nesting starts anew
with each call. The tokens need not end with the end: where the end is missing, it is taken
to be just after the last token.
-/

namespace RatExpr

/-- The limits of an evaluation, and the tokens that are left to read. -/
structure Parser where
  context : Context
  rest : List Token

namespace Parser

/-- The position just after the tokens. -/
def endOf (ts : List Token) : Nat :=
  match ts.getLast? with
  | some t => t.stop
  | none => 0

/-- A parser at the start of a list of tokens. -/
def ofTokens (limits : Limits) (ts : List Token) : Parser := ⟨⟨limits, endOf ts⟩, ts⟩

/-- Reads one expression, as long as it can be, and leaves what follows. -/
def expression (p : Parser) : Except EvalError Rat × Parser :=
  let r := (Level.readAt p.context p.context.limits.maxDepth .expression).run p.rest
  (r.value, { p with rest := r.rest })

/-- Reads one expression that only the end may follow. -/
def complete (p : Parser) : Except EvalError Rat × Parser :=
  let (value, p) := p.expression
  match value, p.rest with
  | .ok v, t :: _ => (if t.kind = .eof then .ok v else .error (.trailingToken t), p)
  | value, _ => (value, p)

/-- The two ways to call a parser. -/
inductive Call where
  | expression
  | complete
  deriving DecidableEq, Repr

/-- Answers a call. -/
def perform (p : Parser) : Call → Except EvalError Rat × Parser
  | .expression => p.expression
  | .complete => p.complete

/-- Answers calls, one after the other. -/
def performAll (p : Parser) : List Call → List (Except EvalError Rat) × Parser
  | [] => ([], p)
  | call :: calls =>
      let (outcome, p) := p.perform call
      let (outcomes, p) := p.performAll calls
      (outcome :: outcomes, p)

/-- **A call leaves a final part of the tokens.** -/
theorem expression_rest_suffix (p : Parser) : p.expression.2.rest <:+ p.rest :=
  (Level.readAt p.context p.context.limits.maxDepth .expression).rest_suffix p.rest

/-- Whether or not the end has to follow, the same tokens are left. -/
theorem complete_snd (p : Parser) : p.complete.2 = p.expression.2 := by
  unfold complete
  split
  · rename_i h
    split <;> simp [h]

/-- Do the tokens say that the text is over? -/
def AtEnd (ts : List Token) : Prop := ∀ t ∈ ts.head?, t.kind = .eof

theorem atEnd_nil : AtEnd [] := by simp [AtEnd]

theorem atEnd_cons {t : Token} {ts : List Token} : AtEnd (t :: ts) ↔ t.kind = .eof := by
  simp [AtEnd]

/-- An error before the end is the error of the whole. -/
theorem complete_of_error {p : Parser} {e : EvalError} (h : p.expression.1 = .error e) :
    p.complete.1 = .error e := by
  simp [complete, h]

/-- A value is the value of the whole if the end follows. -/
theorem complete_of_atEnd {p : Parser} {v : Rat} (h : p.expression.1 = .ok v)
    (hend : AtEnd p.expression.2.rest) : p.complete.1 = .ok v := by
  cases hrest : p.expression.2.rest with
  | nil => simp [complete, h, hrest]
  | cons t ts =>
      rw [hrest, atEnd_cons] at hend
      simp [complete, h, hrest, hend]

/-- A token that follows a value, and is not the end, is the error. -/
theorem complete_of_trailing {p : Parser} {v : Rat} {t : Token} {ts : List Token}
    (h : p.expression.1 = .ok v) (hrest : p.expression.2.rest = t :: ts) (ht : t.kind ≠ .eof) :
    p.complete.1 = .error (.trailingToken t) := by
  simp [complete, h, hrest, ht]

/-- What follows a value decides. -/
theorem complete_of_ok {p : Parser} {v : Rat} (h : p.expression.1 = .ok v) :
    (AtEnd p.expression.2.rest ∧ p.complete.1 = .ok v) ∨
      ∃ t ts, p.expression.2.rest = t :: ts ∧ t.kind ≠ .eof ∧
        p.complete.1 = .error (.trailingToken t) := by
  cases hrest : p.expression.2.rest with
  | nil => exact Or.inl ⟨atEnd_nil, complete_of_atEnd h (hrest ▸ atEnd_nil)⟩
  | cons t ts =>
      by_cases ht : t.kind = .eof
      · have hend : AtEnd p.expression.2.rest := hrest ▸ atEnd_cons.2 ht
        exact Or.inl ⟨atEnd_cons.2 ht, complete_of_atEnd h hend⟩
      · exact Or.inr ⟨t, ts, rfl, ht, complete_of_trailing h hrest ht⟩

/-- **A call has a value exactly if it reads one and the end follows.** -/
theorem complete_eq_ok_iff {p : Parser} {v : Rat} :
    p.complete.1 = .ok v ↔ p.expression.1 = .ok v ∧ AtEnd p.expression.2.rest := by
  constructor
  · intro h
    cases hvalue : p.expression.1 with
    | error e => simp [complete_of_error hvalue] at h
    | ok w =>
        rcases complete_of_ok hvalue with ⟨hend, hok⟩ | ⟨t, ts, -, -, herror⟩
        · exact ⟨hok.symm.trans h, hend⟩
        · simp [herror] at h
  · exact fun h => complete_of_atEnd h.1 h.2

end Parser

end RatExpr
