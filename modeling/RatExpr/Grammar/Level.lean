import RatExpr.Grammar.Reader
import RatExpr.Number.Literal

set_option autoImplicit false

/-! # The levels of the grammar

```text
expression = term   (('+' | '-') term)*
term       = power  (('*' | '/' | '%') power)*
power      = unary  ('**' power)?
unary      = ('+' | '-') unary | atom
atom       = number | '(' expression ')'
```

Each level is a reader that evaluates what it reads. A parenthesis, a sign and the operator
of two stars go one level of nesting further in. The levels of one nesting are built from
the readers of the next nesting (`Inner`), of which there are none at the last one: recursion
is on the number of levels of nesting that are still allowed (`innerAt`), and reading needs
no other bound.
-/

namespace RatExpr

/-- The levels of the grammar, the loosest first. -/
inductive Level where
  | expression
  | term
  | power
  | unary
  | atom
  deriving DecidableEq, Repr

/-- The readers one nesting further in; none if nesting ends here. -/
abbrev Inner := Option (Level → Reader)

namespace Level

/-- Reads at `level` one nesting further in, which the token at `pos` opens. The reading is
given to `after`; where no further nesting is allowed, the token is the error. -/
def nested (ctx : Context) (inner : Inner) (level : Level) (pos : Nat)
    (after : Reading → Reading) (ts : List Token) : Reading :=
  match inner with
  | none => ⟨.error (.tooDeep ctx.limits.maxDepth pos), ts⟩
  | some readers => after ((readers level).run ts)

theorem nested_rest_suffix (ctx : Context) (inner : Inner) (level : Level) (pos : Nat)
    {after : Reading → Reading} (h : ∀ r, (after r).rest <:+ r.rest) (ts : List Token) :
    (nested ctx inner level pos after ts).rest <:+ ts := by
  cases inner with
  | none => exact List.suffix_rfl
  | some readers => exact (h _).trans ((readers level).rest_suffix ts)

/-! ## Atoms -/

/-- Passes the parenthesis that closes the one opened at `opening`. -/
def close (ctx : Context) (opening : Nat) (v : Rat) : List Token → Reading
  | [] => ⟨.error (.unclosedParen opening (ctx.unexpected .closingParen [])), []⟩
  | t :: ts =>
      if t.kind = .rightParen then ⟨.ok v, ts⟩
      else ⟨.error (.unclosedParen opening (ctx.unexpected .closingParen (t :: ts))), t :: ts⟩

theorem close_rest_suffix (ctx : Context) (opening : Nat) (v : Rat) (ts : List Token) :
    (close ctx opening v ts).rest <:+ ts := by
  cases ts with
  | nil => exact List.suffix_rfl
  | cons t ts =>
      simp only [close]
      split
      · exact List.suffix_cons t ts
      · exact List.suffix_rfl

/-- A number or an expression in parentheses. -/
def atomRun (ctx : Context) (inner : Inner) : List Token → Reading
  | [] => ⟨.error (ctx.unexpected .operand []), []⟩
  | t :: ts =>
      match t.kind with
      | .number => ⟨Literal.evaluate t.text t.pos, ts⟩
      | .leftParen =>
          nested ctx inner .expression t.pos (fun r => r.andThen (close ctx t.pos)) ts
      | _ => ⟨.error (ctx.unexpected .operand (t :: ts)), t :: ts⟩

/-- The reader of an atom. -/
def atomReader (ctx : Context) (inner : Inner) : Reader where
  run := atomRun ctx inner
  rest_suffix ts := by
    cases ts with
    | nil => exact List.suffix_rfl
    | cons t ts =>
        simp only [atomRun]
        split
        · exact List.suffix_cons t ts
        · exact (nested_rest_suffix ctx inner .expression t.pos
            (fun r => r.andThen_rest_suffix (close_rest_suffix ctx t.pos)) ts).trans
            (List.suffix_cons t ts)
        · exact List.suffix_rfl

/-! ## Signs -/

/-- An atom with signs before it. -/
def unaryRun (ctx : Context) (inner : Inner) : List Token → Reading
  | [] => (atomReader ctx inner).run []
  | t :: ts =>
      match Sign.ofKind? t.kind with
      | some sign =>
          nested ctx inner .unary t.pos (fun r => r.mapValue fun v => v.map sign.apply) ts
      | none => (atomReader ctx inner).run (t :: ts)

/-- The reader of an atom with signs. -/
def unaryReader (ctx : Context) (inner : Inner) : Reader where
  run := unaryRun ctx inner
  rest_suffix ts := by
    cases ts with
    | nil => exact (atomReader ctx inner).rest_suffix []
    | cons t ts =>
        simp only [unaryRun]
        split
        · refine List.IsSuffix.trans (nested_rest_suffix ctx inner .unary t.pos ?_ ts)
            (List.suffix_cons t ts)
          exact fun _ => List.suffix_rfl
        · exact (atomReader ctx inner).rest_suffix (t :: ts)

/-! ## Powers -/

/-- The exponent of `base`, if one follows. -/
def exponent (ctx : Context) (inner : Inner) (base : Rat) : List Token → Reading
  | [] => ⟨.ok base, []⟩
  | t :: ts =>
      if t.kind = .power then
        nested ctx inner .power t.pos
          (fun r => r.mapValue (BinaryOp.pow.combine ctx.limits t.pos base)) ts
      else ⟨.ok base, t :: ts⟩

theorem exponent_rest_suffix (ctx : Context) (inner : Inner) (base : Rat) (ts : List Token) :
    (exponent ctx inner base ts).rest <:+ ts := by
  cases ts with
  | nil => exact List.suffix_rfl
  | cons t ts =>
      simp only [exponent]
      split
      · refine List.IsSuffix.trans (nested_rest_suffix ctx inner .power t.pos ?_ ts)
          (List.suffix_cons t ts)
        exact fun _ => List.suffix_rfl
      · exact List.suffix_rfl

/-- The reader of a base with its exponent. -/
def powerReader (ctx : Context) (inner : Inner) : Reader where
  run ts := ((unaryReader ctx inner).run ts).andThen (exponent ctx inner)
  rest_suffix ts :=
    (((unaryReader ctx inner).run ts).andThen_rest_suffix
      (exponent_rest_suffix ctx inner)).trans ((unaryReader ctx inner).rest_suffix ts)

/-! ## All levels -/

/-- The reader of a level, given the readers one nesting further in. -/
def reader (ctx : Context) (inner : Inner) : Level → Reader
  | atom => atomReader ctx inner
  | unary => unaryReader ctx inner
  | power => powerReader ctx inner
  | term => chain ctx BinaryOp.multiplicative? (powerReader ctx inner)
  | expression =>
      chain ctx BinaryOp.additive?
        (chain ctx BinaryOp.multiplicative? (powerReader ctx inner))

/-- The readers one nesting further in, where `room` more levels of nesting are allowed. -/
def innerAt (ctx : Context) : Nat → Inner
  | 0 => none
  | room + 1 => some fun level => level.reader ctx (innerAt ctx room)

/-- The reader of a level where `room` more levels of nesting are allowed. -/
def readAt (ctx : Context) (room : Nat) (level : Level) : Reader :=
  level.reader ctx (innerAt ctx room)

/-- Nesting needs room, and takes one level of it. -/
theorem nested_innerAt (ctx : Context) (room : Nat) (level : Level) (pos : Nat)
    (after : Reading → Reading) (ts : List Token) :
    nested ctx (innerAt ctx room) level pos after ts =
      match room with
      | 0 => ⟨.error (.tooDeep ctx.limits.maxDepth pos), ts⟩
      | room + 1 => after ((readAt ctx room level).run ts) := by
  cases room <;> rfl

/-! ## Induction -/

/-- **Induction along the grammar.** A level may use the next tighter one at the same number, and
those that go further in may use all levels at smaller numbers. The number is the room that is
left for nesting, or that of the tokens of a tree. -/
@[elab_as_elim]
theorem grammar_induction {motive : Nat → Level → Prop}
    (atom : ∀ n, (∀ m, m < n → ∀ level, motive m level) → motive n .atom)
    (unary : ∀ n, (∀ m, m < n → ∀ level, motive m level) → motive n .atom → motive n .unary)
    (power : ∀ n, (∀ m, m < n → ∀ level, motive m level) → motive n .unary → motive n .power)
    (term : ∀ n, motive n .power → motive n .term)
    (expression : ∀ n, motive n .term → motive n .expression)
    (n : Nat) (level : Level) : motive n level := by
  induction n using Nat.strongRecOn generalizing level with
  | _ n ih =>
      -- at one number the levels are taken from the tightest to the loosest
      have hatom := atom n ih
      have hunary := unary n ih hatom
      have hpower := power n ih hunary
      have hterm := term n hpower
      cases level with
      | expression => exact expression n hterm
      | term => exact hterm
      | power => exact hpower
      | unary => exact hunary
      | atom => exact hatom

end Level

end RatExpr
