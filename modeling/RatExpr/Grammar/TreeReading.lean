import RatExpr.Grammar.Tree

set_option autoImplicit false

/-! # Reading a tree

A level reads the tokens of each of its trees and is worth what the tree is worth. The main
statement, `Level.readAt_tokens`, holds for any tokens after those of the tree that end its
last operand (`Level.Delimited`): the reader then goes on from the value of the tree as the
level goes on after an operand (`Level.goOn`), which for a chain of operators means looking
for the next operator. Where the tree has no value, reading fails with the same error.
-/

namespace RatExpr

/-! ## Readings of a known outcome -/

/-- The reading `r` of something that is worth `x`: it fails with the error of `x`, or is
what `next` makes of the value. -/
def Reading.Of (r : Reading) (x : Except EvalError Rat) (next : Rat → Reading) : Prop :=
  match x with
  | .error e => r.value = .error e
  | .ok v => r = next v

namespace Reading

theorem Of.andThen {r : Reading} {x : Except EvalError Rat} {ts : List Token}
    (h : r.Of x fun v => ⟨.ok v, ts⟩) (next : Rat → List Token → Reading) :
    (r.andThen next).Of x fun v => next v ts := by
  cases x with
  | error e =>
      have hr : r.value = .error e := h
      simp [Of, Reading.andThen, hr]
  | ok v =>
      have hr : r = ⟨.ok v, ts⟩ := h
      simp [Of, Reading.andThen, hr]

theorem Of.map {r : Reading} {x : Except EvalError Rat} {ts : List Token}
    (h : r.Of x fun v => ⟨.ok v, ts⟩) (f : Rat → Rat) :
    (r.mapValue fun v => v.map f).Of (x.map f) fun v => ⟨.ok v, ts⟩ := by
  cases x with
  | error e =>
      have hr : r.value = .error e := h
      simp [Of, mapValue, hr, Except.map]
  | ok v =>
      have hr : r = ⟨.ok v, ts⟩ := h
      simp [Of, mapValue, hr, Except.map]

/-- The reading of a right operand becomes the reading of the operator applied. -/
theorem Of.combine {r : Reading} {x : Except EvalError Rat} {ts : List Token}
    (h : r.Of x fun v => ⟨.ok v, ts⟩) (limits : Limits) (op : BinaryOp) (pos : Nat) (a : Rat) :
    (r.mapValue (op.combine limits pos a)).Of (op.combine limits pos a x)
      fun v => ⟨.ok v, ts⟩ := by
  cases x with
  | error e =>
      have hr : r.value = .error e := h
      simp [Of, mapValue, hr, BinaryOp.combine]
  | ok v =>
      have hr : r = ⟨.ok v, ts⟩ := h
      subst hr
      simp only [mapValue, BinaryOp.combine]
      cases op.apply limits pos a v with
      | error e => rfl
      | ok w => rfl

/-- An operand and what is made of its value afterwards. -/
theorem Of.bind {r : Reading} {x : Except EvalError Rat} {y : Rat → Except EvalError Rat}
    {next next' : Rat → Reading} (h : r.Of x next) (hnext : ∀ a, (next a).Of (y a) next') :
    r.Of (x.bind y) next' := by
  cases x with
  | error e => exact h
  | ok a =>
      have hr : r = next a := h
      rw [hr]
      exact hnext a

/-- A chain passes its operator, reads the right operand and goes on. -/
theorem Of.chain {ctx : Context} {operator? : Token.Kind → Option BinaryOp}
    {operand : Reader} {r : Reading} {x y : Except EvalError Rat} {t : Token}
    {op : BinaryOp} {ts rest : List Token} (ht : operator? t.kind = some op)
    (hleft : r.Of x fun v => chainFrom ctx operator? operand v (t :: ts))
    (hright : (operand.run ts).Of y fun v => ⟨.ok v, rest⟩) :
    r.Of (x.bind fun a => op.combine ctx.limits t.pos a y)
      fun v => chainFrom ctx operator? operand v rest :=
  hleft.bind fun a => by
    rw [chainFrom_cons_of_some ctx _ a _ ht]
    exact (hright.combine ctx.limits op t.pos a).andThen _

end Reading

/-! ## What may follow -/

theorem BinaryOp.ne_power_of_multiplicative {kind : Token.Kind} {op : BinaryOp}
    (h : multiplicative? kind = some op) : kind ≠ .power := by
  rintro rfl
  simp [multiplicative?] at h

theorem BinaryOp.ne_power_of_additive {kind : Token.Kind} {op : BinaryOp}
    (h : additive? kind = some op) : kind ≠ .power := by
  rintro rfl
  simp [additive?] at h

/-- A token is an operator of one level at most. -/
theorem BinaryOp.multiplicative_eq_none_of_additive {kind : Token.Kind} {op : BinaryOp}
    (h : additive? kind = some op) : multiplicative? kind = none := by
  cases kind <;> simp_all [additive?, multiplicative?]

namespace Level

/-- The tokens `ts` end the last operand at a level: the first of them is no operator that
binds tighter than those of the level. -/
def Delimited : Level → List Token → Prop
  | expression, t :: _ => BinaryOp.multiplicative? t.kind = none ∧ t.kind ≠ .power
  | term, t :: _ | power, t :: _ => t.kind ≠ .power
  | _, _ => True

theorem Delimited.power_of_term {ts : List Token} (h : Delimited term ts) :
    Delimited power ts := by
  cases ts with
  | nil => trivial
  | cons t ts => exact h

theorem Delimited.term_of_expression {ts : List Token} (h : Delimited expression ts) :
    Delimited term ts := by
  cases ts with
  | nil => trivial
  | cons t ts => exact h.2

/-- How a level goes on after an operand of value `v`. Only chains of operators go on. -/
def goOn (ctx : Context) (inner : Inner) : Level → Rat → List Token → Reading
  | term, v, ts => chainFrom ctx BinaryOp.multiplicative? (powerReader ctx inner) v ts
  | expression, v, ts =>
      chainFrom ctx BinaryOp.additive?
        (chain ctx BinaryOp.multiplicative? (powerReader ctx inner)) v ts
  | _, v, ts => ⟨.ok v, ts⟩

/-- A term is over before tokens that end the operands of an expression. -/
theorem goOn_term_of_delimited (ctx : Context) (inner : Inner) (v : Rat) {ts : List Token}
    (h : Delimited expression ts) : goOn ctx inner term v ts = ⟨.ok v, ts⟩ := by
  cases ts with
  | nil => exact chainFrom_nil ctx _ _ v
  | cons t ts => exact chainFrom_cons_of_none ctx _ v ts h.1

/-- There is no exponent before tokens that end a power. -/
theorem exponent_of_delimited (ctx : Context) (inner : Inner) (v : Rat) {ts : List Token}
    (h : Delimited power ts) : exponent ctx inner v ts = ⟨.ok v, ts⟩ := by
  cases ts with
  | nil => rfl
  | cons t ts =>
      have ht : t.kind ≠ .power := h
      simp [exponent, ht]

/-- An atom does not start with a sign. -/
theorem unaryRun_of_atom (ctx : Context) (inner : Inner) (tree : Tree .atom) (ts : List Token) :
    unaryRun ctx inner (tree.tokens ++ ts) = atomRun ctx inner (tree.tokens ++ ts) := by
  cases tree with
  | number t ht => simp [Tree.tokens, unaryRun, ht, Sign.ofKind?, atomReader]
  | group opening inside closing ho hc =>
      simp [Tree.tokens, unaryRun, ho, Sign.ofKind?, atomReader]

/-! ## The reader of a tree -/

/-- **A level reads each of its trees as it is worth,** and goes on from there. -/
theorem readAt_tokens (ctx : Context) {level : Level} (tree : Tree level) (room : Nat)
    (rest : List Token) (hrest : Delimited level rest) :
    ((readAt ctx room level).run (tree.tokens ++ rest)).Of (tree.value ctx.limits room)
      fun v => goOn ctx (innerAt ctx room) level v rest := by
  induction tree generalizing room rest with
  | number t ht =>
      simp only [Tree.tokens, readAt, reader, atomReader, List.cons_append, List.nil_append,
        atomRun, ht, Tree.value]
      cases Literal.evaluate t.text t.pos with
      | error e => rfl
      | ok v => rfl
  | group opening inside closing ho hc ih =>
      simp only [Tree.tokens, readAt, reader, atomReader, List.cons_append, List.append_assoc,
        List.nil_append, atomRun, ho, Tree.value]
      rw [nested_innerAt]
      cases room with
      | zero => rfl
      | succ room =>
          have hmul : BinaryOp.multiplicative? closing.kind = none := by rw [hc]; rfl
          have hadd : BinaryOp.additive? closing.kind = none := by rw [hc]; rfl
          -- the expression inside is over before the closing parenthesis
          have hover : (fun v => goOn ctx (innerAt ctx room) expression v (closing :: rest)) =
              fun v => ⟨.ok v, closing :: rest⟩ :=
            funext fun v => chainFrom_cons_of_none ctx _ v rest hadd
          have hin := ih room (closing :: rest) ⟨hmul, by rw [hc]; decide⟩
          rw [hover] at hin
          have hclosed := hin.andThen (close ctx opening.pos)
          simp only [close, hc, if_true] at hclosed
          exact hclosed
  | unsigned operand ih =>
      have hop := ih room rest trivial
      show (unaryRun ctx (innerAt ctx room) (operand.tokens ++ rest)).Of _ _
      rw [unaryRun_of_atom]
      exact hop
  | signed t sign operand ht ih =>
      simp only [Tree.tokens, readAt, reader, unaryReader, List.cons_append, unaryRun, ht,
        Tree.value]
      rw [nested_innerAt]
      cases room with
      | zero => rfl
      | succ room => exact (ih room rest trivial).map sign.apply
  | unraised operand ih =>
      have hop := (ih room rest trivial).andThen (exponent ctx (innerAt ctx room))
      simp only [exponent_of_delimited ctx _ _ hrest] at hop
      exact hop
  | raised base t exp ht ihb ihe =>
      have hbase := (ihb room (t :: (exp.tokens ++ rest)) trivial).andThen
        (exponent ctx (innerAt ctx room))
      have hexp (b : Rat) :
          (exponent ctx (innerAt ctx room) b (t :: (exp.tokens ++ rest))).Of
            (Tree.nestedValue ctx.limits room t.pos fun room =>
              BinaryOp.pow.combine ctx.limits t.pos b (exp.value ctx.limits room))
            fun v => ⟨.ok v, rest⟩ := by
        simp only [exponent, ht, if_true]
        rw [nested_innerAt]
        cases room with
        | zero => rfl
        | succ room => exact (ihe room rest hrest).combine ctx.limits .pow t.pos b
      simp only [Tree.tokens, Tree.value_raised ht, List.append_assoc, List.cons_append]
      exact hbase.bind hexp
  | factor operand ih =>
      exact (ih room rest hrest.power_of_term).andThen
        (chainFrom ctx BinaryOp.multiplicative? (powerReader ctx (innerAt ctx room)))
  | product left t op right ht ihl ihr =>
      have hleft := ihl room (t :: (right.tokens ++ rest))
        (BinaryOp.ne_power_of_multiplicative ht)
      simp only [Tree.tokens, Tree.value_product ht, List.append_assoc, List.cons_append]
      exact hleft.chain ht (ihr room rest hrest.power_of_term)
  | summand operand ih =>
      have hop := ih room rest hrest.term_of_expression
      simp only [goOn_term_of_delimited ctx _ _ hrest] at hop
      exact hop.andThen (goOn ctx (innerAt ctx room) expression)
  | sum left t op right ht ihl ihr =>
      have hleft := ihl room (t :: (right.tokens ++ rest))
        ⟨BinaryOp.multiplicative_eq_none_of_additive ht, BinaryOp.ne_power_of_additive ht⟩
      -- the right operand is a term, which is over before the rest
      have hright := ihr room rest hrest.term_of_expression
      simp only [goOn_term_of_delimited ctx _ _ hrest] at hright
      simp only [Tree.tokens, Tree.value_sum ht, List.append_assoc, List.cons_append]
      exact hleft.chain ht hright

end Level

end RatExpr
