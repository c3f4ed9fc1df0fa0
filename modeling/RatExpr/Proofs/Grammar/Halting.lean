import RatExpr.Proofs.Grammar.Calls
import RatExpr.Proofs.Grammar.Report
import RatExpr.Proofs.Grammar.Verdict

set_option autoImplicit false

/-! # Where an error leaves a parser

A call that fails has stopped somewhere, and the next one goes on from there. What the error is says
where that is (`EvalError.Halts`). A token that cannot stand where it does is still the current one.
A number that is none, and a token that opens one level of nesting too many, have just been passed.
An operator that is not defined on its operands has been passed with all of its right operand.

The context of a right operand or of a parenthesis does not change where a reading stops, so only
the root of an error counts. The main statements are `Level.halts_readAt` for a level and
`Machine.error_halts` for any call after any others.
-/

namespace RatExpr

/-! ## The last token of an operand -/

/-- An operand ends with a number or with a closing parenthesis. -/
def Token.Kind.EndsOperand (kind : Token.Kind) : Prop := kind = .number ∨ kind = .rightParen

theorem Tree.exists_last {level : Level} (tree : Tree level) :
    ∃ last, [last] <:+ tree.tokens ∧ last.kind.EndsOperand := by
  -- the last token of a tree is that of its last part
  have hright : ∀ {ts us : List Token}, (∃ last, [last] <:+ us ∧ last.kind.EndsOperand) →
      us <:+ ts → ∃ last, [last] <:+ ts ∧ last.kind.EndsOperand :=
    fun ⟨last, hlast, hkind⟩ hsuffix => ⟨last, hlast.trans hsuffix, hkind⟩
  induction tree with
  | number t ht => exact ⟨t, List.suffix_rfl, Or.inl ht⟩
  | group opening inside closing ho hc =>
      refine ⟨closing, ?_, Or.inr hc⟩
      exact (List.suffix_append inside.tokens [closing]).trans (List.suffix_cons opening _)
  | unsigned operand ih => exact ih
  | signed t sign operand ht ih => exact hright ih (List.suffix_cons t _)
  | unraised operand ih => exact ih
  | raised base t exponent ht _ ih =>
      exact hright ih ((List.suffix_cons t _).trans (List.suffix_append base.tokens _))
  | factor operand ih => exact ih
  | product left t op right ht _ ih =>
      exact hright ih ((List.suffix_cons t _).trans (List.suffix_append left.tokens _))
  | summand operand ih => exact ih
  | sum left t op right ht _ ih =>
      exact hright ih ((List.suffix_cons t _).trans (List.suffix_append left.tokens _))

/-! ## Where errors stop -/

/-- The error, which has no cause, stops a reading after the tokens `passed` and before the token
`t`. -/
inductive EvalError.Halts (limits : Limits) (passed : List Token) (t : Token) : EvalError → Prop
  /-- The current token is the one that cannot stand where it does. -/
  | blamed {e : EvalError} (he : e.Blames t) : Halts limits passed t e
  /-- The last token passed is the number. -/
  | number {num : Token} (hkind : num.kind = .number) (hlast : [num] <:+ passed) :
      Halts limits passed t (.invalidNumber num.text num.pos)
  /-- The last token passed is the one that opens a level of nesting. -/
  | tooDeep {opening : Token} (hkind : opening.kind.Nests) (hlast : [opening] <:+ passed) :
      Halts limits passed t (.tooDeep limits.maxDepth opening.pos)
  /-- The operator has been passed, and after it the whole right operand: nothing that comes next
  belongs to it. -/
  | fault {op : BinaryOp} {operator last : Token} {right : Tree .power} {e : EvalError}
      (hkind : operator.kind = op.kind) (he : op.Fault limits operator.pos e)
      (hpassed : operator :: right.tokens <:+ passed) (hlast : [last] <:+ passed)
      (hlastKind : last.kind.EndsOperand) (ht : t.kind ≠ .power) : Halts limits passed t e

/-- More tokens may have been passed before. -/
theorem EvalError.Halts.of_suffix {limits : Limits} {passed passed' : List Token} {t : Token}
    {e : EvalError} (h : Halts limits passed' t e) (hsuffix : passed' <:+ passed) :
    Halts limits passed t e := by
  cases h with
  | blamed he => exact .blamed he
  | number hkind hlast => exact .number hkind (hlast.trans hsuffix)
  | tooDeep hkind hlast => exact .tooDeep hkind (hlast.trans hsuffix)
  | fault hkind he hpassed hlast hlastKind ht =>
      exact .fault hkind he (hpassed.trans hsuffix) (hlast.trans hsuffix) hlastKind ht

/-- The error of an operator has no cause. -/
theorem BinaryOp.Fault.root_eq {limits : Limits} {pos : Nat} {op : BinaryOp} {e : EvalError}
    (h : op.Fault limits pos e) : e.root = e := by
  cases h <;> rfl

/-- Sums and differences have a value. -/
theorem BinaryOp.Fault.ne_additive {limits : Limits} {pos : Nat} {op : BinaryOp} {e : EvalError}
    (h : op.Fault limits pos e) (kind : Token.Kind) : additive? kind ≠ some op := by
  cases h <;> cases kind <;> simp [additive?]

/-! ## Readings -/

/-- If the reading of `ts` fails, then it has stopped where the root of its error says. -/
def Reading.Halts (ctx : Context) (ts : List Token) (r : Reading) : Prop :=
  ∀ e, r.value = .error e →
    ∃ passed, ts = passed ++ r.rest ∧ e.root.Halts ctx.limits passed (ctx.next r.rest)

/-- The reader stops where the roots of its errors say. -/
def Reader.Halts (ctx : Context) (reader : Reader) : Prop := ∀ ts, (reader.run ts).Halts ctx ts

namespace Reading

variable {ctx : Context} {ts rest : List Token} {r : Reading}

theorem halts_ok (v : Rat) : Halts ctx ts ⟨.ok v, rest⟩ := by
  intro e he
  exact absurd he (by simp)

theorem halts_error {e : EvalError} (passed : List Token) (hts : ts = passed ++ rest)
    (h : e.root.Halts ctx.limits passed (ctx.next rest)) : Halts ctx ts ⟨.error e, rest⟩ := by
  rintro e' ⟨⟩
  exact ⟨passed, hts, h⟩

/-- Nothing has been passed of tokens that do not start as expected. -/
theorem halts_unexpected (expected : Expected) (ts : List Token) :
    Halts ctx ts ⟨.error (ctx.unexpected expected ts), ts⟩ := by
  refine halts_error [] rfl (.blamed ?_)
  rw [ctx.unexpected_eq, EvalError.root_unexpected]
  exact EvalError.blames_unexpected expected (ctx.next ts)

theorem Halts.of_suffix (h : r.Halts ctx rest) (hrest : rest <:+ ts) : r.Halts ctx ts := by
  intro e he
  obtain ⟨before, rfl⟩ := hrest
  obtain ⟨passed, rfl, hhalts⟩ := h e he
  exact ⟨before ++ passed, (List.append_assoc _ _ _).symm,
    hhalts.of_suffix (List.suffix_append before passed)⟩

theorem Halts.andThen {next : Rat → List Token → Reading} (h : r.Halts ctx ts)
    (hrest : r.rest <:+ ts) (hnext : ∀ v, (next v r.rest).Halts ctx r.rest) :
    (r.andThen next).Halts ctx ts := by
  obtain ⟨value, rest⟩ := r
  cases value with
  | error e => exact h
  | ok v => exact (hnext v).of_suffix hrest

/-- The right operand fails, or it has been read to its end and the operator fails. -/
theorem Halts.combine {t : Token} {op : BinaryOp} (h : r.Halts ctx ts)
    (hfault : ∀ b e, r.value = .ok b → op.Fault ctx.limits t.pos e →
      ∃ passed, t :: ts = passed ++ r.rest ∧ e.Halts ctx.limits passed (ctx.next r.rest))
    (a : Rat) : (r.mapValue (op.combine ctx.limits t.pos a)).Halts ctx (t :: ts) := by
  obtain ⟨value, rest⟩ := r
  cases value with
  | error e =>
      -- the context of the operand is not the root of its error
      obtain ⟨passed, hts, hhalts⟩ := (h.of_suffix (List.suffix_cons t ts)) e rfl
      exact halts_error passed hts hhalts
  | ok b =>
      intro e he
      have hop : op.Fault ctx.limits t.pos e := BinaryOp.fault_of_apply he
      rw [hop.root_eq]
      exact hfault b e rfl hop

end Reading

/-! ## Loops -/

section

variable {ctx : Context} {operator? : Token.Kind → Option BinaryOp} {operand : Reader}

/-- The reader stops where the roots of its errors say if it reads the right operand of one of the
operators, also if that operator fails. -/
def Reader.HaltsAsOperand (ctx : Context) (operator? : Token.Kind → Option BinaryOp)
    (operand : Reader) : Prop :=
  ∀ (t : Token) (ts : List Token) (op : BinaryOp) (a : Rat), operator? t.kind = some op →
    ((operand.run ts).mapValue (op.combine ctx.limits t.pos a)).Halts ctx (t :: ts)

theorem chainFrom_halts (h : operand.HaltsAsOperand ctx operator?) (a : Rat) (ts : List Token) :
    (chainFrom ctx operator? operand a ts).Halts ctx ts := by
  fun_induction chainFrom ctx operator? operand a ts with
  | case1 a => exact Reading.halts_ok a
  | case2 a t ts ht => exact Reading.halts_ok a
  | case3 a t ts op ht right e he =>
      obtain ⟨passed, hts, hhalts⟩ := h t ts op a ht e he
      exact Reading.halts_error passed hts hhalts
  | case4 a t ts op ht right b hb ih =>
      exact ih.of_suffix ((operand.rest_suffix ts).trans (List.suffix_cons t ts))

theorem chain_halts (hoperand : operand.Halts ctx) (h : operand.HaltsAsOperand ctx operator?) :
    (chain ctx operator? operand).Halts ctx :=
  fun ts => (hoperand ts).andThen (operand.rest_suffix ts) fun v => chainFrom_halts h v _

end

/-! ## Every level -/

namespace Level

variable {ctx : Context} {room : Nat} {t : Token} {ts : List Token}

/-- A right operand that has a value has been passed to its end, when its operator fails. -/
theorem fault_halts {op : BinaryOp} {b : Rat} {e : EvalError}
    (hvalue : ((readAt ctx room power).run ts).value = .ok b) (hkind : t.kind = op.kind)
    (he : op.Fault ctx.limits t.pos e) :
    ∃ passed, t :: ts = passed ++ ((readAt ctx room power).run ts).rest ∧
      e.Halts ctx.limits passed (ctx.next ((readAt ctx room power).run ts).rest) := by
  generalize hrest : ((readAt ctx room power).run ts).rest = rest
  obtain ⟨right, rfl, -, hover⟩ := faithful ctx room power ts b rest (by rw [← hvalue, ← hrest])
  obtain ⟨last, hlast, hlastKind⟩ := right.exists_last
  have hnext : (ctx.next rest).kind ≠ .power := by
    cases rest with
    | nil =>
        show Token.Kind.eof ≠ .power
        decide
    | cons u us => exact hover
  exact ⟨t :: right.tokens, rfl, .fault hkind he List.suffix_rfl
    (hlast.trans (List.suffix_cons t right.tokens)) hlastKind hnext⟩

theorem haltsAsOperand_multiplicative (h : (readAt ctx room power).Halts ctx) :
    (readAt ctx room power).HaltsAsOperand ctx BinaryOp.multiplicative? :=
  fun _ ts _ a ht => (h ts).combine
    (fun _ _ hvalue he => fault_halts hvalue (BinaryOp.kind_of_multiplicative ht) he) a

/-- Sums and differences do not fail by themselves. -/
theorem haltsAsOperand_additive {operand : Reader} (h : operand.Halts ctx) :
    operand.HaltsAsOperand ctx BinaryOp.additive? :=
  fun t ts _ a ht => (h ts).combine (fun _ _ _ he => absurd ht (he.ne_additive t.kind)) a

/-- A token that opens too much nesting has been passed. -/
theorem nested_halts {level : Level} (ht : t.kind.Nests) {after : Reading → Reading}
    (hafter : ∀ inside, room = inside + 1 →
      (after ((readAt ctx inside level).run ts)).Halts ctx (t :: ts)) :
    (nested ctx (innerAt ctx room) level t.pos after ts).Halts ctx (t :: ts) := by
  rw [nested_innerAt]
  cases room with
  | zero => exact Reading.halts_error [t] rfl (.tooDeep ht List.suffix_rfl)
  | succ inside => exact hafter inside rfl

theorem close_halts (opening : Nat) (v : Rat) (ts : List Token) :
    (close ctx opening v ts).Halts ctx ts := by
  have hunclosed : Reading.Halts ctx ts
      ⟨.error (.unclosedParen opening (ctx.unexpected .closingParen ts)), ts⟩ := by
    have hunexpected : Reading.Halts ctx ts ⟨.error (ctx.unexpected .closingParen ts), ts⟩ :=
      Reading.halts_unexpected .closingParen ts
    obtain ⟨passed, hts, hhalts⟩ := hunexpected _ rfl
    exact Reading.halts_error passed hts hhalts
  cases ts with
  | nil => exact hunclosed
  | cons t ts =>
      simp only [close]
      split
      · exact Reading.halts_ok v
      · exact hunclosed

theorem atom_halts (hin : ∀ inside, room = inside + 1 → (readAt ctx inside expression).Halts ctx) :
    (readAt ctx room atom).Halts ctx := by
  intro ts
  show (atomRun ctx (innerAt ctx room) ts).Halts ctx ts
  cases ts with
  | nil => exact Reading.halts_unexpected .operand []
  | cons t ts =>
      cases hkind : t.kind with
      | number =>
          simp only [atomRun, hkind]
          intro e he
          rw [Literal.evaluate_error he]
          exact ⟨[t], rfl, .number hkind List.suffix_rfl⟩
      | leftParen =>
          simp only [atomRun, hkind]
          refine nested_halts (Or.inl hkind) fun inside hroom => ?_
          exact ((hin inside hroom ts).andThen ((readAt ctx inside expression).rest_suffix ts)
            fun v => close_halts t.pos v _).of_suffix (List.suffix_cons t ts)
      | _ =>
          simp only [atomRun, hkind]
          exact Reading.halts_unexpected .operand (t :: ts)

theorem unary_halts (hatom : (readAt ctx room atom).Halts ctx)
    (hin : ∀ inside, room = inside + 1 → (readAt ctx inside unary).Halts ctx) :
    (readAt ctx room unary).Halts ctx := by
  intro ts
  cases ts with
  | nil => exact hatom []
  | cons t ts =>
      show (unaryRun ctx (innerAt ctx room) (t :: ts)).Halts ctx (t :: ts)
      cases hsign : Sign.ofKind? t.kind with
      | none =>
          simp only [unaryRun, hsign]
          exact hatom (t :: ts)
      | some sign =>
          simp only [unaryRun, hsign]
          refine nested_halts (Or.inr (Or.inr ⟨sign, hsign⟩)) fun inside hroom e he => ?_
          -- a sign changes no error
          cases hvalue : ((readAt ctx inside unary).run ts).value with
          | error e' =>
              simp only [Reading.mapValue, hvalue, Except.map, Except.error.injEq] at he
              exact (hin inside hroom ts).of_suffix (List.suffix_cons t ts) e (he ▸ hvalue)
          | ok v => simp [Reading.mapValue, hvalue, Except.map] at he

theorem power_halts (hunary : (readAt ctx room unary).Halts ctx)
    (hin : ∀ inside, room = inside + 1 → (readAt ctx inside power).Halts ctx) :
    (readAt ctx room power).Halts ctx := by
  intro ts
  refine (hunary ts).andThen ((readAt ctx room unary).rest_suffix ts) fun b => ?_
  cases ((readAt ctx room unary).run ts).rest with
  | nil => exact Reading.halts_ok b
  | cons t rest =>
      simp only [exponent]
      split
      · rename_i ht
        have hkind : t.kind = BinaryOp.pow.kind := ht
        refine nested_halts (Or.inr (Or.inl ht)) fun inside hroom => ?_
        exact (hin inside hroom rest).combine
          (fun _ _ hvalue he => fault_halts hvalue hkind he) b
      · exact Reading.halts_ok b

/-- **Every level stops where its error says,** however much nesting is allowed. -/
theorem halts_readAt (ctx : Context) (room : Nat) (level : Level) :
    (readAt ctx room level).Halts ctx := by
  induction room, level using grammar_induction with
  | atom room hin => exact atom_halts fun inside hroom => hin inside (by omega) expression
  | unary room hin hatom =>
      exact unary_halts hatom fun inside hroom => hin inside (by omega) unary
  | power room hin hunary =>
      exact power_halts hunary fun inside hroom => hin inside (by omega) power
  | term room hpower => exact chain_halts hpower (haltsAsOperand_multiplicative hpower)
  | expression room hterm => exact chain_halts hterm (haltsAsOperand_additive hterm)

end Level

/-! ## Calls -/

/-- A call stops where its error says. If it is about a token after the expression, that token is
the current one. -/
theorem Parser.perform_halts (p : Parser) (call : Call) :
    Reading.Halts p.context p.rest ⟨(p.perform call).1, (p.perform call).2.rest⟩ := by
  have hread : Reading.Halts p.context p.rest ⟨p.expression.1, p.expression.2.rest⟩ :=
    Level.halts_readAt p.context p.context.limits.maxDepth .expression p.rest
  cases call with
  | expression => exact hread
  | complete =>
      show Reading.Halts p.context p.rest ⟨p.complete.1, p.complete.2.rest⟩
      rw [complete_snd]
      cases hvalue : p.expression.1 with
      | error e =>
          rw [complete_of_error hvalue, ← hvalue]
          exact hread
      | ok v =>
          rcases complete_of_ok hvalue with ⟨-, hok⟩ | ⟨t, rest, hrest, ht, herror⟩
          · rw [hok]
            exact Reading.halts_ok v
          · obtain ⟨passed, hpassed⟩ := p.expression_rest_suffix
            rw [herror]
            refine Reading.halts_error passed hpassed.symm (.blamed ?_)
            rw [hrest]
            exact ⟨ht, rfl⟩

namespace Machine

/-- **An error says where its call has stopped.** After any calls, whatever they have come to, a
call passes some of the tokens from the cursor on. If it fails, then the root of its error is about
the current token, which has not been passed, or about the last one passed, or about the operator
that has been passed with its right operand. -/
theorem error_halts (limits : Limits) (ts : List Token) (calls : List Parser.Call) :
    ∃ outcomes c, (ofTokens limits ts).performAll calls =
        .ok (outcomes, (ofTokens limits ts).withCursor c) ∧
      ∀ call, ∃ outcome c', ((ofTokens limits ts).withCursor c).perform call =
          .ok (outcome, (ofTokens limits ts).withCursor c') ∧
        ∀ e, outcome = .error e → ∃ passed, ts.drop c = passed ++ ts.drop c' ∧
          e.root.Halts limits passed ((ofTokens limits ts).withCursor c').current := by
  obtain ⟨outcomes, c, hc, hmachine, -⟩ := performAll_eq limits ts calls (Nat.zero_le _)
  refine ⟨outcomes, c, hmachine, fun call => ?_⟩
  obtain ⟨outcome, moved, hmoved, hcall, hparser, -⟩ := perform_step limits ts call hc
  refine ⟨outcome, c + moved, hcall, fun e he => ?_⟩
  have hhalts := Parser.perform_halts ⟨⟨limits, Parser.endOf ts⟩, ts.drop c⟩ call
  rw [hparser] at hhalts
  rw [current_eq_next limits ts hmoved]
  exact hhalts e he

/-- The second call fails at a division by zero. It has passed the zero, and the number after it is
the current token. -/
theorem error_halts_divided : ∃ first second,
    (ofTokens {} [⟨.number, "2", 0⟩, ⟨.number, "7", 1⟩, ⟨.slash, "/", 2⟩, ⟨.number, "0", 3⟩,
      ⟨.number, "5", 4⟩]).performAll [.expression] = .ok ([.ok 2], first) ∧ first.cursor = 1 ∧
    first.perform .expression = .ok (.error (.divisionByZero 2), second) ∧ second.cursor = 4 ∧
    second.current = ⟨.number, "5", 4⟩ ∧
    (EvalError.divisionByZero 2).Halts {}
      [⟨.number, "7", 1⟩, ⟨.slash, "/", 2⟩, ⟨.number, "0", 3⟩] second.current := by
  obtain ⟨outcomes, c, hcalls, hcall⟩ := error_halts {} [⟨.number, "2", 0⟩, ⟨.number, "7", 1⟩,
    ⟨.slash, "/", 2⟩, ⟨.number, "0", 3⟩, ⟨.number, "5", 4⟩] [.expression]
  have hfirst : (ofTokens {} [⟨.number, "2", 0⟩, ⟨.number, "7", 1⟩, ⟨.slash, "/", 2⟩,
      ⟨.number, "0", 3⟩, ⟨.number, "5", 4⟩]).performAll [.expression] =
      .ok ([.ok 2], (ofTokens {} [⟨.number, "2", 0⟩, ⟨.number, "7", 1⟩, ⟨.slash, "/", 2⟩,
        ⟨.number, "0", 3⟩, ⟨.number, "5", 4⟩]).withCursor 1) := by
    decide +kernel
  obtain rfl : c = 1 :=
    congrArg (fun r => r.2.cursor) (Except.ok.inj (hcalls.symm.trans hfirst))
  obtain ⟨outcome, c', hsecond, hhalts⟩ := hcall .expression
  have hrun : ((ofTokens {} [⟨.number, "2", 0⟩, ⟨.number, "7", 1⟩, ⟨.slash, "/", 2⟩,
      ⟨.number, "0", 3⟩, ⟨.number, "5", 4⟩]).withCursor 1).perform .expression =
      .ok (.error (.divisionByZero 2), (ofTokens {} [⟨.number, "2", 0⟩, ⟨.number, "7", 1⟩,
        ⟨.slash, "/", 2⟩, ⟨.number, "0", 3⟩, ⟨.number, "5", 4⟩]).withCursor 4) := by
    decide +kernel
  obtain ⟨rfl, hmachine⟩ := Prod.mk.inj (Except.ok.inj (hsecond.symm.trans hrun))
  obtain rfl : c' = 4 := congrArg Machine.cursor hmachine
  obtain ⟨passed, hpassed, hhalted⟩ := hhalts _ rfl
  -- the tokens between the two cursors have been passed
  have hsplit : [⟨.number, "7", 1⟩, ⟨.slash, "/", 2⟩, (⟨.number, "0", 3⟩ : Token)] ++
      [⟨.number, "5", 4⟩] = passed ++ [⟨.number, "5", 4⟩] := hpassed
  obtain rfl := List.append_cancel_right hsplit
  exact ⟨_, _, hfirst, rfl, hrun, rfl, rfl, hhalted⟩

end Machine

end RatExpr
