import RatExpr.Grammar.Parser

set_option autoImplicit false

/-! # Reading two lists of tokens in step

Two lists of tokens are aligned if a reader finds the same in them, token by token, apart from
the positions (`Alignment`). They need not be known to the end: what is lost has tokens of which
nothing is known, and nothing is said of a reading that comes to them.

Readings of aligned lists stay in step (`Alignment.InStep`): they have the same value or the same
error, with its positions moved as those of the tokens are, and leave aligned lists. The relation
goes through every part of the readers; the main statement is `Alignment.perform_inStep`.
-/

namespace RatExpr

/-! ## Moving positions -/

/-- The token at another position. -/
def Token.move (f : Nat → Nat) (t : Token) : Token := { t with pos := f t.pos }

@[simp] theorem Token.kind_move (f : Nat → Nat) (t : Token) : (t.move f).kind = t.kind := rfl

namespace EvalError

/-- The error, with all its positions and those of its causes moved. -/
def move (f : Nat → Nat) : EvalError → EvalError
  | illegalToken fragment pos => illegalToken fragment (f pos)
  | invalidNumber text pos => invalidNumber text (f pos)
  | unexpectedEnd pos expected => unexpectedEnd (f pos) expected
  | unexpectedToken token expected => unexpectedToken (token.move f) expected
  | unclosedParen opening cause => unclosedParen (f opening) (cause.move f)
  | trailingToken token => trailingToken (token.move f)
  | operand op pos cause => operand op (f pos) (cause.move f)
  | divisionByZero pos => divisionByZero (f pos)
  | moduloByZero pos => moduloByZero (f pos)
  | moduloNotInteger pos => moduloNotInteger (f pos)
  | tooDeep max pos => tooDeep max (f pos)
  | side s text cause => side s text (cause.move f)
  | e => e

theorem unexpected_move (f : Nat → Nat) (expected : Expected) (t : Token) :
    unexpected expected (t.move f) = (unexpected expected t).move f := by
  have hkind : (t.move f).kind = t.kind := rfl
  by_cases ht : t.kind = .eof
  · rw [unexpected, unexpected, if_pos ht, if_pos (hkind.trans ht)]
    rfl
  · rw [unexpected, unexpected, if_neg ht, if_neg (hkind ▸ ht)]
    rfl

theorem move_id (e : EvalError) : e.move id = e := by
  induction e with
  | unclosedParen opening cause ih => rw [move, ih, id]
  | operand op pos cause ih => rw [move, ih, id]
  | side s text cause ih => rw [move, ih]
  | _ => rfl

end EvalError

/-- The outcome, with the positions of an error moved. -/
def moveOutcome (f : Nat → Nat) (x : Except EvalError Rat) : Except EvalError Rat :=
  x.mapError (EvalError.move f)

theorem moveOutcome_id (x : Except EvalError Rat) : moveOutcome id x = x := by
  cases x with
  | error e => exact congrArg Except.error e.move_id
  | ok v => rfl

section

variable (f : Nat → Nat) (limits : Limits)

/-- The error of a number is at its position. -/
theorem Literal.evaluate_move (text : String) (pos : Nat) :
    evaluate text (f pos) = moveOutcome f (evaluate text pos) := by
  unfold evaluate
  split <;> rfl

/-- An error of a power has no position. -/
theorem Fraction.power_move (base : Fraction) (exponent : Rat) :
    base.power limits exponent = moveOutcome f (base.power limits exponent) := by
  simp only [power]
  repeat' split
  all_goals rfl

theorem BinaryOp.apply_move (op : BinaryOp) (pos : Nat) (a b : Rat) :
    op.apply limits (f pos) a b = moveOutcome f (op.apply limits pos a b) := by
  cases op with
  | div =>
      simp only [apply]
      split <;> rfl
  | mod =>
      simp only [apply, modulo]
      split
      · rfl
      · split <;> rfl
  | pow => exact Fraction.power_move f limits _ b
  | _ => rfl

/-- **Where an operator stands only shows in the positions of its errors.** -/
theorem BinaryOp.combine_move (op : BinaryOp) (pos : Nat) (a : Rat) (x : Except EvalError Rat) :
    op.combine limits (f pos) a (moveOutcome f x) = moveOutcome f (op.combine limits pos a x) := by
  cases x with
  | error e => rfl
  | ok b => exact apply_move f limits op pos a b

end

/-! ## At the end -/

section

variable (ctx : Context) (inner : Inner) {ts : List Token}

open RatExpr.Parser (AtEnd)

/-- Whatever says so, the token there is the end. -/
theorem Context.kind_next_of_atEnd (h : AtEnd ts) : (ctx.next ts).kind = .eof := by
  cases ts with
  | nil => rfl
  | cons t ts => exact Parser.atEnd_cons.1 h

/-- No operator follows at the end. -/
theorem chainFrom_of_atEnd {operator? : Token.Kind → Option BinaryOp}
    (heof : operator? .eof = none) (operand : Reader) (a : Rat) (h : AtEnd ts) :
    chainFrom ctx operator? operand a ts = ⟨.ok a, ts⟩ := by
  cases ts with
  | nil => exact chainFrom_nil ctx operator? operand a
  | cons t ts => exact chainFrom_cons_of_none ctx operand a ts (by rw [Parser.atEnd_cons.1 h, heof])

namespace Level

/-- No exponent follows. -/
theorem exponent_of_atEnd (base : Rat) (h : AtEnd ts) :
    exponent ctx inner base ts = ⟨.ok base, ts⟩ := by
  cases ts with
  | nil => rfl
  | cons t ts => simp [exponent, Parser.atEnd_cons.1 h]

/-- A parenthesis is not closed. -/
theorem close_of_atEnd (opening : Nat) (v : Rat) (h : AtEnd ts) :
    close ctx opening v ts =
      ⟨.error (.unclosedParen opening (ctx.unexpected .closingParen ts)), ts⟩ := by
  cases ts with
  | nil => rfl
  | cons t ts => simp [close, Parser.atEnd_cons.1 h]

/-- No operand starts. -/
theorem atomRun_of_atEnd (h : AtEnd ts) :
    atomRun ctx inner ts = ⟨.error (ctx.unexpected .operand ts), ts⟩ := by
  cases ts with
  | nil => rfl
  | cons t ts => simp [atomRun, Parser.atEnd_cons.1 h]

theorem unaryRun_of_atEnd (h : AtEnd ts) :
    unaryRun ctx inner ts = ⟨.error (ctx.unexpected .operand ts), ts⟩ := by
  rw [← atomRun_of_atEnd ctx inner h]
  cases ts with
  | nil => rfl
  | cons t ts => simp [unaryRun, Parser.atEnd_cons.1 h, Sign.ofKind?, atomReader]

end Level

end

/-! ## Aligned lists -/

/-- Lists of tokens in which two readers find the same, if the positions of the first are moved
by `f`. -/
structure Alignment (ctx ctx' : Context) (f : Nat → Nat) where
  limits_eq : ctx'.limits = ctx.limits
  /-- The same is found in both lists. -/
  Aligned : List Token → List Token → Prop
  /-- Nothing is known of the tokens of the list. -/
  Lost : List Token → Prop
  lost_of_suffix : ∀ {ts rest : List Token}, Lost ts → rest <:+ ts → Lost rest
  /-- Both lists are at the end, or they start with the same token. -/
  cases : ∀ {ts ts' : List Token}, Aligned ts ts' → Lost ts ∨
    (Parser.AtEnd ts ∧ Parser.AtEnd ts' ∧ (ctx'.next ts').pos = f (ctx.next ts).pos) ∨
    ∃ t us us', ts = t :: us ∧ ts' = t.move f :: us' ∧ Aligned us us'

namespace Alignment

variable {ctx ctx' : Context} {f : Nat → Nat} (al : Alignment ctx ctx' f)

/-- Two readings are in step, unless the first is lost: the outcome is the same and what is left
is aligned. -/
def InStep (r r' : Reading) : Prop :=
  al.Lost r.rest ∨ (r'.value = moveOutcome f r.value ∧ al.Aligned r.rest r'.rest)

/-- Two readers stay in step on aligned lists. -/
def Parallel (reader reader' : Reader) : Prop :=
  ∀ ts ts', al.Aligned ts ts' → al.InStep (reader.run ts) (reader'.run ts')

variable {al}

/-- What reads on from a lost list is lost. -/
theorem inStep_of_lost {ts : List Token} {r r' : Reading} (h : al.Lost ts)
    (hrest : r.rest <:+ ts) : al.InStep r r' :=
  Or.inl (al.lost_of_suffix h hrest)

theorem InStep.mapValue {r r' : Reading} {g g' : Except EvalError Rat → Except EvalError Rat}
    (h : al.InStep r r') (hg : ∀ x, g' (moveOutcome f x) = moveOutcome f (g x)) :
    al.InStep (r.mapValue g) (r'.mapValue g') := by
  rcases h with hlost | ⟨hvalue, hrest⟩
  · exact Or.inl hlost
  · refine Or.inr ⟨?_, hrest⟩
    simp only [Reading.mapValue, hvalue, hg]

theorem InStep.combine {r r' : Reading} (h : al.InStep r r') (op : BinaryOp) (pos : Nat)
    (a : Rat) : al.InStep (r.mapValue (op.combine ctx.limits pos a))
      (r'.mapValue (op.combine ctx'.limits (f pos) a)) := by
  rw [al.limits_eq]
  exact h.mapValue (BinaryOp.combine_move f ctx.limits op pos a)

/-- Reading on from where two readings are in step. -/
theorem InStep.andThen {r r' : Reading} {next next' : Rat → List Token → Reading}
    (h : al.InStep r r') (hsuffix : ∀ v ts, (next v ts).rest <:+ ts)
    (hnext : ∀ v, al.Aligned r.rest r'.rest → al.InStep (next v r.rest) (next' v r'.rest)) :
    al.InStep (r.andThen next) (r'.andThen next') := by
  rcases h with hlost | ⟨hvalue, hrest⟩
  · exact inStep_of_lost hlost (r.andThen_rest_suffix hsuffix)
  · simp only [Reading.andThen, hvalue]
    cases hr : r.value with
    | error e => exact Or.inr ⟨rfl, hrest⟩
    | ok v => exact hnext v hrest

/-- What is expected and not found at the end is missed at the other end, too. -/
theorem unexpected_of_atEnd (expected : Expected) {ts ts' : List Token}
    (hts : Parser.AtEnd ts) (hts' : Parser.AtEnd ts')
    (hpos : (ctx'.next ts').pos = f (ctx.next ts).pos) :
    ctx'.unexpected expected ts' = (ctx.unexpected expected ts).move f := by
  rw [ctx.unexpected_eq, ctx'.unexpected_eq, EvalError.unexpected, EvalError.unexpected,
    if_pos (ctx.kind_next_of_atEnd hts), if_pos (ctx'.kind_next_of_atEnd hts'), hpos]
  rfl

theorem unexpected_cons (ctx' : Context) (f : Nat → Nat) (expected : Expected) (t : Token)
    (us' : List Token) :
    ctx'.unexpected expected (t.move f :: us') = (EvalError.unexpected expected t).move f :=
  (ctx'.unexpected_eq expected _).trans (EvalError.unexpected_move f expected t)

/-! ### Loops -/

theorem chainFrom_inStep {operator? : Token.Kind → Option BinaryOp} (heof : operator? .eof = none)
    {operand operand' : Reader} (h : al.Parallel operand operand') (a : Rat) {ts ts' : List Token}
    (hts : al.Aligned ts ts') :
    al.InStep (chainFrom ctx operator? operand a ts) (chainFrom ctx' operator? operand' a ts') := by
  -- the operand takes tokens, so the induction is on how many there are
  induction hlen : ts.length using Nat.strongRecOn generalizing a ts ts' with
  | _ n ih =>
      rcases al.cases hts with hlost | ⟨hend, hend', -⟩ | ⟨t, us, us', rfl, rfl, hus⟩
      · exact inStep_of_lost hlost (chainFrom_rest_suffix ctx operator? operand a ts)
      · rw [chainFrom_of_atEnd ctx heof operand a hend,
          chainFrom_of_atEnd ctx' heof operand' a hend']
        exact Or.inr ⟨rfl, hts⟩
      · cases ht : operator? t.kind with
        | none =>
            have ht' : operator? (t.move f).kind = none := ht
            rw [chainFrom_cons_of_none _ _ _ _ ht, chainFrom_cons_of_none _ _ _ _ ht']
            exact Or.inr ⟨rfl, hts⟩
        | some op =>
            have ht' : operator? (t.move f).kind = some op := ht
            rw [chainFrom_cons_of_some _ _ _ _ ht, chainFrom_cons_of_some _ _ _ _ ht']
            refine ((h us us' hus).combine op t.pos a).andThen
              (chainFrom_rest_suffix ctx operator? operand) fun v hrest => ?_
            have hshort : (operand.run us).rest.length < n := by
              have := (operand.rest_suffix us).length_le
              simp only [List.length_cons] at hlen
              omega
            exact ih _ hshort v hrest rfl

theorem chain_parallel {operator? : Token.Kind → Option BinaryOp} (heof : operator? .eof = none)
    {operand operand' : Reader} (h : al.Parallel operand operand') :
    al.Parallel (chain ctx operator? operand) (chain ctx' operator? operand') :=
  fun ts ts' hts => (h ts ts' hts).andThen (chainFrom_rest_suffix ctx operator? operand)
    fun v hrest => chainFrom_inStep heof h v hrest

/-! ### Levels -/

open Level

variable {room : Nat}

/-- The readers of a level further in stay in step. -/
def ParallelIn (al : Alignment ctx ctx' f) (room : Nat) (level : Level) : Prop :=
  ∀ inside, room = inside + 1 → al.Parallel (readAt ctx inside level) (readAt ctx' inside level)

/-- Going further in keeps two readings in step. -/
theorem nested_inStep {level : Level} (hin : al.ParallelIn room level) (pos : Nat)
    {after after' : Reading → Reading}
    (hafter : ∀ r r' : Reading, al.InStep r r' → al.InStep (after r) (after' r'))
    {ts ts' : List Token} (hts : al.Aligned ts ts') :
    al.InStep (nested ctx (innerAt ctx room) level pos after ts)
      (nested ctx' (innerAt ctx' room) level (f pos) after' ts') := by
  rw [nested_innerAt, nested_innerAt]
  cases room with
  | zero =>
      rw [al.limits_eq]
      exact Or.inr ⟨rfl, hts⟩
  | succ inside => exact hafter _ _ (hin inside rfl ts ts' hts)

theorem close_inStep (opening : Nat) (v : Rat) {ts ts' : List Token} (hts : al.Aligned ts ts') :
    al.InStep (close ctx opening v ts) (close ctx' (f opening) v ts') := by
  rcases al.cases hts with hlost | ⟨hend, hend', hpos⟩ | ⟨t, us, us', rfl, rfl, hus⟩
  · exact inStep_of_lost hlost (close_rest_suffix ctx opening v ts)
  · rw [close_of_atEnd ctx opening v hend, close_of_atEnd ctx' (f opening) v hend',
      unexpected_of_atEnd .closingParen hend hend' hpos]
    exact Or.inr ⟨rfl, hts⟩
  · simp only [close, unexpected_cons ctx' f]
    by_cases ht : t.kind = .rightParen
    · have ht' : (t.move f).kind = .rightParen := ht
      rw [if_pos ht, if_pos ht']
      exact Or.inr ⟨rfl, hus⟩
    · have ht' : ¬ (t.move f).kind = .rightParen := ht
      rw [if_neg ht, if_neg ht']
      exact Or.inr ⟨rfl, hts⟩

theorem atom_parallel (hin : al.ParallelIn room expression) :
    al.Parallel (readAt ctx room atom) (readAt ctx' room atom) := by
  intro ts ts' hts
  show al.InStep (atomRun ctx (innerAt ctx room) ts) (atomRun ctx' (innerAt ctx' room) ts')
  rcases al.cases hts with hlost | ⟨hend, hend', hpos⟩ | ⟨t, us, us', rfl, rfl, hus⟩
  · exact inStep_of_lost hlost ((readAt ctx room atom).rest_suffix ts)
  · rw [atomRun_of_atEnd ctx _ hend, atomRun_of_atEnd ctx' _ hend',
      unexpected_of_atEnd .operand hend hend' hpos]
    exact Or.inr ⟨rfl, hts⟩
  · simp only [atomRun, Token.kind_move, unexpected_cons ctx' f]
    cases t.kind with
    | number => exact Or.inr ⟨Literal.evaluate_move f t.text t.pos, hus⟩
    | leftParen =>
        exact nested_inStep hin t.pos (fun r r' hr => hr.andThen (close_rest_suffix ctx t.pos)
          fun v hrest => close_inStep t.pos v hrest) hus
    | _ => exact Or.inr ⟨rfl, hts⟩

theorem unary_parallel (hatom : al.Parallel (readAt ctx room atom) (readAt ctx' room atom))
    (hin : al.ParallelIn room unary) :
    al.Parallel (readAt ctx room unary) (readAt ctx' room unary) := by
  intro ts ts' hts
  show al.InStep (unaryRun ctx (innerAt ctx room) ts) (unaryRun ctx' (innerAt ctx' room) ts')
  rcases al.cases hts with hlost | ⟨hend, hend', hpos⟩ | ⟨t, us, us', rfl, rfl, hus⟩
  · exact inStep_of_lost hlost ((readAt ctx room unary).rest_suffix ts)
  · rw [unaryRun_of_atEnd ctx _ hend, unaryRun_of_atEnd ctx' _ hend',
      unexpected_of_atEnd .operand hend hend' hpos]
    exact Or.inr ⟨rfl, hts⟩
  · simp only [unaryRun, Token.kind_move]
    cases Sign.ofKind? t.kind with
    | none => exact hatom _ _ hts
    | some sign =>
        refine nested_inStep hin t.pos (fun r r' hr => hr.mapValue fun x => ?_) hus
        cases x <;> rfl

theorem power_parallel (hunary : al.Parallel (readAt ctx room unary) (readAt ctx' room unary))
    (hin : al.ParallelIn room power) :
    al.Parallel (readAt ctx room power) (readAt ctx' room power) := by
  intro ts ts' hts
  refine (hunary ts ts' hts).andThen (exponent_rest_suffix ctx _) fun base hrest => ?_
  rcases al.cases hrest with hlost | ⟨hend, hend', -⟩ | ⟨t, us, us', hus, hus', hrest'⟩
  · exact inStep_of_lost hlost (exponent_rest_suffix ctx _ base _)
  · rw [exponent_of_atEnd ctx _ base hend, exponent_of_atEnd ctx' _ base hend']
    exact Or.inr ⟨rfl, hrest⟩
  · rw [hus, hus'] at hrest ⊢
    simp only [exponent]
    by_cases ht : t.kind = .power
    · have ht' : (t.move f).kind = .power := ht
      rw [if_pos ht, if_pos ht']
      exact nested_inStep hin t.pos (fun r r' hr => hr.combine .pow t.pos base) hrest'
    · have ht' : ¬ (t.move f).kind = .power := ht
      rw [if_neg ht, if_neg ht']
      exact Or.inr ⟨rfl, hrest⟩

/-- **A level reads aligned lists in step.** -/
theorem readAt_parallel (al : Alignment ctx ctx' f) (room : Nat) (level : Level) :
    al.Parallel (readAt ctx room level) (readAt ctx' room level) := by
  induction room, level using grammar_induction with
  | atom room hin =>
      exact atom_parallel fun inside hroom => hin inside (by omega) expression
  | unary room hin hatom =>
      exact unary_parallel hatom fun inside hroom => hin inside (by omega) unary
  | power room hin hunary =>
      exact power_parallel hunary fun inside hroom => hin inside (by omega) power
  | term room hpower => exact chain_parallel rfl hpower
  | expression room hterm => exact chain_parallel rfl hterm

/-! ## Calls -/

/-- What a call of a parser gives, as a reading. -/
def answer (p : Parser) (call : Parser.Call) : Reading :=
  ⟨(p.perform call).1, (p.perform call).2.rest⟩

/-- A value may only be followed by the end, and both parsers are at it or neither is. -/
theorem complete_inStep {p p' : Parser}
    (h : al.InStep (answer p .expression) (answer p' .expression)) :
    al.InStep (answer p .complete) (answer p' .complete) := by
  have h : al.Lost p.expression.2.rest ∨ (p'.expression.1 = moveOutcome f p.expression.1 ∧
      al.Aligned p.expression.2.rest p'.expression.2.rest) := h
  show al.InStep ⟨p.complete.1, p.complete.2.rest⟩ ⟨p'.complete.1, p'.complete.2.rest⟩
  rw [Parser.complete_snd, Parser.complete_snd]
  rcases h with hlost | ⟨hvalue, hrest⟩
  · exact Or.inl hlost
  cases hp : p.expression.1 with
  | error e =>
      have hp' : p'.expression.1 = .error (e.move f) := by rw [hvalue, hp]; rfl
      rw [Parser.complete_of_error hp, Parser.complete_of_error hp']
      exact Or.inr ⟨rfl, hrest⟩
  | ok v =>
      have hp' : p'.expression.1 = .ok v := by rw [hvalue, hp]; rfl
      rcases al.cases hrest with hlost | ⟨hend, hend', -⟩ | ⟨t, us, us', hus, hus', -⟩
      · exact Or.inl hlost
      · rw [Parser.complete_of_atEnd hp hend, Parser.complete_of_atEnd hp' hend']
        exact Or.inr ⟨rfl, hrest⟩
      · by_cases ht : t.kind = .eof
        · have hend : Parser.AtEnd p.expression.2.rest := hus ▸ Parser.atEnd_cons.2 ht
          have hend' : Parser.AtEnd p'.expression.2.rest := hus' ▸ Parser.atEnd_cons.2 ht
          rw [Parser.complete_of_atEnd hp hend, Parser.complete_of_atEnd hp' hend']
          exact Or.inr ⟨rfl, hrest⟩
        · rw [Parser.complete_of_trailing hp hus ht, Parser.complete_of_trailing hp' hus' ht]
          exact Or.inr ⟨rfl, hrest⟩

/-- **Parsers answer a call in step.** -/
theorem perform_inStep (al : Alignment ctx ctx' f) (call : Parser.Call) {ts ts' : List Token}
    (hts : al.Aligned ts ts') : al.InStep (answer ⟨ctx, ts⟩ call) (answer ⟨ctx', ts'⟩ call) := by
  have hread : al.InStep (answer ⟨ctx, ts⟩ .expression) (answer ⟨ctx', ts'⟩ .expression) := by
    simp only [answer, Parser.perform, Parser.expression, al.limits_eq]
    exact readAt_parallel al ctx.limits.maxDepth expression ts ts' hts
  cases call with
  | expression => exact hread
  | complete => exact complete_inStep hread

end Alignment

end RatExpr
