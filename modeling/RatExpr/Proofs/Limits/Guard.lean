import RatExpr.Pair

set_option autoImplicit false

/-! # Limits are guards

Larger limits change nothing but whether an evaluation is stopped. Two evaluations of the
same tokens, the second under larger limits, run in step: they read the same tokens and find
the same values and errors, until a limit stops the first one (`Reading.Agrees`). The relation
goes through every part of the readers, and from there to texts, traces and pairs; the main
statement is `Limits.eq_of_le_of_not_stopped`.
-/

namespace RatExpr

/-- None of the limits is above that of the others. -/
instance : LE Limits :=
  ⟨fun limits limits' =>
    limits.maxDepth ≤ limits'.maxDepth ∧ limits.maxExponent ≤ limits'.maxExponent⟩

/-! ## Evaluations that a limit stops -/

/-- Does the error say that a limit has been reached? -/
def EvalError.IsGuard : EvalError → Prop
  | tooDeep .. | exponentTooLarge .. => True
  | _ => False

/-- A limit has stopped the evaluation. -/
def Stopped {α : Type} (x : Except EvalError α) : Prop := ∃ e, x = .error e ∧ e.core.IsGuard

/-- Two outcomes are the same, unless a limit has stopped the first. -/
def Agree {α : Type} (x y : Except EvalError α) : Prop := Stopped x ∨ x = y

theorem Agree.refl {α : Type} (x : Except EvalError α) : Agree x x := Or.inr rfl

/-- What only adds context to an error does not hide that a limit was reached. -/
theorem Agree.map {α β : Type} {x y : Except EvalError α}
    {f g : Except EvalError α → Except EvalError β} (h : Agree x y)
    (hstopped : ∀ z, Stopped z → Stopped (f z)) (hfg : ∀ z, Agree (f z) (g z)) :
    Agree (f x) (g y) := by
  rcases h with hstop | rfl
  · exact Or.inl (hstopped x hstop)
  · exact hfg x

/-- A value is not stopped, so it is the value of both. -/
theorem Agree.eq_of_ok {α : Type} {x y : Except EvalError α} {a : α} (h : Agree x y)
    (hx : x = .ok a) : y = .ok a := by
  rcases h with ⟨e, he, -⟩ | rfl
  · rw [hx] at he
    exact absurd he (by simp)
  · exact hx

/-! ## Operators -/

section

variable {limits limits' : Limits}

/-- The exponent is compared with the limit after everything else that could decide. -/
theorem Fraction.power_agree (h : limits ≤ limits') (base : Fraction) (exponent : Rat) :
    Agree (base.power limits exponent) (base.power limits' exponent) := by
  simp only [power]
  -- what is decided before the limit is decided alike under both
  split
  · exact Agree.refl _
  split
  · exact Agree.refl _
  split
  · exact Agree.refl _
  split
  · exact Agree.refl _
  split
  · exact Agree.refl _
  by_cases htoo : limits.maxExponent < exponent.num.natAbs
  · rw [if_pos htoo]
    exact Or.inl ⟨_, rfl, trivial⟩
  · have htoo' : ¬ limits'.maxExponent < exponent.num.natAbs := by
      have := h.2
      omega
    rw [if_neg htoo, if_neg htoo']
    exact Agree.refl _

theorem BinaryOp.apply_agree (h : limits ≤ limits') (op : BinaryOp) (pos : Nat) (a b : Rat) :
    Agree (op.apply limits pos a b) (op.apply limits' pos a b) := by
  cases op with
  | pow => exact Fraction.power_agree h _ b
  | _ => exact Agree.refl _

theorem BinaryOp.combine_agree (h : limits ≤ limits') (op : BinaryOp) (pos : Nat) (a : Rat)
    (x : Except EvalError Rat) :
    Agree (op.combine limits pos a x) (op.combine limits' pos a x) := by
  cases x with
  | error e => exact Agree.refl _
  | ok b => exact apply_agree h op pos a b

/-- An operator is not reached if its right operand is stopped. -/
theorem BinaryOp.combine_stopped (op : BinaryOp) (pos : Nat) (a : Rat)
    {x : Except EvalError Rat} (hx : Stopped x) : Stopped (op.combine limits pos a x) := by
  obtain ⟨e, rfl, he⟩ := hx
  exact ⟨_, rfl, he⟩

end

/-! ## Readings -/

/-- Two readings are the same, unless a limit has stopped the first. -/
def Reading.Agrees (r r' : Reading) : Prop := Stopped r.value ∨ r = r'

namespace Reading

theorem Agrees.refl (r : Reading) : r.Agrees r := Or.inr rfl

theorem Agrees.andThen {r r' : Reading} {next next' : Rat → List Token → Reading}
    (h : r.Agrees r')
    (hnext : ∀ v, r.value = .ok v → (next v r.rest).Agrees (next' v r.rest)) :
    (r.andThen next).Agrees (r'.andThen next') := by
  rcases h with ⟨e, he, hguard⟩ | rfl
  · exact Or.inl ⟨e, by simp [Reading.andThen, he], hguard⟩
  · cases hvalue : r.value with
    | error e =>
        simp only [Reading.andThen, hvalue]
        exact Agrees.refl _
    | ok v =>
        simp only [Reading.andThen, hvalue]
        exact hnext v hvalue

theorem Agrees.mapValue {r r' : Reading} {f f' : Except EvalError Rat → Except EvalError Rat}
    (h : r.Agrees r') (hstopped : ∀ x, Stopped x → Stopped (f x)) (hf : ∀ x, Agree (f x) (f' x)) :
    (r.mapValue f).Agrees (r'.mapValue f') := by
  rcases h with hstop | rfl
  · exact Or.inl (hstopped _ hstop)
  · rcases hf r.value with hstop | hsame
    · exact Or.inl hstop
    · exact Or.inr (by simp only [Reading.mapValue, hsame])

theorem Agrees.combine {limits limits' : Limits} {r r' : Reading} (h : r.Agrees r')
    (hle : limits ≤ limits') (op : BinaryOp) (pos : Nat) (a : Rat) :
    (r.mapValue (op.combine limits pos a)).Agrees (r'.mapValue (op.combine limits' pos a)) :=
  h.mapValue (fun _ hx => op.combine_stopped pos a hx) (op.combine_agree hle pos a)

end Reading

/-! ## Readers -/

/-- Two readers agree on all tokens. -/
def Reader.Agrees (reader reader' : Reader) : Prop := ∀ ts, (reader.run ts).Agrees (reader'.run ts)

section

variable {limits limits' : Limits} {endPos : Nat}

/-- What is expected does not depend on the limits. -/
theorem Context.unexpected_congr (expected : Expected) (ts : List Token) :
    (⟨limits, endPos⟩ : Context).unexpected expected ts =
      (⟨limits', endPos⟩ : Context).unexpected expected ts := by
  cases ts with
  | nil => rfl
  | cons t ts => simp only [Context.unexpected]

theorem chainFrom_agrees (hle : limits ≤ limits') (operator? : Token.Kind → Option BinaryOp)
    {operand operand' : Reader} (h : operand.Agrees operand') (a : Rat) (ts : List Token) :
    (chainFrom ⟨limits, endPos⟩ operator? operand a ts).Agrees
      (chainFrom ⟨limits', endPos⟩ operator? operand' a ts) := by
  -- the operand takes tokens, so the induction is on how many there are
  induction hlen : ts.length using Nat.strongRecOn generalizing a ts with
  | _ n ih =>
      cases ts with
      | nil =>
          rw [chainFrom_nil, chainFrom_nil]
          exact Reading.Agrees.refl _
      | cons t ts =>
          cases ht : operator? t.kind with
          | none =>
              rw [chainFrom_cons_of_none _ _ _ _ ht, chainFrom_cons_of_none _ _ _ _ ht]
              exact Reading.Agrees.refl _
          | some op =>
              rw [chainFrom_cons_of_some _ _ _ _ ht, chainFrom_cons_of_some _ _ _ _ ht]
              refine ((h ts).combine hle op t.pos a).andThen fun v _ => ?_
              have hshort : (operand.run ts).rest.length < n := by
                have := (operand.rest_suffix ts).length_le
                simp only [List.length_cons] at hlen
                omega
              exact ih _ hshort v _ rfl

theorem chain_agrees (hle : limits ≤ limits') (operator? : Token.Kind → Option BinaryOp)
    {operand operand' : Reader} (h : operand.Agrees operand') :
    (chain ⟨limits, endPos⟩ operator? operand).Agrees
      (chain ⟨limits', endPos⟩ operator? operand') :=
  fun ts => (h ts).andThen fun v _ => chainFrom_agrees hle operator? h v _

namespace Level

variable {room room' : Nat}

/-- The readers of two nestings agree further in, as far as there is room in both. -/
def InnerAgree (limits limits' : Limits) (endPos room room' : Nat) (level : Level) : Prop :=
  ∀ inside inside', room = inside + 1 → room' = inside' + 1 →
    (readAt ⟨limits, endPos⟩ inside level).Agrees (readAt ⟨limits', endPos⟩ inside' level)

/-- Going further in is the same, unless there is no room for it. -/
theorem nested_agrees {level : Level} (hin : InnerAgree limits limits' endPos room room' level)
    (hroom : room ≤ room') (pos : Nat) {after after' : Reading → Reading}
    (hafter : ∀ r r' : Reading, r.Agrees r' → (after r).Agrees (after' r')) (ts : List Token) :
    (nested ⟨limits, endPos⟩ (innerAt ⟨limits, endPos⟩ room) level pos after ts).Agrees
      (nested ⟨limits', endPos⟩ (innerAt ⟨limits', endPos⟩ room') level pos after' ts) := by
  rw [nested_innerAt, nested_innerAt]
  cases room with
  | zero =>
      -- the first is stopped here, whatever the second does
      exact Or.inl ⟨_, rfl, trivial⟩
  | succ inside =>
      cases room' with
      | zero => exact absurd hroom (by omega)
      | succ inside' => exact hafter _ _ (hin inside inside' rfl rfl ts)

theorem close_congr (opening : Nat) (v : Rat) (ts : List Token) :
    close ⟨limits, endPos⟩ opening v ts = close ⟨limits', endPos⟩ opening v ts := by
  cases ts with
  | nil => rfl
  | cons t ts =>
      simp only [close]
      rw [Context.unexpected_congr]

theorem atom_agrees (hin : InnerAgree limits limits' endPos room room' expression)
    (hroom : room ≤ room') :
    (readAt ⟨limits, endPos⟩ room atom).Agrees (readAt ⟨limits', endPos⟩ room' atom) := by
  intro ts
  simp only [readAt, reader, atomReader]
  cases ts with
  | nil =>
      simp only [atomRun]
      rw [Context.unexpected_congr]
      exact Reading.Agrees.refl _
  | cons t ts =>
      simp only [atomRun]
      cases t.kind with
      | leftParen =>
          refine nested_agrees hin hroom t.pos (fun r r' hr => hr.andThen fun v _ => ?_) ts
          rw [close_congr]
          exact Reading.Agrees.refl _
      | number =>
          simp only
          exact Reading.Agrees.refl _
      | _ =>
          simp only
          rw [Context.unexpected_congr]
          exact Reading.Agrees.refl _

theorem unary_agrees
    (hatom : (readAt ⟨limits, endPos⟩ room atom).Agrees (readAt ⟨limits', endPos⟩ room' atom))
    (hin : InnerAgree limits limits' endPos room room' unary) (hroom : room ≤ room') :
    (readAt ⟨limits, endPos⟩ room unary).Agrees (readAt ⟨limits', endPos⟩ room' unary) := by
  intro ts
  cases ts with
  | nil => exact hatom []
  | cons t ts =>
      simp only [readAt, reader, unaryReader, unaryRun]
      cases Sign.ofKind? t.kind with
      | none => exact hatom (t :: ts)
      | some sign =>
          refine nested_agrees hin hroom t.pos (fun r r' hr => ?_) ts
          refine hr.mapValue ?_ (fun x => Agree.refl _)
          rintro x ⟨e, rfl, he⟩
          exact ⟨e, rfl, he⟩

theorem power_agrees (hle : limits ≤ limits')
    (hunary : (readAt ⟨limits, endPos⟩ room unary).Agrees (readAt ⟨limits', endPos⟩ room' unary))
    (hin : InnerAgree limits limits' endPos room room' power) (hroom : room ≤ room') :
    (readAt ⟨limits, endPos⟩ room power).Agrees (readAt ⟨limits', endPos⟩ room' power) := by
  intro ts
  refine (hunary ts).andThen fun b _ => ?_
  cases ((readAt ⟨limits, endPos⟩ room unary).run ts).rest with
  | nil =>
      simp only [exponent]
      exact Reading.Agrees.refl _
  | cons t rest =>
      simp only [exponent]
      by_cases ht : t.kind = .power
      · rw [if_pos ht, if_pos ht]
        exact nested_agrees hin hroom t.pos (fun r r' hr => hr.combine hle .pow t.pos b) rest
      · rw [if_neg ht, if_neg ht]
        exact Reading.Agrees.refl _

/-- **A level reads the same under larger limits,** unless it is stopped. -/
theorem readAt_agrees (hle : limits ≤ limits') (endPos : Nat) (hroom : room ≤ room')
    (level : Level) :
    (readAt ⟨limits, endPos⟩ room level).Agrees (readAt ⟨limits', endPos⟩ room' level) := by
  induction room, level using grammar_induction generalizing room' with
  | atom room hin =>
      exact atom_agrees
        (fun inside inside' h h' => hin inside (by omega) expression (by omega)) hroom
  | unary room hin hatom =>
      exact unary_agrees (hatom hroom)
        (fun inside inside' h h' => hin inside (by omega) unary (by omega)) hroom
  | power room hin hunary =>
      exact power_agrees hle (hunary hroom)
        (fun inside inside' h h' => hin inside (by omega) power (by omega)) hroom
  | term room hpower => exact chain_agrees hle BinaryOp.multiplicative? (hpower hroom)
  | expression room hterm => exact chain_agrees hle BinaryOp.additive? (hterm hroom)

end Level

end

/-! ## Texts, traces and pairs -/

namespace Limits

variable {limits limits' : Limits}

theorem complete_agree (h : limits ≤ limits') (ts : List Token) :
    Agree (Parser.ofTokens limits ts).complete.1 (Parser.ofTokens limits' ts).complete.1 := by
  rcases Level.readAt_agrees h (Parser.endOf ts) h.1 .expression ts with ⟨e, he, hguard⟩ | hsame
  · exact Or.inl ⟨e, Parser.complete_of_error he, hguard⟩
  · refine Or.inr ?_
    simp only [Parser.complete, Parser.expression, Parser.ofTokens, hsame]
    split <;> rfl

theorem evaluate_agree (h : limits ≤ limits') (text : String) :
    Agree (Expression.evaluate limits text) (Expression.evaluate limits' text) := by
  unfold Expression.evaluate
  cases Expression.tokens text with
  | error e => exact Agree.refl _
  | ok ts => exact complete_agree h ts

theorem trace_agree (h : limits ≤ limits') (text : String) :
    Agree (Expression.trace limits text) (Expression.trace limits' text) := by
  unfold Expression.trace
  cases Expression.tokens text with
  | error e => exact Agree.refl _
  | ok ts =>
      rcases complete_agree h ts with ⟨e, he, hguard⟩ | hsame
      · exact Or.inl ⟨e, by simp only [he], hguard⟩
      · exact Or.inr (by simp only [hsame])

/-- Which side an error comes from does not hide that a limit was reached. -/
theorem evaluateSide_agree (h : limits ≤ limits') (side : Side) (text : String) :
    Agree (Pair.evaluateSide limits side text) (Pair.evaluateSide limits' side text) := by
  refine (evaluate_agree h text).map ?_ (fun x => Agree.refl _)
  rintro x ⟨e, rfl, he⟩
  exact ⟨_, rfl, he⟩

theorem pair_agree (h : limits ≤ limits') (p : Pair) :
    Agree (p.evaluate limits) (p.evaluate limits') := by
  unfold Pair.evaluate
  by_cases hblank : Text.trim p.numerator.toList = []
  · rw [if_pos hblank, if_pos hblank]
    exact Agree.refl _
  rw [if_neg hblank, if_neg hblank]
  rcases evaluateSide_agree h .numerator p.numerator with ⟨e, he, hguard⟩ | hnum
  · exact Or.inl ⟨e, by simp only [he], hguard⟩
  rw [hnum]
  cases Pair.evaluateSide limits' .numerator p.numerator with
  | error e => exact Agree.refl _
  | ok num =>
      simp only
      by_cases hwhole : p.isWhole
      · rw [if_pos hwhole, if_pos hwhole]
        exact Agree.refl _
      rw [if_neg hwhole, if_neg hwhole]
      rcases evaluateSide_agree h .denominator p.denominator with ⟨e, he, hguard⟩ | hden
      · exact Or.inl ⟨e, by simp only [he], hguard⟩
      · rw [hden]
        exact Agree.refl _

/-- Of any two limits there are some that are no smaller than both. -/
theorem exists_ge (limits limits' : Limits) :
    ∃ larger : Limits, limits ≤ larger ∧ limits' ≤ larger :=
  ⟨⟨max limits.maxDepth limits'.maxDepth, max limits.maxExponent limits'.maxExponent⟩,
    ⟨Nat.le_max_left _ _, Nat.le_max_left _ _⟩, ⟨Nat.le_max_right _ _, Nat.le_max_right _ _⟩⟩

/-- What agrees with larger limits has no two values. -/
theorem value_unique {α β : Type} (run : Limits → α → Except EvalError β)
    (hrun : ∀ {limits limits'}, limits ≤ limits' → ∀ a, Agree (run limits a) (run limits' a))
    {a : α} {v w : β} (hv : run limits a = .ok v) (hw : run limits' a = .ok w) : v = w := by
  obtain ⟨larger, hle, hle'⟩ := exists_ge limits limits'
  have hv' := (hrun hle a).eq_of_ok hv
  have hw' := (hrun hle' a).eq_of_ok hw
  exact Except.ok.inj (hv'.symm.trans hw')

/-- **Limits are guards.** What is not stopped has the same outcome under larger limits, value or
error, be it a text, a text with its trace or a pair. So no two limits, larger or not, give two
values. -/
theorem eq_of_le_of_not_stopped (limits limits' : Limits) :
    (limits ≤ limits' →
      (∀ text, ¬ Stopped (Expression.evaluate limits text) →
        Expression.evaluate limits' text = Expression.evaluate limits text) ∧
      (∀ text, ¬ Stopped (Expression.trace limits text) →
        Expression.trace limits' text = Expression.trace limits text) ∧
      (∀ p : Pair, ¬ Stopped (p.evaluate limits) → p.evaluate limits' = p.evaluate limits)) ∧
    (∀ text v w, Expression.evaluate limits text = .ok v →
      Expression.evaluate limits' text = .ok w → v = w) ∧
    (∀ text v w, Expression.trace limits text = .ok v →
      Expression.trace limits' text = .ok w → v = w) ∧
    (∀ (p : Pair) v w, p.evaluate limits = .ok v → p.evaluate limits' = .ok w → v = w) := by
  refine ⟨fun hle => ⟨?_, ?_, ?_⟩, ?_, ?_, ?_⟩
  · exact fun text hsettled => ((evaluate_agree hle text).resolve_left hsettled).symm
  · exact fun text hsettled => ((trace_agree hle text).resolve_left hsettled).symm
  · exact fun p hsettled => ((pair_agree hle p).resolve_left hsettled).symm
  · exact fun text v w hv hw => value_unique Expression.evaluate evaluate_agree hv hw
  · exact fun text v w hv hw => value_unique Expression.trace trace_agree hv hw
  · exact fun p v w hv hw => value_unique Pair.evaluate pair_agree hv hw

end Limits

end RatExpr
