import RatExpr.Proofs.Grammar.Report

set_option autoImplicit false

/-! # The chain of causes of an error of reading

An error that reading fails with stands at the head of a chain: the error and its causes. What
follows here of `EvalError.About` holds of the whole chain. Each error in it is about a token that
is there, of the kind that the error names (`About.pointsInto`); each is about a token further on
than the one before it (`About.pairwise_positions`); and the chain has a fixed form: right operands
around a core, which is alone or, where a parenthesis is not closed, has the token in the place of
the closing one as its cause (`About.layered`).
-/

namespace RatExpr

/-- The tokens stand in the order of their positions, and the end comes after them. -/
structure Context.Orders (ctx : Context) (ts : List Token) : Prop where
  increasing : ts.Pairwise fun t u => t.pos < u.pos
  lt_endPos : ∀ t ∈ ts, t.kind ≠ .eof → t.pos < ctx.endPos

theorem Context.Orders.tail {ctx : Context} {t : Token} {ts : List Token}
    (h : ctx.Orders (t :: ts)) : ctx.Orders ts where
  increasing := (List.pairwise_cons.1 h.increasing).2
  lt_endPos u hu := h.lt_endPos u (List.mem_cons_of_mem t hu)

theorem BinaryOp.kind_ne_eof (op : BinaryOp) : op.kind ≠ .eof := by
  cases op <;> simp [kind]

namespace EvalError

/-! ## The tokens of the chain -/

/-- The error is about the token: it is of the kind that the error names and stands at the position
that the error gives. A number that is said to be none is none, and a limit in the error is the one
that is kept to. No token is the reason for an error that no reading has. -/
def Concerns (limits : Limits) (t : Token) : EvalError → Prop
  | invalidNumber text pos =>
      t.kind = .number ∧ t.text = text ∧ t.pos = pos ∧ Literal.value? text = none
  | unexpectedEnd pos _ => t.kind = .eof ∧ t.pos = pos
  | unexpectedToken token _ | trailingToken token => t.kind ≠ .eof ∧ t = token
  | unclosedParen opening _ => t.kind = .leftParen ∧ t.pos = opening
  | operand op pos _ => t.kind = op.kind ∧ t.pos = pos
  | divisionByZero pos => t.kind = .slash ∧ t.pos = pos
  | moduloByZero pos | moduloNotInteger pos => t.kind = .percent ∧ t.pos = pos
  | exponentNotInteger | zeroToNegative => t.kind = .power
  | exponentTooLarge max => t.kind = .power ∧ max = limits.maxExponent
  | tooDeep max pos => t.kind.Nests ∧ max = limits.maxDepth ∧ t.pos = pos
  | illegalToken .. | emptyNumerator | emptyExpression _ | powerOverZero | zeroDenominator
  | side .. => False

/-- The error is about one of the tokens, or about the end after them. -/
def PointsInto (ctx : Context) (ts : List Token) (e : EvalError) : Prop :=
  ∃ t, (t ∈ ts ∨ t = .endAt ctx.endPos) ∧ e.Concerns ctx.limits t

variable {ctx : Context} {k : Nat} {t : Token} {ts us : List Token} {e : EvalError}

theorem PointsInto.of_subset (h : e.PointsInto ctx ts) (hsub : ts ⊆ us) : e.PointsInto ctx us := by
  obtain ⟨t, ht, he⟩ := h
  exact ⟨t, ht.imp_left fun ht => hsub ht, he⟩

theorem pointsInto_cons (h : e.Concerns ctx.limits t) : e.PointsInto ctx (t :: ts) :=
  ⟨t, Or.inl List.mem_cons_self, h⟩

theorem pointsInto_unexpected (ctx : Context) (expected : Expected) (ts : List Token) :
    (ctx.unexpected expected ts).PointsInto ctx ts := by
  cases ts with
  | nil => exact ⟨_, Or.inr rfl, rfl, rfl⟩
  | cons t ts =>
      refine pointsInto_cons ?_
      simp only [Context.unexpected]
      split
      · rename_i ht
        exact ⟨ht, rfl⟩
      · rename_i ht
        exact ⟨ht, rfl⟩

/-- An operator that is not defined on its operands is the reason for its error. -/
theorem concerns_of_fault {limits : Limits} {op : BinaryOp} (ht : t.kind = op.kind)
    (h : op.Fault limits t.pos e) : e.Concerns limits t := by
  cases h with
  | divisionByZero => exact ⟨ht, rfl⟩
  | moduloNotInteger => exact ⟨ht, rfl⟩
  | moduloByZero => exact ⟨ht, rfl⟩
  | exponentNotInteger => exact ht
  | zeroToNegative => exact ht
  | exponentTooLarge => exact ⟨ht, rfl⟩

theorem causes_of_fault {limits : Limits} {pos : Nat} {op : BinaryOp}
    (h : op.Fault limits pos e) : e.causes = [] := by
  cases h <;> rfl

/-- **Every error of the chain is about one of the tokens,** or about the end. -/
theorem About.pointsInto (h : About ctx k ts e) : ∀ c ∈ e :: e.causes, c.PointsInto ctx ts := by
  induction h with
  | unexpected k ts =>
      rw [ctx.causes_unexpected]
      exact List.forall_mem_singleton.2 (pointsInto_unexpected ctx _ ts)
  | number ht hvalue => exact List.forall_mem_singleton.2 (pointsInto_cons ⟨ht, rfl, rfl, hvalue⟩)
  | tooDeep ht => exact List.forall_mem_singleton.2 (pointsInto_cons ⟨ht, rfl, rfl⟩)
  | @unclosed k t ts rest ht hrest =>
      have hsub : rest ⊆ t :: ts := (hrest.trans (List.suffix_cons t ts)).subset
      simp only [causes, ctx.causes_unexpected]
      exact List.forall_mem_cons.2 ⟨pointsInto_cons ⟨ht, rfl⟩,
        List.forall_mem_singleton.2 ((pointsInto_unexpected ctx _ rest).of_subset hsub)⟩
  | @operand k t ts op e ht he ih =>
      simp only [causes]
      exact List.forall_mem_cons.2 ⟨pointsInto_cons ⟨ht, rfl⟩,
        fun c hc => (ih c hc).of_subset (List.subset_cons_self t ts)⟩
  | fault ht he =>
      rw [causes_of_fault he]
      exact List.forall_mem_singleton.2 (pointsInto_cons (concerns_of_fault ht he))
  | @later k t ts e he ih => exact fun c hc => (ih c hc).of_subset (List.subset_cons_self t ts)

/-- **Reading never finds a token illegal,** whatever tokens it is given. -/
theorem About.illegalToken_not_mem (h : About ctx k ts e) (fragment : String) (pos : Nat) :
    .illegalToken fragment pos ∉ e :: e.causes := by
  intro hmem
  obtain ⟨t, -, hconcerns⟩ := h.pointsInto _ hmem
  exact hconcerns

/-! ## The order of the chain -/

/-- The position that the error gives, if it gives one. -/
def position? : EvalError → Option Nat
  | illegalToken _ pos | invalidNumber _ pos | unexpectedEnd pos _ | operand _ pos _
  | divisionByZero pos | moduloByZero pos | moduloNotInteger pos | tooDeep _ pos => some pos
  | unexpectedToken token _ | trailingToken token => some token.pos
  | unclosedParen opening _ => some opening
  | emptyNumerator | emptyExpression _ | exponentNotInteger | zeroToNegative | powerOverZero
  | zeroDenominator | exponentTooLarge _ | side .. => none

/-- The positions in the chain of an error, from the error itself to its root. -/
def positions (e : EvalError) : List Nat := (e :: e.causes).filterMap position?

theorem mem_positions {p : Nat} : p ∈ e.positions ↔ ∃ c ∈ e :: e.causes, c.position? = some p :=
  List.mem_filterMap

/-- An error without a cause has one position at most. -/
theorem pairwise_positions_of_causes_eq_nil (h : e.causes = []) :
    e.positions.Pairwise (· < ·) := by
  rw [positions, h]
  cases hp : e.position? with
  | none => simp [hp]
  | some p => simp [hp]

/-- The position that an error gives is that of the token that it is about. -/
theorem Concerns.position_eq {limits : Limits} (h : e.Concerns limits t) :
    ∀ p ∈ e.position?, t.pos = p := by
  rintro p hp
  cases e with
  | invalidNumber text pos => exact h.2.2.1.trans (Option.some.inj hp)
  | tooDeep max pos => exact h.2.2.trans (Option.some.inj hp)
  | unexpectedToken token expected => exact (congrArg Token.pos h.2).trans (Option.some.inj hp)
  | trailingToken token => exact (congrArg Token.pos h.2).trans (Option.some.inj hp)
  | unexpectedEnd pos expected => exact h.2.trans (Option.some.inj hp)
  | unclosedParen opening cause => exact h.2.trans (Option.some.inj hp)
  | operand op pos cause => exact h.2.trans (Option.some.inj hp)
  | divisionByZero pos => exact h.2.trans (Option.some.inj hp)
  | moduloByZero pos => exact h.2.trans (Option.some.inj hp)
  | moduloNotInteger pos => exact h.2.trans (Option.some.inj hp)
  | illegalToken fragment pos => exact absurd h id
  | _ => exact absurd hp (by simp [position?])

/-- An error about later tokens has a later position. -/
theorem PointsInto.lt_position (h : e.PointsInto ctx ts) (hord : ctx.Orders (t :: ts))
    (ht : t.kind ≠ .eof) : ∀ p ∈ e.position?, t.pos < p := by
  intro p hp
  obtain ⟨u, hu, he⟩ := h
  rw [← he.position_eq p hp]
  rcases hu with hu | rfl
  · exact (List.pairwise_cons.1 hord.increasing).1 u hu
  · exact hord.lt_endPos t List.mem_cons_self ht

/-- **The positions increase along the chain.** -/
theorem About.pairwise_positions (h : About ctx k ts e) (hord : ctx.Orders ts) :
    e.positions.Pairwise (· < ·) := by
  induction h with
  | unexpected k ts => exact pairwise_positions_of_causes_eq_nil (ctx.causes_unexpected _ ts)
  | number ht hvalue => exact pairwise_positions_of_causes_eq_nil rfl
  | tooDeep ht => exact pairwise_positions_of_causes_eq_nil rfl
  | @unclosed k t ts rest ht hrest =>
      have hpoints := (pointsInto_unexpected ctx .closingParen rest).of_subset hrest.subset
      refine List.pairwise_cons.2 ⟨fun p hp => ?_, pairwise_positions_of_causes_eq_nil ?_⟩
      · obtain ⟨c, hc, hcp⟩ := mem_positions.1 hp
        rw [ctx.causes_unexpected, List.mem_singleton] at hc
        exact (hc ▸ hpoints).lt_position hord (by simp [ht]) p hcp
      · exact ctx.causes_unexpected _ rest
  | @operand k t ts op e ht he ih =>
      refine List.pairwise_cons.2 ⟨fun p hp => ?_, ih hord.tail⟩
      obtain ⟨c, hc, hcp⟩ := mem_positions.1 hp
      exact (he.pointsInto c hc).lt_position hord (ht ▸ op.kind_ne_eof) p hcp
  | fault ht he => exact pairwise_positions_of_causes_eq_nil (causes_of_fault he)
  | later he ih => exact ih hord.tail

/-! ## The form of the chain -/

/-- Is the error that of a right operand? -/
def IsOperand : EvalError → Prop
  | operand .. => True
  | _ => False

/-- Does the error say that something else stands in the place of a token? -/
def IsUnexpected : EvalError → Prop
  | unexpectedEnd .. | unexpectedToken .. => True
  | _ => False

theorem isUnexpected_unexpected (ctx : Context) (expected : Expected) (ts : List Token) :
    (ctx.unexpected expected ts).IsUnexpected := by
  cases ts with
  | nil => trivial
  | cons t ts =>
      simp only [Context.unexpected]
      split <;> trivial

theorem core_of_isUnexpected (h : e.IsUnexpected) : e.core = e := by
  cases e with
  | unexpectedEnd pos expected => rfl
  | unexpectedToken token expected => rfl
  | _ => exact absurd h id

theorem causes_of_isUnexpected (h : e.IsUnexpected) : e.causes = [] := by
  cases e with
  | unexpectedEnd pos expected => rfl
  | unexpectedToken token expected => rfl
  | _ => exact absurd h id

/-- The core is what is left without the contexts. -/
theorem core_not_isOperand (e : EvalError) : ¬ e.core.IsOperand := by
  induction e with
  | operand op pos cause ih => exact ih
  | side side text cause ih => exact ih
  | _ => exact id

/-- The chain of an error consists of at most `k` right operands and the core. The core has no
cause, or it is a parenthesis that is not closed, for the token that stands in the place of the
closing one. -/
structure Layered (k : Nat) (e : EvalError) (operands : List EvalError) : Prop where
  chain_eq : e :: e.causes = operands ++ e.core :: e.core.causes
  isOperand : ∀ c ∈ operands, c.IsOperand
  length_le : operands.length ≤ k
  core : e.core.causes = [] ∨
    ∃ opening cause, e.core = .unclosedParen opening cause ∧ cause.IsUnexpected

/-- An error that is its own core has no contexts. -/
theorem layered_of_core_eq (hcore : e.core = e) (h : e.causes = [] ∨
    ∃ opening cause, e = .unclosedParen opening cause ∧ cause.IsUnexpected) : Layered k e [] where
  chain_eq := by rw [hcore]; rfl
  isOperand := List.forall_mem_nil _
  length_le := Nat.zero_le k
  core := by rw [hcore]; exact h

theorem core_of_fault {limits : Limits} {pos : Nat} {op : BinaryOp}
    (h : op.Fault limits pos e) : e.core = e := by
  cases h <;> rfl

/-- **The chain of an error of reading has layers.** -/
theorem About.exists_layered (h : About ctx k ts e) : ∃ operands, Layered k e operands := by
  induction h with
  | unexpected k ts =>
      have hcore := core_of_isUnexpected (isUnexpected_unexpected ctx .operand ts)
      exact ⟨[], layered_of_core_eq hcore (Or.inl (ctx.causes_unexpected _ ts))⟩
  | number ht hvalue => exact ⟨[], layered_of_core_eq rfl (Or.inl rfl)⟩
  | tooDeep ht => exact ⟨[], layered_of_core_eq rfl (Or.inl rfl)⟩
  | unclosed ht hrest =>
      exact ⟨[], layered_of_core_eq rfl (Or.inr ⟨_, _, rfl, isUnexpected_unexpected ctx _ _⟩)⟩
  | @operand k t ts op e ht he ih =>
      obtain ⟨operands, hlayers⟩ := ih
      refine ⟨.operand op t.pos e :: operands, ?_, ?_, ?_, hlayers.core⟩
      · exact congrArg (List.cons _) hlayers.chain_eq
      · exact List.forall_mem_cons.2 ⟨trivial, hlayers.isOperand⟩
      · exact Nat.succ_le_succ hlayers.length_le
  | fault ht he => exact ⟨[], layered_of_core_eq (core_of_fault he) (Or.inl (causes_of_fault he))⟩
  | later he ih => exact ih

/-- The core takes two places of the chain at most. -/
theorem Layered.length_chain_le {operands : List EvalError} (h : Layered k e operands) :
    (e :: e.causes).length ≤ k + 2 := by
  have hcore : e.core.causes.length ≤ 1 := by
    rcases h.core with hnone | ⟨opening, cause, hunclosed, hcause⟩
    · rw [hnone]
      exact Nat.zero_le 1
    · rw [hunclosed, causes, causes_of_isUnexpected hcause]
      exact Nat.le_refl 1
  have hlength := h.length_le
  rw [h.chain_eq, List.length_append, List.length_cons]
  omega

end EvalError

end RatExpr
