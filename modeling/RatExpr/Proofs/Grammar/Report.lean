import RatExpr.Grammar.Parser
import RatExpr.Proofs.Grammar.Repetition
import RatExpr.Proofs.Number.Fault

set_option autoImplicit false

/-! # What the errors of reading are about

Everything that reading can fail with is about the tokens that are read: a token that cannot
stand where it does, a number that is none, an operator that has no value, a level of nesting
too many (`EvalError.About`). A right operand is read after its operator and an expression in
parentheses after the opening one, so the causes of an error are about tokens further on.

An error is put into the context of a right operand by the operators around it. The two loops of
the grammar do so once in each nesting, and so does an operator of two stars for an exponent, but
that takes a nesting of its own and no loop stands in it. So there are at most two contexts for
each nesting (`Level.contexts`).

The main statement, `Level.about_readAt`, says both of every level and of any tokens.
-/

namespace RatExpr

/-! ## The tokens of operators -/

/-- The kind of the token that an operator is. -/
def BinaryOp.kind : BinaryOp → Token.Kind
  | .add => .plus
  | .sub => .minus
  | .mul => .star
  | .div => .slash
  | .mod => .percent
  | .pow => .power

theorem BinaryOp.kind_of_additive {kind : Token.Kind} {op : BinaryOp}
    (h : additive? kind = some op) : kind = op.kind := by
  cases kind <;> simp [additive?] at h <;> rw [← h] <;> rfl

theorem BinaryOp.kind_of_multiplicative {kind : Token.Kind} {op : BinaryOp}
    (h : multiplicative? kind = some op) : kind = op.kind := by
  cases kind <;> simp [multiplicative?] at h <;> rw [← h] <;> rfl

/-- The kinds of tokens that open a level of nesting. -/
def Token.Kind.Nests (kind : Token.Kind) : Prop :=
  kind = .leftParen ∨ kind = .power ∨ ∃ sign, Sign.ofKind? kind = some sign

/-! ## Errors about tokens -/

/-- The error is about the tokens of the list, in the context of at most `k` right operands. -/
inductive EvalError.About (ctx : Context) : Nat → List Token → EvalError → Prop
  /-- No operand starts here. -/
  | unexpected (k : Nat) (ts : List Token) : About ctx k ts (ctx.unexpected .operand ts)
  /-- The first token is a number that is none. -/
  | number {k : Nat} {t : Token} {ts : List Token} (ht : t.kind = .number)
      (hvalue : Literal.value? t.text = none) : About ctx k (t :: ts) (.invalidNumber t.text t.pos)
  /-- There is no room for the nesting that the first token opens. -/
  | tooDeep {k : Nat} {t : Token} {ts : List Token} (ht : t.kind.Nests) :
      About ctx k (t :: ts) (.tooDeep ctx.limits.maxDepth t.pos)
  /-- The first token is a parenthesis, and other tokens stand where it has to be closed. -/
  | unclosed {k : Nat} {t : Token} {ts rest : List Token} (ht : t.kind = .leftParen)
      (hrest : rest <:+ ts) :
      About ctx k (t :: ts) (.unclosedParen t.pos (ctx.unexpected .closingParen rest))
  /-- The first token is an operator, and there is an error in its right operand. -/
  | operand {k : Nat} {t : Token} {ts : List Token} {op : BinaryOp} {e : EvalError}
      (ht : t.kind = op.kind) (he : About ctx k ts e) :
      About ctx (k + 1) (t :: ts) (.operand op t.pos e)
  /-- The first token is an operator that is not defined on its operands. -/
  | fault {k : Nat} {t : Token} {ts : List Token} {op : BinaryOp} {e : EvalError}
      (ht : t.kind = op.kind) (he : op.Fault ctx.limits t.pos e) : About ctx k (t :: ts) e
  /-- The error is about tokens after the first one. -/
  | later {k : Nat} {t : Token} {ts : List Token} {e : EvalError} (he : About ctx k ts e) :
      About ctx k (t :: ts) e

theorem EvalError.About.of_suffix {ctx : Context} {k : Nat} {ts rest : List Token} {e : EvalError}
    (h : About ctx k rest e) (hrest : rest <:+ ts) : About ctx k ts e := by
  obtain ⟨before, rfl⟩ := hrest
  induction before with
  | nil => exact h
  | cons t before ih => exact ih.later

/-- There may be fewer contexts than the number says. -/
theorem EvalError.About.of_le {ctx : Context} {k k' : Nat} {ts : List Token} {e : EvalError}
    (h : About ctx k ts e) (hle : k ≤ k') : About ctx k' ts e := by
  induction h generalizing k' with
  | unexpected k ts => exact .unexpected k' ts
  | number ht hvalue => exact .number ht hvalue
  | tooDeep ht => exact .tooDeep ht
  | unclosed ht hrest => exact .unclosed ht hrest
  | operand ht he ih =>
      obtain ⟨m, rfl⟩ := Nat.exists_eq_add_of_lt (Nat.lt_of_succ_le hle)
      exact .operand ht (ih (by omega))
  | fault ht he => exact .fault ht he
  | later he ih => exact (ih hle).later

/-- The error for a token that is not expected has no cause. -/
theorem Context.causes_unexpected (ctx : Context) (expected : Expected) (ts : List Token) :
    (ctx.unexpected expected ts).causes = [] := by
  cases ts with
  | nil => rfl
  | cons t ts =>
      simp only [unexpected]
      split <;> rfl

/-! ## Readings -/

/-- If the reading fails, the error is about the tokens `ts`, in at most `k` contexts. -/
def Reading.Reports (ctx : Context) (k : Nat) (ts : List Token) (r : Reading) : Prop :=
  ∀ e, r.value = .error e → EvalError.About ctx k ts e

/-- Whatever the reader fails with is about the tokens that it is given. -/
def Reader.Reports (ctx : Context) (k : Nat) (reader : Reader) : Prop :=
  ∀ ts, (reader.run ts).Reports ctx k ts

namespace Reading

variable {ctx : Context} {k k' : Nat} {ts rest : List Token} {r : Reading}

theorem reports_ok (v : Rat) : Reports ctx k ts ⟨.ok v, rest⟩ := by
  intro e he
  exact absurd he (by simp)

theorem reports_error {e : EvalError} (h : EvalError.About ctx k ts e) :
    Reports ctx k ts ⟨.error e, rest⟩ := by
  rintro e' ⟨⟩
  exact h

theorem Reports.of_suffix (h : r.Reports ctx k rest) (hrest : rest <:+ ts) :
    r.Reports ctx k ts :=
  fun e he => (h e he).of_suffix hrest

theorem Reports.of_le (h : r.Reports ctx k ts) (hle : k ≤ k') : r.Reports ctx k' ts :=
  fun e he => (h e he).of_le hle

theorem Reports.andThen {next : Rat → List Token → Reading} (h : r.Reports ctx k ts)
    (hnext : ∀ v, (next v r.rest).Reports ctx k ts) : (r.andThen next).Reports ctx k ts := by
  obtain ⟨value, rest⟩ := r
  cases value with
  | error e => exact h
  | ok v => exact hnext v

/-- The operator before a right operand is not defined, or there is an error in the operand,
which gets the operator as a context. -/
theorem Reports.combine {t : Token} {op : BinaryOp} (h : r.Reports ctx k ts)
    (ht : t.kind = op.kind) (a : Rat) :
    (r.mapValue (op.combine ctx.limits t.pos a)).Reports ctx (k + 1) (t :: ts) := by
  obtain ⟨value, rest⟩ := r
  cases value with
  | error e => exact reports_error (.operand ht (h e rfl))
  | ok b => exact fun e he => .fault ht (BinaryOp.fault_of_apply he)

end Reading

/-! ## Every level -/

section

variable {ctx : Context} {k : Nat} {operator? : Token.Kind → Option BinaryOp} {operand : Reader}

/-- A loop adds its operator as a context to the errors of its operands. -/
theorem chainFrom_reports (hop : ∀ kind op, operator? kind = some op → kind = op.kind)
    (h : operand.Reports ctx k) (a : Rat) (ts : List Token) :
    (chainFrom ctx operator? operand a ts).Reports ctx (k + 1) ts := by
  fun_induction chainFrom ctx operator? operand a ts with
  | case1 a => exact Reading.reports_ok a
  | case2 a t ts ht => exact Reading.reports_ok a
  | case3 a t ts op ht right e he =>
      exact Reading.reports_error ((h ts).combine (hop _ op ht) a e he)
  | case4 a t ts op ht right b hb ih =>
      exact ih.of_suffix ((operand.rest_suffix ts).trans (List.suffix_cons t ts))

theorem chain_reports (hop : ∀ kind op, operator? kind = some op → kind = op.kind)
    (h : operand.Reports ctx k) : (chain ctx operator? operand).Reports ctx (k + 1) := by
  intro ts
  refine ((h ts).of_le (Nat.le_succ k)).andThen fun v => ?_
  exact (chainFrom_reports hop h v _).of_suffix (operand.rest_suffix ts)

namespace Level

/-- The contexts that an error of a level can have, where `room` levels of nesting are allowed. -/
def contexts (room : Nat) : Level → Nat
  | expression => 2 * room + 2
  | term => 2 * room + 1
  | _ => 2 * room

/-- Everything a level fails with is about the tokens that it is given, in no more contexts than
the level has. -/
def Reporting (ctx : Context) (room : Nat) (level : Level) : Prop :=
  (readAt ctx room level).Reports ctx (level.contexts room)

variable {room : Nat} {t : Token} {ts : List Token}

/-- Going further in fails about the token that opens the nesting, or about those inside. -/
theorem nested_reports {level : Level} (ht : t.kind.Nests) {after : Reading → Reading}
    (hafter : ∀ inside, room = inside + 1 →
      (after ((readAt ctx inside level).run ts)).Reports ctx k (t :: ts)) :
    (nested ctx (innerAt ctx room) level t.pos after ts).Reports ctx k (t :: ts) := by
  rw [nested_innerAt]
  cases room with
  | zero => exact Reading.reports_error (.tooDeep ht)
  | succ inside => exact hafter inside rfl

theorem close_reports (ht : t.kind = .leftParen) (v : Rat) {rest : List Token}
    (hrest : rest <:+ ts) : (close ctx t.pos v rest).Reports ctx k (t :: ts) := by
  cases rest with
  | nil => exact Reading.reports_error (.unclosed ht hrest)
  | cons u rest =>
      simp only [close]
      split
      · exact Reading.reports_ok v
      · exact Reading.reports_error (.unclosed ht hrest)

theorem atom_reports (hin : ∀ inside, room = inside + 1 → Reporting ctx inside expression) :
    Reporting ctx room atom := by
  intro ts
  show (atomRun ctx (innerAt ctx room) ts).Reports ctx (2 * room) ts
  cases ts with
  | nil => exact Reading.reports_error (.unexpected _ [])
  | cons t ts =>
      cases hkind : t.kind with
      | number =>
          simp only [atomRun, hkind]
          intro e he
          rw [Literal.evaluate_error he]
          exact .number hkind (Literal.value?_of_error he)
      | leftParen =>
          simp only [atomRun, hkind]
          refine nested_reports (Or.inl hkind) fun inside hroom => ?_
          have hcontexts : expression.contexts inside ≤ 2 * room := by
            simp only [contexts]
            omega
          have hinside := ((hin inside hroom ts).of_le hcontexts).of_suffix (List.suffix_cons t ts)
          exact hinside.andThen fun v =>
            close_reports hkind v ((readAt ctx inside expression).rest_suffix ts)
      | _ =>
          simp only [atomRun, hkind]
          exact Reading.reports_error (.unexpected _ (t :: ts))

theorem unary_reports (hatom : Reporting ctx room atom)
    (hin : ∀ inside, room = inside + 1 → Reporting ctx inside unary) :
    Reporting ctx room unary := by
  intro ts
  cases ts with
  | nil => exact hatom []
  | cons t ts =>
      show (unaryRun ctx (innerAt ctx room) (t :: ts)).Reports ctx (2 * room) (t :: ts)
      cases hsign : Sign.ofKind? t.kind with
      | none =>
          simp only [unaryRun, hsign]
          exact hatom (t :: ts)
      | some sign =>
          simp only [unaryRun, hsign]
          refine nested_reports (Or.inr (Or.inr ⟨sign, hsign⟩)) fun inside hroom e he => ?_
          -- a sign changes no error
          cases hvalue : ((readAt ctx inside unary).run ts).value with
          | error e' =>
              simp only [Reading.mapValue, hvalue, Except.map, Except.error.injEq] at he
              have hcontexts : unary.contexts inside ≤ 2 * room := by
                simp only [contexts]
                omega
              exact he ▸ ((hin inside hroom ts e' hvalue).of_le hcontexts).later
          | ok v => simp [Reading.mapValue, hvalue, Except.map] at he

theorem power_reports (hunary : Reporting ctx room unary)
    (hin : ∀ inside, room = inside + 1 → Reporting ctx inside power) :
    Reporting ctx room power := by
  intro ts
  refine (hunary ts).andThen fun b => ?_
  have hsuffix := (readAt ctx room unary).rest_suffix ts
  refine Reading.Reports.of_suffix ?_ hsuffix
  cases ((readAt ctx room unary).run ts).rest with
  | nil => exact Reading.reports_ok b
  | cons t rest =>
      simp only [exponent]
      split
      · rename_i ht
        refine nested_reports (Or.inr (Or.inl ht)) fun inside hroom => ?_
        have hcontexts : power.contexts inside + 1 ≤ unary.contexts room := by
          simp only [contexts]
          omega
        exact ((hin inside hroom rest).combine ht b).of_le hcontexts
      · exact Reading.reports_ok b

/-- **Every level fails about the tokens that it is given,** however much nesting is allowed, and
each nesting adds at most two contexts. -/
theorem about_readAt (ctx : Context) (room : Nat) (level : Level) :
    Reporting ctx room level := by
  induction room, level using grammar_induction with
  | atom room hin => exact atom_reports fun inside hroom => hin inside (by omega) expression
  | unary room hin hatom =>
      exact unary_reports hatom fun inside hroom => hin inside (by omega) unary
  | power room hin hunary =>
      exact power_reports hunary fun inside hroom => hin inside (by omega) power
  | term room hpower => exact chain_reports (fun _ _ => BinaryOp.kind_of_multiplicative) hpower
  | expression room hterm => exact chain_reports (fun _ _ => BinaryOp.kind_of_additive) hterm

end Level

end

/-! ## Calls -/

namespace Parser

/-- The errors of a call are about its tokens, or about the token after the expression. -/
theorem about_of_complete {limits : Limits} {ts : List Token} {e : EvalError}
    (h : (ofTokens limits ts).complete.1 = .error e) :
    EvalError.About ⟨limits, endOf ts⟩ (2 * (limits.maxDepth + 1)) ts e ∨
      ∃ t ∈ ts, t.kind ≠ .eof ∧ e = .trailingToken t := by
  cases hvalue : (ofTokens limits ts).expression.1 with
  | error e' =>
      obtain rfl := Except.error.inj ((complete_of_error hvalue).symm.trans h)
      exact Or.inl (Level.about_readAt ⟨limits, endOf ts⟩ limits.maxDepth .expression ts _ hvalue)
  | ok v =>
      rcases complete_of_ok hvalue with ⟨-, hok⟩ | ⟨t, rest, hrest, ht, herror⟩
      · rw [hok] at h
        exact absurd h (by simp)
      · obtain rfl := Except.error.inj (herror.symm.trans h)
        have hsuffix := (ofTokens limits ts).expression_rest_suffix
        rw [hrest] at hsuffix
        exact Or.inr ⟨t, hsuffix.subset List.mem_cons_self, ht, rfl⟩

end Parser

end RatExpr
