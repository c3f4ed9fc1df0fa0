import RatExpr.Grammar.Acceptor
import RatExpr.Proofs.Grammar.Repetition
import RatExpr.Proofs.Number.Fault

set_option autoImplicit false

/-! # Syntax errors are the verdicts of an acceptor

A parser evaluates while it reads and notices at many places that a token cannot stand where
it does. The acceptor of `Grammar/Acceptor.lean` reads the same tokens once, without recursion
and without evaluating. The main statement, `Parser.complete_verdict`, is that the two agree:
a value means that the tokens are accepted, and a syntax error is the complaint of the
acceptor about the token that it rejects. An error of another kind may come before the
acceptor has decided.

The invariant of a reading (`Reading.Tracks`) is that the verdict does not change: the
acceptor that has followed the reading up to some token, with an operand just read, decides as
it did at the start. The parentheses that are open for the acceptor are those of the nested
expressions that are being read, which is why a nested expression starts with one more.
-/

namespace RatExpr

/-! ## Syntax errors -/

namespace EvalError

/-- Does the error say that a token cannot stand where it does? -/
def IsSyntax : EvalError → Prop
  | unexpectedEnd .. | unexpectedToken .. | trailingToken .. => True
  | _ => False

/-- The error is about the token `t`: about its position if it is the end, about the whole
token otherwise. -/
def Blames (t : Token) : EvalError → Prop
  | unexpectedEnd pos _ => t.kind = .eof ∧ pos = t.pos
  | unexpectedToken token _ | trailingToken token => t.kind ≠ .eof ∧ token = t
  | _ => False

theorem blames_unexpected (expected : Expected) (t : Token) : (unexpected expected t).Blames t := by
  unfold unexpected
  by_cases ht : t.kind = .eof
  · simp [ht, Blames]
  · simp [ht, Blames]

theorem root_unexpected (expected : Expected) (t : Token) :
    (unexpected expected t).root = unexpected expected t := by
  unfold unexpected
  split <;> rfl

theorem core_unexpected (expected : Expected) (t : Token) :
    (unexpected expected t).core = unexpected expected t := by
  unfold unexpected
  split <;> rfl

end EvalError

/-! ## Acceptors -/

namespace Acceptor

/-- What is wrong with a token that an acceptor rejects: it is no operand, it does not close
the innermost parenthesis, or nothing is left for it to do. -/
def complaint (a : Acceptor) (t : Token) : EvalError :=
  if a.expectsOperand then .unexpected .operand t
  else match a.opened with
    | [] => .trailingToken t
    | opening :: _ => .unclosedParen opening (.unexpected .closingParen t)

/-- A token that decides ends the run. -/
theorem run_of_error (ctx : Context) {a : Acceptor} {ts : List Token} {verdict : Verdict}
    (h : a.step (ctx.next ts) = .error verdict) : run ctx.endPos a ts = verdict := by
  cases ts with
  | nil =>
      have hend : a.step (.endAt ctx.endPos) = .error verdict := h
      simp [run, hend]
  | cons t ts =>
      have ht : a.step t = .error verdict := h
      simp [run, ht]

/-- Any other token is passed. -/
theorem run_of_ok {a b : Acceptor} {t : Token} {ts : List Token} (h : a.step t = .ok b)
    (endPos : Nat) : run endPos a (t :: ts) = run endPos b ts := by
  simp [run, h]

/-- What an acceptor complains about is the token that it rejects. -/
theorem blames_complaint {a : Acceptor} {t : Token}
    (h : a.step t = .error (.rejected a t)) : (a.complaint t).root.Blames t := by
  obtain ⟨expects, opened⟩ := a
  cases expects with
  | true =>
      simp only [complaint, if_true, EvalError.root_unexpected]
      exact EvalError.blames_unexpected _ t
  | false =>
      cases opened with
      | nil =>
          refine ⟨fun ht => ?_, rfl⟩
          -- the end would have been accepted
          simp [step, ht, isOperator] at h
      | cons opening opened =>
          simp only [complaint, Bool.false_eq_true, if_false, EvalError.root,
            EvalError.root_unexpected]
          exact EvalError.blames_unexpected _ t

/-! ### Single tokens -/

/-- **The operators are those of the levels of the grammar.** -/
theorem isOperator_eq_false_iff {kind : Token.Kind} : isOperator kind = false ↔
    BinaryOp.additive? kind = none ∧ BinaryOp.multiplicative? kind = none ∧ kind ≠ .power := by
  cases kind <;> decide

theorem isOperator_of_additive {kind : Token.Kind} {op : BinaryOp}
    (h : BinaryOp.additive? kind = some op) : isOperator kind = true := by
  cases kind <;> simp_all [BinaryOp.additive?, isOperator]

theorem isOperator_of_multiplicative {kind : Token.Kind} {op : BinaryOp}
    (h : BinaryOp.multiplicative? kind = some op) : isOperator kind = true := by
  cases kind <;> simp_all [BinaryOp.multiplicative?, isOperator]

/-- An operator calls for an operand. -/
theorem step_operator {t : Token} (h : isOperator t.kind = true) (opened : List Nat) :
    step ⟨false, opened⟩ t = .ok ⟨true, opened⟩ := by
  simp [step, h]

/-- A sign stands before an operand. -/
theorem step_sign {t : Token} {sign : Sign} (h : Sign.ofKind? t.kind = some sign)
    (opened : List Nat) : step ⟨true, opened⟩ t = .ok ⟨true, opened⟩ := by
  cases hkind : t.kind <;> simp [hkind, Sign.ofKind?] at h <;> simp [step, hkind]

/-- Nothing but the operators goes on with an expression. -/
theorem isOperator_eq_false_of_over {t : Token} {ts : List Token}
    (h : Level.Over .expression (t :: ts)) : isOperator t.kind = false :=
  isOperator_eq_false_iff.2 h

/-- A closing parenthesis closes the innermost one. -/
theorem step_close {t : Token} (ht : t.kind = .rightParen) (opening : Nat) (opened : List Nat) :
    step ⟨false, opening :: opened⟩ t = .ok ⟨false, opened⟩ := by
  simp [step, ht, isOperator]

/-- Nothing else ends an expression in parentheses. -/
theorem step_unclosed {t : Token} {ts : List Token} (hover : Level.Over .expression (t :: ts))
    (ht : t.kind ≠ .rightParen) (opening : Nat) (opened : List Nat) :
    step ⟨false, opening :: opened⟩ t = .error (.rejected ⟨false, opening :: opened⟩ t) := by
  have hop := isOperator_eq_false_of_over hover
  cases hkind : t.kind <;> simp_all [step]

/-- The end ends an expression that is in no parentheses. -/
theorem step_end {t : Token} (ht : t.kind = .eof) : step ⟨false, []⟩ t = .error .accepted := by
  simp [step, ht, isOperator]

/-- Nothing else does. -/
theorem step_trailing {t : Token} {ts : List Token} (hover : Level.Over .expression (t :: ts))
    (ht : t.kind ≠ .eof) : step ⟨false, []⟩ t = .error (.rejected ⟨false, []⟩ t) := by
  have hop := isOperator_eq_false_of_over hover
  cases hkind : t.kind <;> simp_all [step]

end Acceptor

/-! ## Readings that an acceptor follows -/

/-- The error is the complaint about the token that is rejected. -/
def Verdict.Explains (verdict : Verdict) (e : EvalError) : Prop :=
  ∃ a t, Acceptor.step a t = .error (.rejected a t) ∧ verdict = .rejected a t ∧
    e.core = a.complaint t

/-- The acceptor that has followed the reading so far still comes to `verdict`: from the
tokens that are left if there is a value, and by now if there is a syntax error. -/
def Reading.Tracks (endPos : Nat) (verdict : Verdict) (opened : List Nat) (level : Level)
    (r : Reading) : Prop :=
  match r.value with
  | .ok _ => Acceptor.run endPos ⟨false, opened⟩ r.rest = verdict ∧ level.Over r.rest
  | .error e => e.root.IsSyntax → verdict.Explains e

namespace Reading

variable {endPos : Nat} {verdict : Verdict} {opened opened' : List Nat} {level level' : Level}

theorem Tracks.of_error {r : Reading} {e : EvalError}
    (h : r.Tracks endPos verdict opened level) (he : r.value = .error e) :
    e.root.IsSyntax → verdict.Explains e := by
  simpa only [Tracks, he] using h

theorem Tracks.of_ok {r : Reading} {v : Rat} (h : r.Tracks endPos verdict opened level)
    (hv : r.value = .ok v) :
    Acceptor.run endPos ⟨false, opened⟩ r.rest = verdict ∧ level.Over r.rest := by
  simpa only [Tracks, hv] using h

theorem Tracks.andThen {r : Reading} {next : Rat → List Token → Reading}
    (h : r.Tracks endPos verdict opened level)
    (hnext : ∀ v rest, Acceptor.run endPos ⟨false, opened⟩ rest = verdict → level.Over rest →
      (next v rest).Tracks endPos verdict opened' level') :
    (r.andThen next).Tracks endPos verdict opened' level' := by
  obtain ⟨value, rest⟩ := r
  cases value with
  | error e => exact h
  | ok v => exact hnext v rest h.1 h.2

/-- What is made of the outcome must add no more than context to an error, and no syntax
error to a value. -/
theorem Tracks.mapValue {r : Reading} {f : Except EvalError Rat → Except EvalError Rat}
    (h : r.Tracks endPos verdict opened level)
    (herror : ∀ e, ∃ e', f (.error e) = .error e' ∧ e'.root = e.root ∧ e'.core = e.core)
    (hok : ∀ v e, f (.ok v) = .error e → ¬ e.root.IsSyntax) :
    (r.mapValue f).Tracks endPos verdict opened level := by
  obtain ⟨value, rest⟩ := r
  cases value with
  | error e =>
      obtain ⟨e', hf, hroot, hcore⟩ := herror e
      simp only [Tracks, Reading.mapValue, hf]
      intro hstray
      rw [hroot] at hstray
      obtain ⟨a, t, hstep, hverdict, hcomplaint⟩ := h hstray
      exact ⟨a, t, hstep, hverdict, hcore.trans hcomplaint⟩
  | ok v =>
      simp only [Tracks, Reading.mapValue]
      cases hf : f (.ok v) with
      | error e => exact fun hstray => absurd hstray (hok v e hf)
      | ok w => exact h

end Reading

/-- An operator raises no syntax error. -/
theorem BinaryOp.Fault.not_isSyntax {limits : Limits} {pos : Nat} {op : BinaryOp} {e : EvalError}
    (h : op.Fault limits pos e) : ¬ e.root.IsSyntax := by
  cases h <;> exact id

/-- A right operand is followed as far as the operator applied to it. -/
theorem Reading.Tracks.combine {endPos : Nat} {verdict : Verdict} {opened : List Nat}
    {level : Level} {r : Reading} (h : r.Tracks endPos verdict opened level) (limits : Limits)
    (op : BinaryOp) (pos : Nat) (a : Rat) :
    (r.mapValue (op.combine limits pos a)).Tracks endPos verdict opened level :=
  h.mapValue (fun e => ⟨.operand op pos e, rfl, rfl, rfl⟩)
    (fun _ _ happly => (BinaryOp.fault_of_apply happly).not_isSyntax)

/-! ## Every level is followed -/

namespace Level

open Acceptor (run step)

/-- The verdict is the same before and after whatever the level reads. -/
def Tracked (ctx : Context) (room : Nat) (level : Level) : Prop :=
  ∀ opened ts, ((readAt ctx room level).run ts).Tracks ctx.endPos
    (run ctx.endPos ⟨true, opened⟩ ts) opened level

variable {ctx : Context} {room : Nat}

/-- Going further in is followed if everything is that is read there. -/
theorem nested_tracks {inner level : Level} {verdict : Verdict} {opened opened' : List Nat}
    {pos : Nat} {after : Reading → Reading} {ts : List Token}
    (hin : ∀ inside, room = inside + 1 → Tracked ctx inside inner)
    (hverdict : run ctx.endPos ⟨true, opened⟩ ts = verdict)
    (hafter : ∀ r : Reading, r.Tracks ctx.endPos verdict opened inner →
      (after r).Tracks ctx.endPos verdict opened' level) :
    (nested ctx (innerAt ctx room) inner pos after ts).Tracks ctx.endPos verdict opened' level := by
  rw [nested_innerAt]
  cases room with
  | zero => exact fun hstray => hstray.elim
  | succ inside => exact hafter _ (hverdict ▸ hin inside rfl opened ts)

theorem close_tracks {opening : Nat} {opened : List Nat} {verdict : Verdict} (v : Rat)
    {ts : List Token} (hverdict : run ctx.endPos ⟨false, opening :: opened⟩ ts = verdict)
    (hover : Over expression ts) :
    (close ctx opening v ts).Tracks ctx.endPos verdict opened atom := by
  -- any other token than the closing parenthesis is rejected
  have hunclosed : ∀ {us : List Token}, Over expression (ctx.next ts :: us) →
      (ctx.next ts).kind ≠ .rightParen →
      verdict.Explains (.unclosedParen opening (ctx.unexpected .closingParen ts)) := by
    intro us hover hkind
    have hstep := Acceptor.step_unclosed hover hkind opening opened
    refine ⟨_, _, hstep, ?_, ?_⟩
    · rw [← hverdict, Acceptor.run_of_error ctx hstep]
    · simp [EvalError.core, Acceptor.complaint, ctx.unexpected_eq]
  cases ts with
  | nil => exact fun _ => hunclosed (over_of_eof _ [] rfl) (by simp [Context.next, Token.endAt])
  | cons t ts =>
      by_cases ht : t.kind = .rightParen
      · rw [Acceptor.run_of_ok (Acceptor.step_close ht opening opened)] at hverdict
        simp only [close, ht, if_true]
        exact ⟨hverdict, trivial⟩
      · simp only [close, ht, if_false]
        exact fun _ => hunclosed hover ht

/-- An atom is followed where no sign stands before it. -/
theorem atom_tracks (hin : ∀ inside, room = inside + 1 → Tracked ctx inside expression)
    (opened : List Nat) {ts : List Token} (hsign : Sign.ofKind? (ctx.next ts).kind = none) :
    ((readAt ctx room atom).run ts).Tracks ctx.endPos (run ctx.endPos ⟨true, opened⟩ ts)
      opened atom := by
  -- a token that starts no atom is rejected
  have hunexpected : step ⟨true, opened⟩ (ctx.next ts) =
        .error (.rejected ⟨true, opened⟩ (ctx.next ts)) →
      (run ctx.endPos ⟨true, opened⟩ ts).Explains (ctx.unexpected .operand ts) := by
    intro hstep
    refine ⟨_, _, hstep, Acceptor.run_of_error ctx hstep, ?_⟩
    rw [ctx.unexpected_eq, EvalError.core_unexpected]
    rfl
  cases ts with
  | nil => exact fun _ => hunexpected rfl
  | cons t ts =>
      have hsign : Sign.ofKind? t.kind = none := hsign
      show (atomRun ctx (innerAt ctx room) (t :: ts)).Tracks _ _ _ _
      cases hkind : t.kind with
      | number =>
          have hstep : step ⟨true, opened⟩ t = .ok ⟨false, opened⟩ := by simp [step, hkind]
          simp only [atomRun, hkind, Acceptor.run_of_ok hstep]
          cases hvalue : Literal.evaluate t.text t.pos with
          | error e =>
              rw [Literal.evaluate_error hvalue]
              exact fun hstray => hstray.elim
          | ok v => exact ⟨rfl, trivial⟩
      | leftParen =>
          have hstep : step ⟨true, opened⟩ t = .ok ⟨true, t.pos :: opened⟩ := by
            simp [step, hkind]
          simp only [atomRun, hkind, Acceptor.run_of_ok hstep]
          exact nested_tracks hin rfl
            fun r hr => hr.andThen fun v rest hrest hover => close_tracks v hrest hover
      | plus => simp [hkind, Sign.ofKind?] at hsign
      | minus => simp [hkind, Sign.ofKind?] at hsign
      | _ =>
          simp only [atomRun, hkind]
          exact fun _ => hunexpected (by simp [Context.next, step, hkind])

theorem tracked_unary (hexpression : ∀ inside, room = inside + 1 → Tracked ctx inside expression)
    (hin : ∀ inside, room = inside + 1 → Tracked ctx inside unary) : Tracked ctx room unary := by
  intro opened ts
  cases ts with
  | nil =>
      have hsign : Sign.ofKind? (ctx.next []).kind = none := rfl
      exact atom_tracks hexpression opened hsign
  | cons t ts =>
      show (unaryRun ctx (innerAt ctx room) (t :: ts)).Tracks _ _ _ _
      cases hsign : Sign.ofKind? t.kind with
      | none =>
          simp only [unaryRun, hsign]
          exact atom_tracks hexpression opened hsign
      | some sign =>
          simp only [unaryRun, hsign, Acceptor.run_of_ok (Acceptor.step_sign hsign opened)]
          refine nested_tracks hin rfl fun r hr => hr.mapValue ?_ ?_
          · exact fun e => ⟨e, rfl, rfl, rfl⟩
          · intro v e he
            simp [Except.map] at he

theorem tracked_power (hunary : Tracked ctx room unary)
    (hin : ∀ inside, room = inside + 1 → Tracked ctx inside power) : Tracked ctx room power := by
  intro opened ts
  refine (hunary opened ts).andThen fun b rest hrest _ => ?_
  cases rest with
  | nil => exact ⟨hrest, trivial⟩
  | cons t rest =>
      by_cases ht : t.kind = .power
      · have hstep := Acceptor.step_operator (t := t) (by rw [ht]; rfl) opened
        rw [Acceptor.run_of_ok hstep] at hrest
        simp only [exponent, ht, if_true]
        exact nested_tracks hin hrest fun r hr => hr.combine ctx.limits .pow t.pos b
      · simp only [exponent, ht, if_false]
        exact ⟨hrest, ht⟩

/-! ### Loops -/

theorem chainFrom_tracks {level operand : Level} (loop : Repetition level operand)
    (hloop : ∀ kind op, loop.operator? kind = some op → Acceptor.isOperator kind = true)
    (hop : Tracked ctx room operand) {verdict : Verdict} {opened : List Nat} (a : Rat)
    {ts : List Token} (hts : run ctx.endPos ⟨false, opened⟩ ts = verdict)
    (hover : Over operand ts) :
    (chainFrom ctx loop.operator? (readAt ctx room operand) a ts).Tracks ctx.endPos verdict
      opened level := by
  fun_induction chainFrom ctx loop.operator? (readAt ctx room operand) a ts with
  | case1 a => exact ⟨hts, over_nil level⟩
  | case2 a t ts ht => exact ⟨hts, (loop.over_cons t ts).2 ⟨ht, hover⟩⟩
  | case3 a t ts op ht right e he =>
      rw [Acceptor.run_of_ok (Acceptor.step_operator (hloop _ op ht) opened)] at hts
      exact ((hts ▸ hop opened ts).combine ctx.limits op t.pos a).of_error he
  | case4 a t ts op ht right w hw ih =>
      rw [Acceptor.run_of_ok (Acceptor.step_operator (hloop _ op ht) opened)] at hts
      have hright := ((hts ▸ hop opened ts).combine ctx.limits op t.pos a).of_ok hw
      exact ih hright.1 hright.2

theorem tracked_repetition {level operand : Level} (loop : Repetition level operand)
    (hloop : ∀ kind op, loop.operator? kind = some op → Acceptor.isOperator kind = true)
    (hop : Tracked ctx room operand) : Tracked ctx room level := by
  intro opened ts
  rw [loop.readAt_eq]
  exact (hop opened ts).andThen fun a rest hrest hover =>
    chainFrom_tracks loop hloop hop a hrest hover

/-- **Every level but the tightest is followed,** however much nesting is allowed. -/
theorem tracked (ctx : Context) (room : Nat) {level : Level} (hlevel : level ≠ atom) :
    Tracked ctx room level := by
  induction room, level using grammar_induction with
  | atom room => exact absurd rfl hlevel
  | unary room hin =>
      exact tracked_unary (fun inside hroom => hin inside (by omega) expression (by decide))
        (fun inside hroom => hin inside (by omega) unary (by decide))
  | power room hin hunary =>
      exact tracked_power (hunary (by decide))
        (fun inside hroom => hin inside (by omega) power (by decide))
  | term room hpower =>
      exact tracked_repetition terms (fun _ _ h => Acceptor.isOperator_of_multiplicative h)
        (hpower (by decide))
  | expression room hterm =>
      exact tracked_repetition sums (fun _ _ h => Acceptor.isOperator_of_additive h)
        (hterm (by decide))

end Level

/-! ## The whole text -/

namespace Parser

/-- The expression that a call reads is followed from the start. -/
theorem expression_tracks (limits : Limits) (ts : List Token) :
    Reading.Tracks (endOf ts) (Acceptor.verdict ts) [] .expression
      ⟨(ofTokens limits ts).expression.1, (ofTokens limits ts).expression.2.rest⟩ :=
  Level.tracked ⟨limits, endOf ts⟩ limits.maxDepth (by decide) [] ts

theorem accepted_of_complete {limits : Limits} {ts : List Token} {v : Rat}
    (h : (ofTokens limits ts).complete.1 = .ok v) : Acceptor.verdict ts = .accepted := by
  obtain ⟨hvalue, hend⟩ := complete_eq_ok_iff.1 h
  obtain ⟨hrun, -⟩ := (expression_tracks limits ts).of_ok hvalue
  rw [← hrun]
  refine Acceptor.run_of_error ⟨limits, endOf ts⟩ (Acceptor.step_end ?_)
  cases hrest : (ofTokens limits ts).expression.2.rest with
  | nil => rfl
  | cons t rest =>
      rw [hrest] at hend
      exact atEnd_cons.1 hend

theorem explains_of_complete {limits : Limits} {ts : List Token} {e : EvalError}
    (h : (ofTokens limits ts).complete.1 = .error e) (hstray : e.root.IsSyntax) :
    (Acceptor.verdict ts).Explains e := by
  have htracks := expression_tracks limits ts
  cases hvalue : (ofTokens limits ts).expression.1 with
  | error e' =>
      have he : e' = e := Except.error.inj ((complete_of_error hvalue).symm.trans h)
      exact htracks.of_error (he ▸ hvalue) hstray
  | ok v =>
      obtain ⟨hrun, hover⟩ := htracks.of_ok hvalue
      rcases complete_of_ok hvalue with ⟨-, hok⟩ | ⟨t, rest, hrest, ht, herror⟩
      · simp [h] at hok
      · -- a value before a token that is not the end: both stop at that token
        simp only [hrest] at hrun hover
        have hstep := Acceptor.step_trailing hover ht
        have he : EvalError.trailingToken t = e := Except.error.inj (herror.symm.trans h)
        refine ⟨_, t, hstep, ?_, ?_⟩
        · rw [← hrun]
          exact Acceptor.run_of_error ⟨limits, endOf ts⟩ hstep
        · rw [← he]
          rfl

/-- **A parser and an acceptor agree.** Tokens that have a value are accepted; where they are
accepted, no token is to blame for an error; and a syntax error is the complaint about the
token that is rejected, at its position. -/
theorem complete_verdict (limits : Limits) (ts : List Token) :
    (∀ v, (ofTokens limits ts).complete.1 = .ok v → Acceptor.verdict ts = .accepted) ∧
    (Acceptor.verdict ts = .accepted →
      ∀ e, (ofTokens limits ts).complete.1 = .error e → ¬ e.root.IsSyntax) ∧
    (∀ e, (ofTokens limits ts).complete.1 = .error e → e.root.IsSyntax →
      ∃ a t, Acceptor.verdict ts = .rejected a t ∧ e.core = a.complaint t ∧
        e.root.Blames t) := by
  refine ⟨fun v hv => accepted_of_complete hv, ?_, ?_⟩
  · intro haccepted e he hstray
    obtain ⟨a, t, -, hrejected, -⟩ := explains_of_complete he hstray
    rw [haccepted] at hrejected
    exact absurd hrejected (by simp)
  · intro e he hstray
    obtain ⟨a, t, hstep, hrejected, hcore⟩ := explains_of_complete he hstray
    refine ⟨a, t, hrejected, hcore, ?_⟩
    rw [← e.root_core, hcore]
    exact Acceptor.blames_complaint hstep

end Parser

end RatExpr
