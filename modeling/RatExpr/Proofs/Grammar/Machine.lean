import RatExpr.Grammar.Machine
import RatExpr.Proofs.Grammar.Alignment
import RatExpr.Proofs.Number.Checked

set_option autoImplicit false

/-! # A machine does what a parser does

A machine that is called level by level gives what the reader of the level gives, value or
error, and stops where it stops (`Action.call_reads`). It never breaks down: every level of
nesting that has been entered is left again, also with an error, so that there is always one to
be left, and never more than the limit; a level of nesting takes at most five calls on the stack,
and as much room is left on it as levels of nesting may still be entered; each turn of a loop
passes a token; and numbers and operators do not break down by themselves.
-/

namespace RatExpr

namespace Machine

/-- The tokens that are left. -/
def left (m : Machine) : List Token := m.tokens.drop m.cursor

/-- The machine, with the cursor at another token. -/
def withCursor (m : Machine) (cursor : Nat) : Machine := { m with cursor := cursor }

/-- The machine, with other tokens left. -/
def leaving (m : Machine) (rest : List Token) : Machine :=
  m.withCursor (m.tokens.length - rest.length)

/-- The machine is in a state in which a level can be called, with room for that many further
levels of nesting. -/
structure Ready (ctx : Context) (room : Nat) (m : Machine) : Prop where
  cursor_le : m.cursor ≤ m.tokens.length
  kind_endToken : m.endToken.kind = .eof
  pos_endToken : m.endToken.pos = ctx.endPos
  limits_eq : m.limits = ctx.limits
  depth_add : m.depth + room = ctx.limits.maxDepth

variable {ctx : Context} {room : Nat} {m : Machine} {t : Token} {ts rest : List Token}

theorem left_suffix (m : Machine) : m.left <:+ m.tokens := List.drop_suffix m.cursor m.tokens

theorem left_leaving (h : rest <:+ m.left) : (m.leaving rest).left = rest :=
  (List.suffix_iff_eq_drop.1 (h.trans m.left_suffix)).symm

theorem leaving_left (h : m.cursor ≤ m.tokens.length) : m.leaving m.left = m := by
  have hcursor : m.tokens.length - m.left.length = m.cursor := by
    rw [left, List.length_drop]
    omega
  rw [leaving, hcursor, withCursor]

theorem Ready.leaving (h : m.Ready ctx room) (rest : List Token) :
    (m.leaving rest).Ready ctx room :=
  ⟨Nat.sub_le _ _, h.kind_endToken, h.pos_endToken, h.limits_eq, h.depth_add⟩

/-- The current token is the first that is left. -/
theorem current_of_cons (h : m.left = t :: ts) : m.current = t := by
  have hget : m.tokens[m.cursor]? = some t := by
    rw [← List.head?_drop]
    exact congrArg List.head? h
  rw [current, List.getD_eq_getElem?_getD, hget, Option.getD_some]

theorem current_of_nil (h : m.left = []) : m.current = m.endToken := by
  have hget : m.tokens[m.cursor]? = none := List.getElem?_eq_none (List.drop_eq_nil_iff.1 h)
  rw [current, List.getD_eq_getElem?_getD, hget, Option.getD_none]

/-- Passing the current token leaves the others. -/
theorem advanced_of_cons (h : m.left = t :: ts) : m.advanced = m.leaving ts := by
  have hlength : m.tokens.length - m.cursor = ts.length + 1 := by
    rw [← List.length_drop, ← List.length_cons]
    exact congrArg List.length h
  have hcursor : m.cursor + 1 = m.tokens.length - ts.length := by omega
  have hlt : m.cursor < m.tokens.length := by omega
  rw [advanced, if_pos hlt, leaving, ← hcursor, withCursor]

theorem left_leaving_of_cons (h : m.left = t :: ts) : (m.leaving ts).left = ts :=
  left_leaving (h ▸ List.suffix_cons t ts)

/-- Where nothing is left, the current token is the end. -/
theorem Ready.kind_current_of_nil (hm : m.Ready ctx room) (h : m.left = []) :
    m.current.kind = .eof := by
  rw [current_of_nil h, hm.kind_endToken]

/-- What is expected is missed at the current token. -/
theorem Ready.unexpected_current (hm : m.Ready ctx room) (expected : Expected) :
    EvalError.unexpected expected m.current = ctx.unexpected expected m.left := by
  cases hleft : m.left with
  | nil =>
      rw [current_of_nil hleft, EvalError.unexpected, if_pos hm.kind_endToken, hm.pos_endToken]
      rfl
  | cons t ts =>
      rw [current_of_cons hleft]
      rfl

end Machine

namespace Action

variable {α β : Type} {m m' : Machine}

/-! ## Actions one after the other -/

theorem bind_of_ok {x : Action α} {f : α → Action β} {v : α} (h : x m = .ok (.ok v, m')) :
    (x >>= f) m = f v m' := by
  simp only [bind, ExceptT.bind, ExceptT.mk, StateT.bind, h, Except.bind, ExceptT.bindCont]

theorem bind_of_error {x : Action α} {f : α → Action β} {e : EvalError}
    (h : x m = .ok (.error e, m')) : (x >>= f) m = .ok (.error e, m') := by
  simp only [bind, ExceptT.bind, ExceptT.mk, StateT.bind, h, Except.bind, ExceptT.bindCont]
  rfl

theorem peek_bind (f : Token → Action α) : (peek >>= f) m = f m.current m := rfl

theorem advance_bind (f : Unit → Action α) : (advance >>= f) m = f () m.advanced := rfl

theorem get_bind (f : Machine → Action α) : ((get : Action Machine) >>= f) m = f m m := rfl

/-- What an action comes to is not lost by observing it. -/
theorem observe_bind {x : Action α} {outcome : Except EvalError α}
    (h : x m = .ok (outcome, m')) (f : Except EvalError α → Action β) :
    (observe x >>= f) m = f outcome m' :=
  bind_of_ok (by simp only [observe, h])

/-! ## What breaks down nowhere -/

theorem combine_eq (op : BinaryOp) (pos : Nat) (left : Rat) (right : Except EvalError Rat) :
    combine op pos left right m = .ok (op.combine m.limits pos left right, m) := by
  rw [combine, get_bind, Checked.combine_eq]
  rfl

theorem count_of_le {depth : Nat} (h : depth ≤ m.limits.maxDepth) :
    count depth m = .ok (.ok (), { m with depth := depth }) :=
  if_neg (Nat.not_lt.2 h)

/-- At the limit no further level is entered. -/
theorem enter_of_le (h : m.limits.maxDepth ≤ m.depth) (pos : Nat) :
    enter pos m = .ok (.error (.tooDeep m.limits.maxDepth pos), m) := by
  rw [enter, get_bind, if_pos h]
  rfl

/-- Below the limit the counter goes up to the limit at most. -/
theorem enter_of_lt (h : m.depth < m.limits.maxDepth) (pos : Nat) :
    enter pos m = .ok (.ok (), { m with depth := m.depth + 1 }) := by
  rw [enter, get_bind, if_neg (Nat.not_le.2 h), count_of_le h]

/-- A level that has been entered can be left. -/
theorem leave_of_succ {depth : Nat} (hdepth : m.depth = depth + 1)
    (hle : depth ≤ m.limits.maxDepth) : leave m = .ok (.ok (), { m with depth := depth }) := by
  rw [leave, get_bind]
  simp only [hdepth]
  exact count_of_le hle

/-! ## Actions and readers -/

/-- The action gives the outcome of a reading, and leaves what it leaves. -/
def Answers (x : Action Rat) (m : Machine) (r : Reading) : Prop :=
  x m = .ok (r.value, m.leaving r.rest)

/-- The action does what the reader does, where `room` more levels of nesting are allowed. -/
def Reads (ctx : Context) (room : Nat) (x : Action Rat) (reader : Reader) : Prop :=
  ∀ m, m.Ready ctx room → x.Answers m (reader.run m.left)

variable {ctx : Context} {room : Nat} {x : Action Rat} {r : Reading} {t : Token}
  {ts : List Token}

/-- What an action does without moving is a reading that takes nothing. -/
theorem answers_of_stay {outcome : Except EvalError Rat} (hm : m.Ready ctx room)
    (h : x m = .ok (outcome, m)) : x.Answers m ⟨outcome, m.left⟩ := by
  unfold Answers
  rw [h, Machine.leaving_left hm.cursor_le]

theorem Answers.bind {f : Rat → Action Rat} {next : Rat → List Token → Reading}
    (h : x.Answers m r) (hf : ∀ v, (f v).Answers (m.leaving r.rest) (next v r.rest)) :
    (x >>= f).Answers m (r.andThen next) := by
  unfold Answers Reading.andThen
  cases hr : r.value with
  | error e => exact bind_of_error (h.trans (by rw [hr]))
  | ok v => exact (bind_of_ok (h.trans (by rw [hr]))).trans (hf v)

/-- An action that passes the current token first. -/
theorem Answers.advance (hleft : m.left = t :: ts) (h : x.Answers (m.leaving ts) r) :
    (advance >>= fun _ => x).Answers m r := by
  unfold Answers
  rw [advance_bind, Machine.advanced_of_cons hleft]
  exact h

/-- An operator is applied to the outcome of its right operand. -/
theorem combine_answers (hm : m.Ready ctx room) (op : BinaryOp) (pos : Nat) (a : Rat) (r : Reading) :
    (combine op pos a r.value).Answers (m.leaving r.rest)
      (r.mapValue (op.combine ctx.limits pos a)) := by
  rw [← hm.limits_eq]
  exact combine_eq op pos a r.value

/-! ## Loops -/

theorem loop_answers {operator? : Token.Kind → Option BinaryOp} (heof : operator? .eof = none)
    {operand : Reader} (hx : x.Reads ctx room operand) (turns : Nat) (a : Rat)
    (hm : m.Ready ctx room) (hturns : m.left.length < turns) :
    (loop operator? x turns a).Answers m (chainFrom ctx operator? operand a m.left) := by
  induction turns generalizing a m with
  | zero => exact absurd hturns (by omega)
  | succ turns ih =>
      unfold Answers
      rw [loop, peek_bind]
      cases hleft : m.left with
      | nil =>
          rw [hm.kind_current_of_nil hleft, heof, chainFrom_nil, ← hleft]
          exact answers_of_stay hm rfl
      | cons t ts =>
          rw [Machine.current_of_cons hleft]
          cases ht : operator? t.kind with
          | none =>
              rw [chainFrom_cons_of_none _ _ _ _ ht, ← hleft]
              exact answers_of_stay hm rfl
          | some op =>
              have hready := hm.leaving ts
              have hts : (m.leaving ts).left = ts := Machine.left_leaving_of_cons hleft
              have hright := hx _ hready
              rw [hts] at hright
              rw [chainFrom_cons_of_some _ _ _ _ ht]
              refine Answers.advance hleft ?_
              unfold Answers
              rw [observe_bind hright]
              refine (combine_answers hready op t.pos a _).bind fun v => ?_
              -- the loop goes on where the right operand has stopped
              have hsuffix := operand.rest_suffix ts
              have hrest : (m.leaving (operand.run ts).rest).left = (operand.run ts).rest :=
                Machine.left_leaving (hleft ▸ hsuffix.trans (List.suffix_cons t ts))
              have hshort : (m.leaving (operand.run ts).rest).left.length < turns := by
                have := hsuffix.length_le
                rw [hrest]
                simp only [hleft, List.length_cons] at hturns
                omega
              have hgo := ih v (hm.leaving _) hshort
              rw [hrest] at hgo
              exact hgo

theorem repeated_reads {operator? : Token.Kind → Option BinaryOp} (heof : operator? .eof = none)
    {operand : Reader} (hx : x.Reads ctx room operand) :
    (repeated operator? x).Reads ctx room (chain ctx operator? operand) := by
  intro m hm
  refine (hx m hm).bind fun a => ?_
  have hrest : (m.leaving (operand.run m.left).rest).left = (operand.run m.left).rest :=
    Machine.left_leaving (operand.rest_suffix m.left)
  have hturns : (m.leaving (operand.run m.left).rest).left.length < m.tokens.length + 1 :=
    Nat.lt_succ_of_le (Machine.left_suffix _).length_le
  have hgo := loop_answers heof hx (m.tokens.length + 1) a (hm.leaving _) hturns
  rw [hrest] at hgo
  exact hgo

/-! ## Levels of nesting -/

open Level (readAt innerAt nested_innerAt)

/-- The action does what the reader of a level does, further in. -/
def ReadsIn (ctx : Context) (room : Nat) (x : Action Rat) (level : Level) : Prop :=
  ∀ inside, room = inside + 1 → x.Reads ctx inside (readAt ctx inside level)

/-- **A level of nesting is left as it was entered,** with a value and with an error. -/
theorem nested_answers {level : Level} (hm : m.Ready ctx room) (hin : x.ReadsIn ctx room level)
    (pos : Nat) (next : Except EvalError Rat → Action Rat) (after : Reading → Reading)
    (hnext : ∀ r : Reading, r.rest <:+ m.left →
      (next r.value).Answers (m.leaving r.rest) (after r)) :
    (nested pos x >>= next).Answers m
      (Level.nested ctx (innerAt ctx room) level pos after m.left) := by
  have hdepth := hm.depth_add
  rw [nested_innerAt]
  cases room with
  | zero =>
      have henter : enter pos m = .ok (.error (.tooDeep ctx.limits.maxDepth pos), m) := by
        rw [enter_of_le (by rw [hm.limits_eq]; omega), hm.limits_eq]
      have hnested : nested pos x m = .ok (.error (.tooDeep ctx.limits.maxDepth pos), m) :=
        bind_of_error henter
      exact answers_of_stay hm (bind_of_error hnested)
  | succ inside =>
      have hdeeper : Machine.Ready ctx inside { m with depth := m.depth + 1 } :=
        ⟨hm.cursor_le, hm.kind_endToken, hm.pos_endToken, hm.limits_eq, by simp only; omega⟩
      have hlimit : m.depth < m.limits.maxDepth := by
        rw [hm.limits_eq]
        omega
      have henter := enter_of_lt hlimit pos
      have hinside := hin inside rfl _ hdeeper
      have hleave (rest : List Token) :
          leave (Machine.leaving { m with depth := m.depth + 1 } rest) =
            .ok (.ok (), m.leaving rest) := leave_of_succ rfl hlimit.le
      have hnested : nested pos x m = .ok (.ok ((readAt ctx inside level).run m.left).value,
          m.leaving ((readAt ctx inside level).run m.left).rest) := by
        rw [nested, bind_of_ok henter, observe_bind hinside, bind_of_ok (hleave _)]
        rfl
      exact (bind_of_ok hnested).trans (hnext _ ((readAt ctx inside level).rest_suffix m.left))

/-- The current token opens a level of nesting. -/
theorem opening_answers {level : Level} (hm : m.Ready ctx room) (hleft : m.left = t :: ts)
    (hin : x.ReadsIn ctx room level) (pos : Nat) {next : Except EvalError Rat → Action Rat}
    {after : Reading → Reading}
    (hnext : ∀ r : Reading, r.rest <:+ ts → (next r.value).Answers (m.leaving r.rest) (after r)) :
    (advance >>= fun _ => nested pos x >>= next).Answers m
      (Level.nested ctx (innerAt ctx room) level pos after ts) := by
  have hts : (m.leaving ts).left = ts := Machine.left_leaving_of_cons hleft
  have hnested := nested_answers (hm.leaving ts) hin pos next after (hts.symm ▸ hnext)
  rw [hts] at hnested
  exact hnested.advance hleft

/-! ## Levels of the grammar -/

variable {call : Level → Action Rat}

theorem expect_of_kind {kind : Token.Kind} (h : m.current.kind = kind) (expected : Expected) :
    expect kind expected m = .ok (.ok (), m.advanced) := by
  rw [expect, peek_bind, if_pos h]
  rfl

theorem expect_of_kind_ne {kind : Token.Kind} (h : m.current.kind ≠ kind) (expected : Expected) :
    expect kind expected m = .ok (.error (.unexpected expected m.current), m) := by
  rw [expect, peek_bind, if_neg h]
  rfl

/-- The closing parenthesis comes after the expression. -/
theorem close_answers (hm : m.Ready ctx room) (opening : Nat) (v : Rat) :
    (close opening >>= fun _ => pure v).Answers m (Level.close ctx opening v m.left) := by
  have hunclosed (ht : m.current.kind ≠ .rightParen) :
      (close opening >>= fun _ => pure v).Answers m
        ⟨.error (.unclosedParen opening (ctx.unexpected .closingParen m.left)), m.left⟩ := by
    rw [← hm.unexpected_current]
    exact answers_of_stay hm (bind_of_error (observe_bind (expect_of_kind_ne ht _) _))
  cases hleft : m.left with
  | nil =>
      rw [Level.close, ← hleft]
      exact hunclosed (by rw [hm.kind_current_of_nil hleft]; decide)
  | cons t ts =>
      have hcurrent := Machine.current_of_cons hleft
      rw [Level.close]
      by_cases ht : t.kind = .rightParen
      · rw [if_pos ht]
        unfold Answers
        have hexpect := expect_of_kind (hcurrent ▸ ht) .closingParen
        rw [Machine.advanced_of_cons hleft] at hexpect
        exact bind_of_ok (observe_bind hexpect _)
      · rw [if_neg ht, ← hleft]
        exact hunclosed (hcurrent ▸ ht)

theorem atom_reads (hin : (call .expression).ReadsIn ctx room .expression) :
    (body call .atom).Reads ctx room (readAt ctx room .atom) := by
  intro m hm
  show (body call .atom).Answers m (Level.atomRun ctx (innerAt ctx room) m.left)
  -- any other token than a number and an opening parenthesis is not passed
  have hunexpected : (throw (.unexpected .operand m.current) : Action Rat).Answers m
      ⟨.error (ctx.unexpected .operand m.left), m.left⟩ := by
    rw [← hm.unexpected_current]
    exact answers_of_stay hm rfl
  unfold Answers
  rw [body, peek_bind]
  cases hleft : m.left with
  | nil =>
      rw [hm.kind_current_of_nil hleft, Level.atomRun, ← hleft]
      exact hunexpected
  | cons t ts =>
      rw [Machine.current_of_cons hleft] at hunexpected ⊢
      simp only [Level.atomRun]
      cases hkind : t.kind with
      | number =>
          rw [Checked.number_eq]
          exact Answers.advance hleft rfl
      | leftParen =>
          refine opening_answers hm hleft hin t.pos fun r hr => ?_
          refine Answers.bind (x := ofOutcome r.value) rfl fun v => ?_
          have hclose := close_answers (hm.leaving r.rest) t.pos v
          rw [Machine.left_leaving (hleft ▸ hr.trans (List.suffix_cons t ts))] at hclose
          exact hclose
      | _ =>
          rw [← hleft]
          exact hunexpected

theorem unary_reads (hatom : (call .atom).Reads ctx room (readAt ctx room .atom))
    (hin : (call .unary).ReadsIn ctx room .unary) :
    (body call .unary).Reads ctx room (readAt ctx room .unary) := by
  intro m hm
  show (body call .unary).Answers m (Level.unaryRun ctx (innerAt ctx room) m.left)
  have hread := hatom m hm
  unfold Answers
  rw [body, peek_bind]
  cases hleft : m.left with
  | nil =>
      rw [hm.kind_current_of_nil hleft]
      rw [hleft] at hread
      exact hread
  | cons t ts =>
      rw [Machine.current_of_cons hleft]
      rw [hleft] at hread
      simp only [Level.unaryRun]
      cases Sign.ofKind? t.kind with
      | none => exact hread
      | some sign => exact opening_answers hm hleft hin t.pos fun r hr => rfl

theorem exponent_answers (hin : x.ReadsIn ctx room .power) (hm : m.Ready ctx room)
    (base : Rat) :
    (exponent x base).Answers m (Level.exponent ctx (innerAt ctx room) base m.left) := by
  unfold Answers
  rw [exponent, peek_bind]
  cases hleft : m.left with
  | nil =>
      rw [Level.exponent, ← hleft, if_neg (by rw [hm.kind_current_of_nil hleft]; decide)]
      exact answers_of_stay hm rfl
  | cons t ts =>
      rw [Machine.current_of_cons hleft, Level.exponent]
      by_cases ht : t.kind = .power
      · rw [if_pos ht, if_pos ht]
        exact opening_answers hm hleft hin t.pos fun r hr => combine_answers hm .pow t.pos base r
      · rw [if_neg ht, if_neg ht, ← hleft]
        exact answers_of_stay hm rfl

theorem power_reads (hunary : (call .unary).Reads ctx room (readAt ctx room .unary))
    (hin : (call .power).ReadsIn ctx room .power) :
    (body call .power).Reads ctx room (readAt ctx room .power) := by
  intro m hm
  refine Answers.bind (hunary m hm) fun base => ?_
  have hexponent := exponent_answers hin
    (hm.leaving ((readAt ctx room .unary).run m.left).rest) base
  rw [Machine.left_leaving ((readAt ctx room .unary).rest_suffix m.left)] at hexponent
  exact hexponent

/-! ## The stack -/

/-- How many levels there are from the tightest one on. -/
def height : Level → Nat
  | .expression => 5
  | .term => 4
  | .power => 3
  | .unary => 2
  | .atom => 1

/-- Calling a level takes one place on the stack. -/
theorem call_of_lt {frames k : Nat} (hk : k < frames) (level : Level) :
    ∃ left, k ≤ left ∧ Action.call frames level = body (Action.call left) level := by
  obtain ⟨left, rfl⟩ := Nat.exists_eq_add_of_lt hk
  exact ⟨k + left, Nat.le_add_right k left, rfl⟩

/-- **A level is read on a stack with five places for each level of nesting.** -/
theorem call_reads (ctx : Context) (room : Nat) (level : Level) {frames : Nat}
    (hframes : 5 * room + height level ≤ frames) :
    (Action.call frames level).Reads ctx room (readAt ctx room level) := by
  induction room, level using Level.grammar_induction generalizing frames with
  | atom room hin =>
      obtain ⟨left, hleft, hcall⟩ := call_of_lt (k := 5 * room) hframes .atom
      rw [hcall]
      exact atom_reads fun inside hroom =>
        hin inside (by omega) .expression (by simp only [height]; omega)
  | unary room hin hatom =>
      obtain ⟨left, hleft, hcall⟩ := call_of_lt (k := 5 * room + 1) hframes .unary
      rw [hcall]
      exact unary_reads (hatom hleft) fun inside hroom =>
        hin inside (by omega) .unary (by simp only [height]; omega)
  | power room hin hunary =>
      obtain ⟨left, hleft, hcall⟩ := call_of_lt (k := 5 * room + 2) hframes .power
      rw [hcall]
      exact power_reads (hunary hleft) fun inside hroom =>
        hin inside (by omega) .power (by simp only [height]; omega)
  | term room hpower =>
      obtain ⟨left, hleft, hcall⟩ := call_of_lt (k := 5 * room + 3) hframes .term
      rw [hcall]
      exact repeated_reads rfl (hpower hleft)
  | expression room hterm =>
      obtain ⟨left, hleft, hcall⟩ := call_of_lt (k := 5 * room + 4) hframes .expression
      rw [hcall]
      exact repeated_reads rfl (hterm hleft)

/-! ## Calls from outside -/

/-- No level of nesting has been entered before a call. -/
theorem expression_answers (hm : m.Ready ctx ctx.limits.maxDepth) :
    expression.Answers m ((readAt ctx ctx.limits.maxDepth .expression).run m.left) := by
  have hframes : 5 * ctx.limits.maxDepth + height .expression ≤
      5 * (m.limits.maxDepth + 1) := by
    rw [hm.limits_eq, height]
    omega
  have hread := call_reads ctx ctx.limits.maxDepth .expression hframes m hm
  unfold Answers at hread ⊢
  rw [expression]
  exact hread

theorem complete_answers (hm : m.Ready ctx ctx.limits.maxDepth) :
    complete.Answers m
      ⟨(Parser.mk ctx m.left).complete.1, (Parser.mk ctx m.left).complete.2.rest⟩ := by
  have hread : expression m = .ok ((Parser.mk ctx m.left).expression.1,
      m.leaving (Parser.mk ctx m.left).expression.2.rest) := expression_answers hm
  have hleft : (m.leaving (Parser.mk ctx m.left).expression.2.rest).left =
      (Parser.mk ctx m.left).expression.2.rest :=
    Machine.left_leaving (Parser.mk ctx m.left).expression_rest_suffix
  have hready := hm.leaving (Parser.mk ctx m.left).expression.2.rest
  rw [Parser.complete_snd]
  unfold Answers
  generalize Parser.mk ctx m.left = p at hread hleft hready ⊢
  cases hp : p.expression.1 with
  | error e =>
      rw [hp] at hread
      rw [Parser.complete_of_error hp]
      exact bind_of_error hread
  | ok v =>
      rw [hp] at hread
      rw [complete, bind_of_ok hread, peek_bind]
      cases hrest : p.expression.2.rest with
      | nil =>
          have hend := hready.kind_current_of_nil (hleft.trans hrest)
          rw [hrest] at hend
          rw [if_pos hend, Parser.complete_of_atEnd hp (hrest ▸ Parser.atEnd_nil)]
          rfl
      | cons t ts =>
          have hcurrent := Machine.current_of_cons (hleft.trans hrest)
          rw [hrest] at hcurrent
          rw [hcurrent]
          by_cases ht : t.kind = .eof
          · rw [if_pos ht, Parser.complete_of_atEnd hp (hrest ▸ Parser.atEnd_cons.2 ht)]
            rfl
          · rw [if_neg ht, Parser.complete_of_trailing hp hrest ht]
            rfl

end Action

namespace Machine

variable {ctx : Context} {m : Machine}

/-- **A machine answers as a parser does,** and is in the same state after it but for the
cursor. -/
theorem perform_eq (hm : m.Ready ctx ctx.limits.maxDepth) (call : Parser.Call) :
    m.perform call = .ok (((Parser.mk ctx m.left).perform call).1,
      m.leaving ((Parser.mk ctx m.left).perform call).2.rest) := by
  cases call with
  | expression => exact Action.expression_answers hm
  | complete => exact Action.complete_answers hm

end Machine

end RatExpr
