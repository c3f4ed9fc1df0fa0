import RatExpr.Proofs.Grammar.Calls
import RatExpr.Proofs.Grammar.Verdict

set_option autoImplicit false

/-! # Expressions one after the other

A call for an expression takes as many tokens as it can: no expression is a longer part of what is
left (`Machine.TakesLongest`). It is over before the next operand, so expressions that are put one
after the other are read one call after the other, if each of them starts with an operand and no
sign stands before that (`Parser.performAll_parts`).

An end does not belong to an expression. Tokens with an end inside are accepted as those before it,
but a call does not pass the end, and the calls after it do not either.
-/

namespace RatExpr

/-! ## The longest expression -/

namespace Level

/-- What starts tokens that do not go on with a level does not go on with it either. -/
theorem Over.of_prefix {level : Level} {us ts : List Token} (h : Over level ts)
    (hstart : us <+: ts) : Over level us := by
  obtain ⟨rest, rfl⟩ := hstart
  cases us with
  | nil => exact over_nil level
  | cons t us => cases level <;> exact h

/-- **A tree that nothing goes on with is the longest,** of those whose tokens start there. -/
theorem length_tokens_le {level : Level} {tree tree' : Tree level} {rest : List Token}
    (hover : Over level rest) (hstart : tree'.tokens <+: tree.tokens ++ rest) :
    tree'.tokens.length ≤ tree.tokens.length := by
  refine Nat.le_of_not_lt fun hlt => ?_
  -- a longer tree would go on with tokens of the rest
  have hlonger : tree.tokens <+: tree'.tokens :=
    List.prefix_of_prefix_length_le (List.prefix_append tree.tokens rest) hstart hlt.le
  obtain ⟨more, hmore⟩ := hlonger
  rw [← hmore] at hstart
  have hovermore : Over level more := hover.of_prefix ((List.prefix_append_right_inj _).1 hstart)
  obtain ⟨rfl, -⟩ := unambiguous _ level tree' tree [] more (Nat.le_refl _) (over_nil level)
    hovermore (by rw [hmore, List.append_nil])
  exact absurd hlt (Nat.lt_irrefl _)

/-- Where no operand comes, there is no expression. -/
theorem readAt_of_atEnd (ctx : Context) (room : Nat) (level : Level) {ts : List Token}
    (h : Parser.AtEnd ts) :
    (readAt ctx room level).run ts = ⟨.error (ctx.unexpected .operand ts), ts⟩ := by
  have hunary := unaryRun_of_atEnd ctx (innerAt ctx room) h
  have hpower : (readAt ctx room power).run ts = ⟨.error (ctx.unexpected .operand ts), ts⟩ := by
    show (unaryRun ctx (innerAt ctx room) ts).andThen _ = _
    rw [hunary]
    rfl
  cases level with
  | expression =>
      show (((readAt ctx room power).run ts).andThen _).andThen _ = _
      rw [hpower]
      rfl
  | term =>
      show ((readAt ctx room power).run ts).andThen _ = _
      rw [hpower]
      rfl
  | power => exact hpower
  | unary => exact hunary
  | atom => exact atomRun_of_atEnd ctx (innerAt ctx room) h

end Level

namespace Machine

/-- A call has taken `taken` of the tokens `left`, which are worth `v`, and is before the token
`next`. -/
structure TakesLongest (limits : Limits) (left : List Token) (taken : Nat) (v : Rat) (next : Token) :
    Prop where
  pos : 0 < taken
  /-- An expression has been taken, and it is worth what the call says. -/
  derived : ∃ tree : Tree .expression, tree.tokens = left.take taken ∧
    tree.value limits limits.maxDepth = .ok v
  longest : ∀ tree : Tree .expression, tree.tokens <+: left → tree.tokens.length ≤ taken
  /-- No operator follows. -/
  next_kind : Acceptor.isOperator next.kind = false
  /-- By themselves, with an end after them, the tokens are worth the same. -/
  alone : ∀ fin : Token, fin.kind = .eof → ∃ m,
    (ofTokens limits (left.take taken ++ [fin])).perform .complete = .ok (.ok v, m)

/-- The tokens of a tree, with the end after them, are answered as the tree is worth. -/
theorem perform_complete_tokens (limits : Limits) (tree : Tree .expression) {fin : Token}
    (hfin : fin.kind = .eof) : ∃ m, (ofTokens limits (tree.tokens ++ [fin])).perform .complete =
      .ok (tree.value limits limits.maxDepth, m) := by
  have hend : Parser.AtEnd [fin] := Parser.atEnd_cons.2 hfin
  obtain ⟨p, hcall⟩ := perform_ofTokens limits (tree.tokens ++ [fin]) .complete
  rw [← Parser.complete_tokens limits tree hend]
  exact ⟨_, hcall⟩

/-- **A call with a value has taken the longest expression.** -/
theorem takesLongest_of_perform (limits : Limits) (ts : List Token) {c : Nat}
    (hc : c ≤ (Parser.beforeEnd ts).length) {v : Rat} {m : Machine}
    (h : ((ofTokens limits ts).withCursor c).perform .expression = .ok (.ok v, m)) :
    TakesLongest limits (ts.drop c) (m.cursor - c) v m.current := by
  obtain ⟨outcome, moved, hmoved, hcall, hparser, -⟩ := perform_step limits ts .expression hc
  obtain ⟨rfl, rfl⟩ := Prod.mk.inj (Except.ok.inj (hcall.symm.trans h))
  have hread : (Level.readAt ⟨limits, Parser.endOf ts⟩ limits.maxDepth .expression).run
      (ts.drop c) = ⟨.ok v, ts.drop (c + moved)⟩ := by
    obtain ⟨hvalue, hrest⟩ := Prod.mk.inj hparser
    exact congrArg₂ Reading.mk hvalue (congrArg Parser.rest hrest)
  obtain ⟨tree, htokens, hvalue, hover⟩ := Level.faithful _ _ _ _ _ _ hread
  have hlength : tree.tokens.length = moved := by
    have hle : c + moved ≤ ts.length := hmoved.trans (List.takeWhile_prefix _).length_le
    have hsum := congrArg List.length htokens
    rw [List.length_append, List.length_drop, List.length_drop] at hsum
    omega
  have htaken : (ts.drop c).take moved = tree.tokens := by
    rw [htokens, ← hlength, List.take_left]
  have hcursor : ((ofTokens limits ts).withCursor (c + moved)).cursor - c = moved :=
    Nat.add_sub_cancel_left c moved
  rw [hcursor]
  refine ⟨?_, ⟨tree, htaken.symm, hvalue⟩, fun tree' hstart => ?_, ?_, fun fin hfin => ?_⟩
  · rw [← hlength]
    exact List.length_pos_iff.2 tree.tokens_ne_nil
  · rw [← hlength]
    rw [htokens] at hstart
    exact Level.length_tokens_le hover hstart
  · rw [current_eq_next limits ts hmoved]
    cases hrest : ts.drop (c + moved) with
    | nil => rfl
    | cons t us => exact Acceptor.isOperator_eq_false_of_over (hrest ▸ hover)
  · rw [htaken, ← hvalue]
    exact perform_complete_tokens limits tree hfin

end Machine

/-! ## Expressions put together -/

/-- The tokens start with an operand, and no sign stands before it. -/
def Token.StartsAtom (ts : List Token) : Prop :=
  ∃ t us, ts = t :: us ∧ (t.kind = .number ∨ t.kind = .leftParen)

/-- An expression is over where an operand starts without a sign. -/
theorem Token.StartsAtom.over {ts : List Token} (h : StartsAtom ts) (rest : List Token) :
    Level.Over .expression (ts ++ rest) := by
  obtain ⟨t, us, rfl, ht | ht⟩ := h
  · simp [Level.Over, ht, BinaryOp.additive?, BinaryOp.multiplicative?]
  · simp [Level.Over, ht, BinaryOp.additive?, BinaryOp.multiplicative?]

/-- **Expressions one after the other are read one after the other.** A further call finds the
end. -/
theorem Parser.performAll_parts (ctx : Context) {fin : Token} (hfin : fin.kind = .eof)
    (parts : List (List Token × Rat))
    (hparts : ∀ part ∈ parts, ∃ tree : Tree .expression, tree.tokens = part.1 ∧
      tree.value ctx.limits ctx.limits.maxDepth = .ok part.2)
    (htail : ∀ part ∈ parts.tail, Token.StartsAtom part.1) :
    performAll ⟨ctx, parts.flatMap Prod.fst ++ [fin]⟩
        (List.replicate (parts.length + 1) .expression) =
      (parts.map (fun part => .ok part.2) ++ [.error (.unexpectedEnd fin.pos .operand)],
        ⟨ctx, [fin]⟩) := by
  induction parts with
  | nil =>
      have hend : AtEnd [fin] := atEnd_cons.2 hfin
      have hread := Level.readAt_of_atEnd ctx ctx.limits.maxDepth .expression hend
      have hunexpected : ctx.unexpected .operand [fin] = .unexpectedEnd fin.pos .operand := by
        rw [Context.unexpected, if_pos hfin]
      simp [performAll, perform, expression, hread, hunexpected]
  | cons part parts ih =>
      obtain ⟨⟨tree, htokens, hvalue⟩, hparts⟩ := List.forall_mem_cons.1 hparts
      -- an operand starts after the first expression, or the end is there
      have hover : Level.Over .expression (parts.flatMap Prod.fst ++ [fin]) := by
        cases parts with
        | nil => exact Level.over_of_eof .expression [] hfin
        | cons next parts =>
            rw [List.flatMap_cons, List.append_assoc]
            exact (htail next List.mem_cons_self).over _
      have hread := expression_tokens ctx tree hover
      rw [hvalue, htokens] at hread
      have hcall : perform ⟨ctx, part.1 ++ (parts.flatMap Prod.fst ++ [fin])⟩ .expression =
          (.ok part.2, ⟨ctx, parts.flatMap Prod.fst ++ [fin]⟩) :=
        congrArg (fun r => (r.value, Parser.mk ctx r.rest)) hread
      have hcalls := ih hparts fun next hnext => htail next (List.mem_of_mem_tail hnext)
      rw [List.flatMap_cons, List.append_assoc, List.length_cons, List.replicate_succ, performAll,
        hcall]
      simp only [hcalls, List.map_cons, List.cons_append]

namespace Machine

/-- A call for the whole of the tokens, with an end after them, has the value `v`. -/
def Accepts (limits : Limits) (ts : List Token) (v : Rat) : Prop :=
  ∃ fin m, fin.kind = .eof ∧ (ofTokens limits (ts ++ [fin])).perform .complete = .ok (.ok v, m)

/-- Tokens with no end among them are accepted as an expression. -/
theorem Accepts.exists_tree {limits : Limits} {ts : List Token} {v : Rat}
    (h : Accepts limits ts v) (hts : ∀ t ∈ ts, t.kind ≠ .eof) :
    ∃ tree : Tree .expression, tree.tokens = ts ∧ tree.value limits limits.maxDepth = .ok v := by
  obtain ⟨fin, m, hfin, hperform⟩ := h
  obtain ⟨p, hcall⟩ := perform_ofTokens limits (ts ++ [fin]) .complete
  have hcomplete : (Parser.ofTokens limits (ts ++ [fin])).complete.1 = .ok v :=
    (Prod.mk.inj (Except.ok.inj (hcall.symm.trans hperform))).1
  obtain ⟨tree, htokens, hend, hvalue⟩ := Parser.exists_tree_of_complete hcomplete
  have hends : Parser.AtEnd [fin] := Parser.atEnd_cons.2 hfin
  have hproper : ∀ t ∈ tree.tokens, t.kind ≠ .eof := fun t ht => (tree.kind_isProper t ht).1
  refine ⟨tree, ?_, hvalue⟩
  rw [← Parser.beforeEnd_append hts hends, htokens, Parser.beforeEnd_append hproper hend]

/-- **A call for an expression takes the longest one,** and expressions one after the other are read
one after the other. After any calls, whatever they have come to: a call that has a value has taken
an expression, no longer one starts where it has started, no operator follows, and the value is what
these tokens are worth by themselves. So expressions without an end inside can be put together, each
after the first with a number or a parenthesis at its front, and are read again by as many calls; a
further call fails at the end after them. -/
theorem expressions_streamed (limits : Limits) :
    (∀ ts calls, ∃ outcomes c, (ofTokens limits ts).performAll calls =
        .ok (outcomes, (ofTokens limits ts).withCursor c) ∧
      ∀ v m, ((ofTokens limits ts).withCursor c).perform .expression = .ok (.ok v, m) →
        TakesLongest limits (ts.drop c) (m.cursor - c) v m.current) ∧
    ∀ parts : List (List Token × Rat),
      (∀ part ∈ parts, Accepts limits part.1 part.2 ∧ ∀ t ∈ part.1, t.kind ≠ .eof) →
      (∀ part ∈ parts.tail, Token.StartsAtom part.1) → ∀ fin : Token, fin.kind = .eof →
      ∃ m, (ofTokens limits (parts.flatMap Prod.fst ++ [fin])).performAll
          (List.replicate (parts.length + 1) .expression) =
        .ok (parts.map (fun part => .ok part.2) ++ [.error (.unexpectedEnd fin.pos .operand)],
          m) := by
  constructor
  · intro ts calls
    obtain ⟨outcomes, c, hc, hmachine, -⟩ := performAll_eq limits ts calls (Nat.zero_le _)
    exact ⟨outcomes, c, hmachine, fun v m h => takesLongest_of_perform limits ts hc h⟩
  · intro parts hparts htail fin hfin
    obtain ⟨outcomes, c, -, hmachine, hparser⟩ := performAll_eq limits
      (parts.flatMap Prod.fst ++ [fin]) (List.replicate (parts.length + 1) .expression)
      (Nat.zero_le _)
    have htrees : ∀ part ∈ parts, ∃ tree : Tree .expression, tree.tokens = part.1 ∧
        tree.value limits limits.maxDepth = .ok part.2 :=
      fun part hpart => (hparts part hpart).1.exists_tree (hparts part hpart).2
    have hstream := Parser.performAll_parts
      ⟨limits, Parser.endOf (parts.flatMap Prod.fst ++ [fin])⟩ hfin parts htrees htail
    rw [List.drop_zero, hstream] at hparser
    obtain ⟨rfl, -⟩ := Prod.mk.inj hparser
    exact ⟨_, hmachine⟩

/-- Two numbers, one after the other. The second call takes the second one. -/
theorem expressions_streamed_numbers :
    TakesLongest {} [⟨.number, "2", 1⟩, ⟨.eof, "", 2⟩] 1 2 ⟨.eof, "", 2⟩ ∧
    Accepts {} [⟨.number, "1", 0⟩] 1 ∧ Accepts {} [⟨.number, "2", 1⟩] 2 ∧
    ∃ m, (ofTokens {} [⟨.number, "1", 0⟩, ⟨.number, "2", 1⟩, ⟨.eof, "", 2⟩]).performAll
      [.expression, .expression, .expression] =
        .ok ([.ok 1, .ok 2, .error (.unexpectedEnd 2 .operand)], m) := by
  obtain ⟨hlongest, hparts⟩ := expressions_streamed {}
  have hfirst : Accepts {} [⟨.number, "1", 0⟩] 1 :=
    ⟨⟨.eof, "", 1⟩, (ofTokens {} [⟨.number, "1", 0⟩, ⟨.eof, "", 1⟩]).withCursor 1, rfl,
      by decide +kernel⟩
  have hsecond : Accepts {} [⟨.number, "2", 1⟩] 2 :=
    ⟨⟨.eof, "", 2⟩, (ofTokens {} [⟨.number, "2", 1⟩, ⟨.eof, "", 2⟩]).withCursor 1, rfl,
      by decide +kernel⟩
  refine ⟨?_, hfirst, hsecond, ?_⟩
  · obtain ⟨outcomes, c, hcalls, hcall⟩ :=
      hlongest [⟨.number, "1", 0⟩, ⟨.number, "2", 1⟩, ⟨.eof, "", 2⟩] [.expression]
    have hrun : (ofTokens {} [⟨.number, "1", 0⟩, ⟨.number, "2", 1⟩, ⟨.eof, "", 2⟩]).performAll
        [.expression] = .ok ([.ok 1],
          (ofTokens {} [⟨.number, "1", 0⟩, ⟨.number, "2", 1⟩, ⟨.eof, "", 2⟩]).withCursor 1) := by
      decide +kernel
    obtain rfl : c = 1 := congrArg (fun r => r.2.cursor) (Except.ok.inj (hcalls.symm.trans hrun))
    exact hcall 2
      ((ofTokens {} [⟨.number, "1", 0⟩, ⟨.number, "2", 1⟩, ⟨.eof, "", 2⟩]).withCursor 2)
      (by decide +kernel)
  · refine hparts [([⟨.number, "1", 0⟩], 1), ([⟨.number, "2", 1⟩], 2)] ?_ ?_ ⟨.eof, "", 2⟩ rfl
    · exact List.forall_mem_cons.2 ⟨⟨hfirst, by decide⟩,
        List.forall_mem_singleton.2 ⟨hsecond, by decide⟩⟩
    · exact List.forall_mem_singleton.2 ⟨_, _, rfl, Or.inl rfl⟩

/-- Tokens with an end inside are accepted as well, but the calls after the first one find that end
and do not come to the tokens after it. -/
theorem inner_end_not_passed :
    Accepts {} [⟨.number, "1", 0⟩, ⟨.eof, "", 1⟩] 1 ∧ Accepts {} [⟨.number, "2", 2⟩] 2 ∧
    Token.StartsAtom [⟨.number, "2", 2⟩] ∧
    ∀ m, (ofTokens {} ([⟨.number, "1", 0⟩, ⟨.eof, "", 1⟩] ++ [⟨.number, "2", 2⟩] ++
      [⟨.eof, "", 3⟩])).performAll [.expression, .expression, .expression] ≠
        .ok ([.ok 1, .ok 2, .error (.unexpectedEnd 3 .operand)], m) := by
  have hfirst : Accepts {} [⟨.number, "1", 0⟩, ⟨.eof, "", 1⟩] 1 :=
    ⟨⟨.eof, "", 3⟩,
      (ofTokens {} [⟨.number, "1", 0⟩, ⟨.eof, "", 1⟩, ⟨.eof, "", 3⟩]).withCursor 1, rfl,
      by decide +kernel⟩
  have hsecond : Accepts {} [⟨.number, "2", 2⟩] 2 :=
    ⟨⟨.eof, "", 3⟩, (ofTokens {} [⟨.number, "2", 2⟩, ⟨.eof, "", 3⟩]).withCursor 1, rfl,
      by decide +kernel⟩
  refine ⟨hfirst, hsecond, ⟨_, _, rfl, Or.inl rfl⟩, fun m h => ?_⟩
  have hcalls : ((ofTokens {} ([⟨.number, "1", 0⟩, ⟨.eof, "", 1⟩] ++ [⟨.number, "2", 2⟩] ++
      [⟨.eof, "", 3⟩])).performAll [.expression, .expression, .expression]).map Prod.fst =
        .ok [.ok 1, .error (.unexpectedEnd 1 .operand), .error (.unexpectedEnd 1 .operand)] := by
    decide +kernel
  have houtcomes : ([.ok 1, .ok 2, .error (.unexpectedEnd 3 .operand)] :
      List (Except EvalError Rat)) =
        [.ok 1, .error (.unexpectedEnd 1 .operand), .error (.unexpectedEnd 1 .operand)] :=
    Except.ok.inj ((congrArg (Except.map Prod.fst) h).symm.trans hcalls)
  exact absurd houtcomes (by decide +kernel)

end Machine

end RatExpr
