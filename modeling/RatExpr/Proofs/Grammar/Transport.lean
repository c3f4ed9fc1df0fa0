import RatExpr.Proofs.Grammar.Calls
import RatExpr.Proofs.Grammar.Moving

set_option autoImplicit false

/-! # Calls on tokens at other positions

A machine does not look at where its tokens stand, and only carries their positions over into its
errors. If the tokens are put at any other positions, it answers every call as before, stops at the
same token, and has the same errors about the new positions (`Machine.positions_transported`). An
end has to be among the tokens, since a missing one takes its position from the last token.
-/

namespace RatExpr

/-! ## What is not moved -/

/-- A token is shown without its position. -/
theorem Token.display_move (f : Nat → Nat) (t : Token) : (t.move f).display = t.display :=
  display_congr rfl rfl

/-- **The causes of an error are moved with it.** -/
theorem EvalError.causes_move (f : Nat → Nat) (e : EvalError) :
    (e.move f).causes = e.causes.map (move f) := by
  induction e with
  | unclosedParen opening cause ih => simp only [move, causes, ih, List.map_cons]
  | operand op pos cause ih => simp only [move, causes, ih, List.map_cons]
  | side s text cause ih => simp only [move, causes, ih, List.map_cons]
  | _ => rfl

namespace Machine

variable (limits : Limits) (f : Nat → Nat)

/-! ## One call -/

/-- A machine with a cursor stops where the parser of the tokens from the cursor on stops. -/
theorem perform_withCursor {ts : List Token} {c : Nat} (hc : c ≤ ts.length) (call : Parser.Call) :
    ∃ outcome rest, rest <:+ ts.drop c ∧
      Parser.perform ⟨⟨limits, (endTokenOf ts).pos⟩, ts.drop c⟩ call =
        (outcome, ⟨⟨limits, (endTokenOf ts).pos⟩, rest⟩) ∧
      ((ofTokens limits ts).withCursor c).perform call =
        .ok (outcome, (ofTokens limits ts).withCursor (ts.length - rest.length)) := by
  obtain ⟨outcome, rest, hsuffix, hparser⟩ :=
    Parser.exists_perform_eq ⟨⟨limits, (endTokenOf ts).pos⟩, ts.drop c⟩ call
  have hmachine := perform_eq (ready_ofTokens limits ts hc) call
  have hleft : ((ofTokens limits ts).withCursor c).left = ts.drop c := rfl
  rw [hleft, hparser] at hmachine
  exact ⟨outcome, rest, hsuffix, hparser, hmachine⟩

/-- **A call answers moved tokens as it answers the tokens,** and stops at the same one. The end is
still to come. -/
theorem perform_move (call : Parser.Call) {ts : List Token} {c : Nat} (hc : c ≤ ts.length)
    (hend : Token.HasEnd (ts.drop c)) :
    ∃ outcome c', c' ≤ ts.length ∧ Token.HasEnd (ts.drop c') ∧
      ((ofTokens limits ts).withCursor c).perform call =
        .ok (outcome, (ofTokens limits ts).withCursor c') ∧
      ((ofTokens limits (ts.map (Token.move f))).withCursor c).perform call =
        .ok (moveOutcome f outcome, (ofTokens limits (ts.map (Token.move f))).withCursor c') := by
  have hc' : c ≤ (ts.map (Token.move f)).length := by rwa [List.length_map]
  obtain ⟨outcome, rest, hsuffix, hparser, hmachine⟩ := perform_withCursor limits hc call
  obtain ⟨outcome', rest', -, hparser', hmachine'⟩ := perform_withCursor limits hc' call
  have hmove := Parser.perform_move limits (endTokenOf ts).pos
    (endTokenOf (ts.map (Token.move f))).pos f call hend
  rw [← List.map_drop] at hparser'
  rw [hparser, hparser'] at hmove
  obtain ⟨rfl, hrest, rfl⟩ : outcome' = moveOutcome f outcome ∧ Token.HasEnd rest ∧
    rest' = rest.map (Token.move f) := hmove
  -- as many tokens are left of both lists, so both cursors are at the same place
  rw [List.length_map, List.length_map] at hmachine'
  have hdrop : ts.drop (ts.length - rest.length) = rest :=
    (List.suffix_iff_eq_drop.1 (hsuffix.trans (List.drop_suffix c ts))).symm
  exact ⟨outcome, ts.length - rest.length, Nat.sub_le _ _, hdrop.symm ▸ hrest, hmachine,
    hmachine'⟩

/-! ## Any calls -/

/-- Calls in any order and number answer moved tokens as they answer the tokens. -/
theorem performAll_move (calls : List Parser.Call) {ts : List Token} {c : Nat} (hc : c ≤ ts.length)
    (hend : Token.HasEnd (ts.drop c)) :
    ∃ outcomes c', c' ≤ ts.length ∧ Token.HasEnd (ts.drop c') ∧
      ((ofTokens limits ts).withCursor c).performAll calls =
        .ok (outcomes, (ofTokens limits ts).withCursor c') ∧
      ((ofTokens limits (ts.map (Token.move f))).withCursor c).performAll calls =
        .ok (outcomes.map (moveOutcome f),
          (ofTokens limits (ts.map (Token.move f))).withCursor c') := by
  induction calls generalizing c with
  | nil => exact ⟨[], c, hc, hend, rfl, rfl⟩
  | cons call calls ih =>
      obtain ⟨outcome, next, hnext, hnext_end, hcall, hmoved⟩ :=
        perform_move limits f call hc hend
      obtain ⟨outcomes, c', hc', hend', hcalls, hmoveds⟩ := ih hnext hnext_end
      refine ⟨outcome :: outcomes, c', hc', hend', ?_, ?_⟩
      · simp only [performAll, hcall, hcalls, bind, Except.bind, pure, Except.pure]
      · simp only [performAll, hmoved, hmoveds, bind, Except.bind, pure, Except.pure,
          List.map_cons]

/-- **Positions are only transported.** If an end is among the tokens, they may be put at any other
positions, in any order: any calls come to the same values and stop at the same token, and so does
each call after them. Their errors are the same but for the positions, those of the whole chain of
causes, which are those of the same tokens now. The tokens that are shown in an error are shown as
before. -/
theorem positions_transported (calls : List Parser.Call) {ts : List Token}
    (hts : Token.HasEnd ts) :
    (∃ outcomes c,
      (ofTokens limits ts).performAll calls =
        .ok (outcomes, (ofTokens limits ts).withCursor c) ∧
      (ofTokens limits (ts.map (Token.move f))).performAll calls =
        .ok (outcomes.map (moveOutcome f),
          (ofTokens limits (ts.map (Token.move f))).withCursor c) ∧
      ∀ call, ∃ outcome c',
        ((ofTokens limits ts).withCursor c).perform call =
          .ok (outcome, (ofTokens limits ts).withCursor c') ∧
        ((ofTokens limits (ts.map (Token.move f))).withCursor c).perform call =
          .ok (moveOutcome f outcome,
            (ofTokens limits (ts.map (Token.move f))).withCursor c')) ∧
    (∀ e : EvalError, (e.move f).causes = e.causes.map (EvalError.move f)) ∧
    ∀ t : Token, (t.move f).display = t.display := by
  obtain ⟨outcomes, c, hc, hend, hcalls, hmoved⟩ :=
    performAll_move limits f calls (Nat.zero_le ts.length) hts
  refine ⟨⟨outcomes, c, hcalls, hmoved, fun call => ?_⟩, EvalError.causes_move f,
    Token.display_move f⟩
  obtain ⟨outcome, c', -, -, hcall, hmoved⟩ := perform_move limits f call hc hend
  exact ⟨outcome, c', hcall, hmoved⟩

/-- The positions are put in the other order. The first call finds a parenthesis that is not closed,
and the second one stays at the end before the last number. -/
theorem positions_transported_reversed :
    Token.HasEnd [⟨.number, "1", 0⟩, ⟨.plus, "+", 1⟩, ⟨.leftParen, "(", 2⟩, ⟨.number, "2", 3⟩,
      ⟨.eof, "", 4⟩, ⟨.number, "5", 5⟩] ∧
    (ofTokens {} [⟨.number, "1", 9⟩, ⟨.plus, "+", 8⟩, ⟨.leftParen, "(", 7⟩, ⟨.number, "2", 6⟩,
      ⟨.eof, "", 5⟩, ⟨.number, "5", 4⟩]).performAll [.complete, .expression] =
        .ok ([.error (.operand .add 8 (.unclosedParen 7 (.unexpectedEnd 5 .closingParen))),
            .error (.unexpectedEnd 5 .operand)],
          (ofTokens {} [⟨.number, "1", 9⟩, ⟨.plus, "+", 8⟩, ⟨.leftParen, "(", 7⟩,
            ⟨.number, "2", 6⟩, ⟨.eof, "", 5⟩, ⟨.number, "5", 4⟩]).withCursor 4) := by
  have hend : Token.HasEnd [⟨.number, "1", 0⟩, ⟨.plus, "+", 1⟩, ⟨.leftParen, "(", 2⟩,
      ⟨.number, "2", 3⟩, ⟨.eof, "", 4⟩, ⟨.number, "5", 5⟩] :=
    ⟨⟨.eof, "", 4⟩, by decide, rfl⟩
  refine ⟨hend, ?_⟩
  obtain ⟨⟨outcomes, c, hcalls, hmoved, -⟩, -, -⟩ :=
    positions_transported {} (9 - ·) [.complete, .expression] hend
  have hrun : (ofTokens {} [⟨.number, "1", 0⟩, ⟨.plus, "+", 1⟩, ⟨.leftParen, "(", 2⟩,
      ⟨.number, "2", 3⟩, ⟨.eof, "", 4⟩, ⟨.number, "5", 5⟩]).performAll [.complete, .expression] =
      .ok ([.error (.operand .add 1 (.unclosedParen 2 (.unexpectedEnd 4 .closingParen))),
          .error (.unexpectedEnd 4 .operand)],
        (ofTokens {} [⟨.number, "1", 0⟩, ⟨.plus, "+", 1⟩, ⟨.leftParen, "(", 2⟩, ⟨.number, "2", 3⟩,
          ⟨.eof, "", 4⟩, ⟨.number, "5", 5⟩]).withCursor 4) := by
    decide +kernel
  obtain ⟨rfl, hmachine⟩ := Prod.mk.inj (Except.ok.inj (hcalls.symm.trans hrun))
  obtain rfl : c = 4 := congrArg Machine.cursor hmachine
  exact hmoved

end Machine

end RatExpr
