import RatExpr.Proofs.Grammar.Calls

set_option autoImplicit false

/-! # How high the stack grows

A level of the grammar that is called has an answer as soon as the stack holds five calls for each
level of nesting that may still be entered, and one for each level of the grammar from the called
one on (`Action.height`). How many tokens there are does not matter, as a loop needs no place on the
stack. A higher stack changes nothing, and the answer is that of the reader, which has no stack.
A call that reads a value passes a token. The main statement is `Machine.stack_bounded`.
-/

namespace RatExpr

/-- **A value takes a token at least.** -/
theorem Level.length_rest_lt_of_ok {ctx : Context} {room : Nat} {level : Level} {ts : List Token}
    {v : Rat} (h : ((readAt ctx room level).run ts).value = .ok v) :
    ((readAt ctx room level).run ts).rest.length < ts.length := by
  generalize hrest : ((readAt ctx room level).run ts).rest = rest
  obtain ⟨tree, htokens, -, -⟩ := faithful ctx room level ts v rest (by rw [← h, ← hrest])
  have hpos : 0 < tree.tokens.length := List.length_pos_iff.2 tree.tokens_ne_nil
  rw [htokens, List.length_append]
  omega

/-- A call from outside that has a value has passed a token. -/
theorem Parser.length_rest_lt_of_ok {p : Parser} {call : Parser.Call} {v : Rat}
    (h : (p.perform call).1 = .ok v) : (p.perform call).2.rest.length < p.rest.length := by
  cases call with
  | expression => exact Level.length_rest_lt_of_ok h
  | complete =>
      have hvalue : p.expression.1 = .ok v := (complete_eq_ok_iff.1 h).1
      show p.complete.2.rest.length < p.rest.length
      rw [complete_snd]
      exact Level.length_rest_lt_of_ok hvalue

namespace Machine

/-- A machine that has entered `depth` levels of nesting, at the token `cursor`. -/
def standing (limits : Limits) (ts : List Token) (depth cursor : Nat) : Machine :=
  ⟨ts, cursor, endTokenOf ts, limits, depth⟩

/-- What the reader of a level reads there, which has no stack. -/
def unbounded (limits : Limits) (ts : List Token) (depth : Nat) (level : Level) (cursor : Nat) :
    Reading :=
  (Level.readAt ⟨limits, (endTokenOf ts).pos⟩ (limits.maxDepth - depth) level).run (ts.drop cursor)

variable {limits : Limits} {ts : List Token} {depth cursor : Nat}

theorem ready_standing (hdepth : depth ≤ limits.maxDepth) (hcursor : cursor ≤ ts.length) :
    (standing limits ts depth cursor).Ready ⟨limits, (endTokenOf ts).pos⟩
      (limits.maxDepth - depth) :=
  ⟨hcursor, kind_endTokenOf ts, rfl, rfl, Nat.add_sub_of_le hdepth⟩

/-- What a reading that starts at the cursor leaves starts at a later place, or there again. -/
theorem eq_drop_of_suffix_drop {rest : List Token} (hcursor : cursor ≤ ts.length)
    (h : rest <:+ ts.drop cursor) :
    cursor ≤ ts.length - rest.length ∧ rest = ts.drop (ts.length - rest.length) := by
  constructor
  · have hlength := h.length_le
    rw [List.length_drop] at hlength
    omega
  · exact List.suffix_iff_eq_drop.1 (h.trans (List.drop_suffix cursor ts))

/-- **A call stands where its reader stops,** on a stack of the height of its level. -/
theorem call_standing (hdepth : depth ≤ limits.maxDepth) (hcursor : cursor ≤ ts.length)
    (level : Level) :
    ∃ cursor', cursor ≤ cursor' ∧ cursor' ≤ ts.length ∧
      (unbounded limits ts depth level cursor).rest = ts.drop cursor' ∧
      ∀ frames, 5 * (limits.maxDepth - depth) + Action.height level ≤ frames →
        Action.call frames level (standing limits ts depth cursor) =
          .ok ((unbounded limits ts depth level cursor).value,
            standing limits ts depth cursor') := by
  have hsuffix : (unbounded limits ts depth level cursor).rest <:+ ts.drop cursor :=
    (Level.readAt _ _ level).rest_suffix _
  obtain ⟨hle, hrest⟩ := eq_drop_of_suffix_drop hcursor hsuffix
  refine ⟨_, hle, Nat.sub_le _ _, hrest, fun frames hframes => ?_⟩
  exact Action.call_reads _ _ level hframes _ (ready_standing hdepth hcursor)

/-- The cursor is where the tokens that are left start. -/
theorem lt_of_length_drop_lt {cursor' : Nat}
    (h : (ts.drop cursor').length < (ts.drop cursor).length) : cursor < cursor' := by
  rw [List.length_drop, List.length_drop] at h
  omega

/-- A call that reads a value moves the cursor. -/
theorem lt_of_unbounded_ok {level : Level} {cursor' : Nat} {v : Rat}
    (hrest : (unbounded limits ts depth level cursor).rest = ts.drop cursor')
    (hvalue : (unbounded limits ts depth level cursor).value = .ok v) : cursor < cursor' := by
  have hlt : (unbounded limits ts depth level cursor).rest.length < (ts.drop cursor).length :=
    Level.length_rest_lt_of_ok hvalue
  rw [hrest] at hlt
  exact lt_of_length_drop_lt hlt

/-- **A call from outside** comes to the outcome of a parser at the same token, and stops where it
stops. -/
theorem perform_standing (limits : Limits) (hcursor : cursor ≤ ts.length) (call : Parser.Call) :
    ∃ outcome cursor', cursor ≤ cursor' ∧ cursor' ≤ ts.length ∧
      (∀ v, outcome = .ok v → cursor < cursor') ∧
      (standing limits ts 0 cursor).perform call = .ok (outcome, standing limits ts 0 cursor') ∧
      Parser.perform ⟨⟨limits, (endTokenOf ts).pos⟩, ts.drop cursor⟩ call =
        (outcome, ⟨⟨limits, (endTokenOf ts).pos⟩, ts.drop cursor'⟩) := by
  have hready := ready_standing (Nat.zero_le limits.maxDepth) hcursor
  obtain ⟨outcome, rest, hsuffix, hparser⟩ :=
    Parser.exists_perform_eq ⟨⟨limits, (endTokenOf ts).pos⟩, ts.drop cursor⟩ call
  obtain ⟨hle, hrest⟩ := eq_drop_of_suffix_drop hcursor hsuffix
  refine ⟨outcome, _, hle, Nat.sub_le _ _, ?_, ?_, ?_⟩
  · -- a value of the parser is one that it has read, whatever call it has answered
    rintro v rfl
    have hlt := Parser.length_rest_lt_of_ok (congrArg Prod.fst hparser)
    rw [hparser, hrest] at hlt
    exact lt_of_length_drop_lt hlt
  · have hperform := perform_eq hready call
    rw [show (standing limits ts 0 cursor).left = ts.drop cursor from rfl, hparser] at hperform
    exact hperform
  · rw [← hrest]
    exact hparser

/-- **The stack is bounded.** Wherever a level is called, with whatever tokens, the call comes to
the value or the error of the reader without a stack and stops at the same token, as soon as the
stack holds five calls for each level of nesting that may still be entered and those of the levels
from the called one on; a call with a value has passed a token. So `5 * (maxDepth + 1)` calls, which
a machine has, are enough for any call from outside, and for any calls one after the other, which
answer as those of a parser do and stop where they stop. -/
theorem stack_bounded (limits : Limits) (ts : List Token) :
    (∀ level depth cursor, depth ≤ limits.maxDepth → cursor ≤ ts.length →
      ∃ cursor', cursor ≤ cursor' ∧ cursor' ≤ ts.length ∧
        (unbounded limits ts depth level cursor).rest = ts.drop cursor' ∧
        (∀ v, (unbounded limits ts depth level cursor).value = .ok v → cursor < cursor') ∧
        ∀ frames, 5 * (limits.maxDepth - depth) + Action.height level ≤ frames →
          Action.call frames level (standing limits ts depth cursor) =
            .ok ((unbounded limits ts depth level cursor).value,
              standing limits ts depth cursor')) ∧
    (∀ depth cursor, Action.expression (standing limits ts depth cursor) =
      Action.call (5 * (limits.maxDepth + 1)) .expression (standing limits ts depth cursor)) ∧
    (∀ call cursor, cursor ≤ ts.length →
      ∃ outcome cursor', cursor ≤ cursor' ∧ cursor' ≤ ts.length ∧
        (∀ v, outcome = .ok v → cursor < cursor') ∧
        (standing limits ts 0 cursor).perform call =
          .ok (outcome, standing limits ts 0 cursor') ∧
        Parser.perform ⟨⟨limits, (endTokenOf ts).pos⟩, ts.drop cursor⟩ call =
          (outcome, ⟨⟨limits, (endTokenOf ts).pos⟩, ts.drop cursor'⟩)) ∧
    ∀ calls, ∃ outcomes cursor, cursor ≤ ts.length ∧
      (ofTokens limits ts).performAll calls = .ok (outcomes, standing limits ts 0 cursor) ∧
      (Parser.ofTokens limits ts).performAll calls =
        (outcomes, ⟨⟨limits, Parser.endOf ts⟩, ts.drop cursor⟩) := by
  refine ⟨fun level depth cursor hdepth hcursor => ?_, fun depth cursor => ?_,
    fun call cursor hcursor => perform_standing limits hcursor call, fun calls => ?_⟩
  · obtain ⟨cursor', hle, hle', hrest, hcall⟩ := call_standing hdepth hcursor level
    exact ⟨cursor', hle, hle', hrest, fun v hv => lt_of_unbounded_ok hrest hv, hcall⟩
  · rw [Action.expression]
    rfl
  · obtain ⟨outcomes, cursor, hcursor, hmachine, hparser⟩ :=
      performAll_eq limits ts calls (Nat.zero_le _)
    refine ⟨outcomes, cursor, ?_, hmachine, hparser⟩
    exact hcursor.trans (List.takeWhile_prefix _).length_le

-- with one call less there is no place for the atom
example : Action.call 4 .expression (ofTokens ⟨0, 0⟩ [⟨.number, "1", 0⟩]) =
    .error .stackOverflow := by rfl

end Machine

end RatExpr
