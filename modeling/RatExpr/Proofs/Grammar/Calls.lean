import Mathlib.Data.List.TakeWhile
import RatExpr.Proofs.Grammar.Machine
import RatExpr.Proofs.Grammar.Refinement

set_option autoImplicit false

/-! # Calls one after the other

Nothing of a call is left for the next one but the cursor, be it a value or an error that the call
has come to: the next call answers as the first one would if the tokens started at the cursor
(`Machine.memoryless`). What comes after the first end does not matter either, nor whether there
is an end at all (`Parser.perform_append`): all that counts of the end is its position.
-/

namespace RatExpr

namespace Parser

/-- A call leaves a final part of the tokens, and the context as it is. -/
theorem exists_perform_eq (p : Parser) (call : Call) :
    ∃ outcome rest, rest <:+ p.rest ∧ p.perform call = (outcome, ⟨p.context, rest⟩) := by
  have hsuffix := p.expression_rest_suffix
  cases call with
  | expression => exact ⟨_, _, hsuffix, rfl⟩
  | complete =>
      refine ⟨p.complete.1, p.expression.2.rest, hsuffix, Prod.ext rfl ?_⟩
      exact p.complete_snd

/-! ## What comes before the end -/

/-- The same tokens before two ends at the same position are aligned. -/
def endAlignment {limits : Limits} {endPos endPos' : Nat} {post post' : List Token}
    (hpost : AtEnd post) (hpost' : AtEnd post')
    (hpos : ((⟨limits, endPos'⟩ : Context).next post').pos =
      ((⟨limits, endPos⟩ : Context).next post).pos) :
    Alignment ⟨limits, endPos⟩ ⟨limits, endPos'⟩ id where
  limits_eq := rfl
  Aligned ts ts' := ∃ us, ts = us ++ post ∧ ts' = us ++ post'
  Lost _ := False
  lost_of_suffix h _ := h
  cases := by
    rintro ts ts' ⟨us, rfl, rfl⟩
    cases us with
    | nil => exact Or.inr (Or.inl ⟨hpost, hpost', hpos⟩)
    | cons t us => exact Or.inr (Or.inr ⟨t, us ++ post, us ++ post', rfl, rfl, us, rfl, rfl⟩)

/-- **All that counts of the end is its position:** a call answers the same, and takes the same of
the tokens before it. -/
theorem perform_append (limits : Limits) (pos : Nat) (call : Call) (us : List Token) :
    ∃ outcome us', us' <:+ us ∧ ∀ endPos post, AtEnd post →
      ((⟨limits, endPos⟩ : Context).next post).pos = pos →
      perform ⟨⟨limits, endPos⟩, us ++ post⟩ call = (outcome, ⟨⟨limits, endPos⟩, us' ++ post⟩) := by
  obtain ⟨outcome, us', hsuffix, hperform⟩ := exists_perform_eq ⟨⟨limits, pos⟩, us⟩ call
  refine ⟨outcome, us', hsuffix, fun endPos post hpost hpos => ?_⟩
  -- the call is compared with one where no token says that the text is over
  have hstep := Alignment.perform_inStep (endAlignment atEnd_nil hpost hpos) call
    ⟨us, (List.append_nil us).symm, rfl⟩
  obtain ⟨outcome', rest, -, hperform'⟩ := exists_perform_eq ⟨⟨limits, endPos⟩, us ++ post⟩ call
  simp only [Alignment.InStep, Alignment.answer, hperform, hperform', moveOutcome_id] at hstep
  obtain ⟨houtcome, us'', hus', hrest⟩ := hstep.resolve_left id
  rw [hperform', houtcome, hrest, hus', List.append_nil]

/-! ## The end that counts -/

/-- The first end, and one just after the tokens if there is none. -/
def firstEnd (ts : List Token) : Token :=
  (ts.find? fun t => t.kind == .eof).getD (.endAt (endOf ts))

/-- The tokens up to the first end, which is added if it is missing. -/
def normalised (ts : List Token) : List Token := beforeEnd ts ++ [firstEnd ts]

theorem kind_firstEnd (ts : List Token) : (firstEnd ts).kind = .eof := by
  unfold firstEnd
  cases h : ts.find? fun t => t.kind == .eof with
  | none => rfl
  | some t => simpa using List.find?_some h

theorem length_beforeEnd (ts : List Token) :
    (beforeEnd ts).length = ts.findIdx fun t => t.kind == .eof := by
  have htake : beforeEnd ts = ts.take (ts.findIdx fun t => t.kind == .eof) := by
    rw [beforeEnd, List.takeWhile_eq_take_findIdx_not]
    simp only [bne, Bool.not_not]
  rw [htake, List.length_take_of_le List.findIdx_le_length]

/-- Where the end is taken to be matters only if it is missing. -/
theorem exists_end (limits : Limits) (ts : List Token) :
    ∃ post, AtEnd post ∧ ts = beforeEnd ts ++ post ∧
      ∀ endPos, ((∀ t ∈ ts, t.kind ≠ .eof) → endPos = endOf ts) →
        ((⟨limits, endPos⟩ : Context).next post).pos = (firstEnd ts).pos := by
  have hfind : (ts.find? fun t => t.kind == .eof) =
      (ts.dropWhile fun t => t.kind != .eof).head? := List.find?_eq_head?_dropWhile_not _ ts
  refine ⟨ts.dropWhile fun t => t.kind != .eof, ?_, List.takeWhile_append_dropWhile.symm, ?_⟩
  · intro t ht
    rw [← hfind] at ht
    simpa using List.find?_some ht
  · intro endPos hendPos
    rw [Context.next, List.headD_eq_head?_getD, ← hfind, firstEnd]
    cases h : ts.find? fun t => t.kind == .eof with
    | some t => rfl
    | none =>
        have hmissing : ∀ t ∈ ts, t.kind ≠ .eof := by simpa using h
        simp only [Option.getD_none, hendPos hmissing]

end Parser

namespace Machine

theorem kind_endTokenOf (ts : List Token) : (endTokenOf ts).kind = .eof := by
  unfold endTokenOf
  split
  · split
    · assumption
    · rfl
  · rfl

/-- A machine puts the end where a parser does, if it is missing. -/
theorem endTokenOf_eq {ts : List Token} (h : ∀ t ∈ ts, t.kind ≠ .eof) :
    endTokenOf ts = .endAt (Parser.endOf ts) := by
  unfold endTokenOf Parser.endOf
  cases hlast : ts.getLast? with
  | none => rfl
  | some t =>
      have ht : t.kind ≠ .eof := h t (List.mem_of_getLast? hlast)
      simp only [if_neg ht]

theorem pos_endTokenOf {ts : List Token} (h : ∀ t ∈ ts, t.kind ≠ .eof) :
    (endTokenOf ts).pos = Parser.endOf ts := by
  rw [endTokenOf_eq h]
  rfl

/-! ## One call -/

/-- A machine between two calls. -/
theorem ready_ofTokens (limits : Limits) (ts : List Token) {cursor : Nat}
    (h : cursor ≤ ts.length) :
    Ready ⟨limits, (endTokenOf ts).pos⟩ limits.maxDepth
      ((ofTokens limits ts).withCursor cursor) :=
  ⟨h, kind_endTokenOf ts, rfl, rfl, Nat.zero_add _⟩

/-- The cursor moves by as many tokens as the parser takes of those before the end. -/
theorem perform_of_append {ctx : Context} {m : Machine} (hm : m.Ready ctx ctx.limits.maxDepth)
    {call : Parser.Call} {outcome : Except EvalError Rat} {us us' post : List Token}
    (hleft : m.left = us ++ post) (hus : us' <:+ us)
    (h : Parser.perform ⟨ctx, us ++ post⟩ call = (outcome, ⟨ctx, us' ++ post⟩)) :
    m.perform call = .ok (outcome, m.withCursor (m.cursor + (us.length - us'.length))) := by
  have hlength : m.tokens.length - m.cursor = us.length + post.length := by
    rw [← List.length_append, ← hleft, left, List.length_drop]
  have hcursor : m.tokens.length - (us' ++ post).length = m.cursor + (us.length - us'.length) := by
    have := hm.cursor_le
    have := hus.length_le
    rw [List.length_append]
    omega
  rw [perform_eq hm call, hleft, h, leaving, hcursor]

/-- **A call answers as on a fresh machine,** which starts at the cursor and has an end. -/
theorem perform_step (limits : Limits) (ts : List Token) (call : Parser.Call) {c : Nat}
    (hc : c ≤ (Parser.beforeEnd ts).length) :
    ∃ outcome moved, c + moved ≤ (Parser.beforeEnd ts).length ∧
      ((ofTokens limits ts).withCursor c).perform call =
        .ok (outcome, (ofTokens limits ts).withCursor (c + moved)) ∧
      Parser.perform ⟨⟨limits, Parser.endOf ts⟩, ts.drop c⟩ call =
        (outcome, ⟨⟨limits, Parser.endOf ts⟩, ts.drop (c + moved)⟩) ∧
      (ofTokens limits ((Parser.normalised ts).drop c)).perform call =
        .ok (outcome, (ofTokens limits ((Parser.normalised ts).drop c)).withCursor moved) := by
  obtain ⟨post, hpost, hts, hpos⟩ := Parser.exists_end limits ts
  obtain ⟨outcome, us', hus, hperform⟩ := Parser.perform_append limits (Parser.firstEnd ts).pos call
    ((Parser.beforeEnd ts).drop c)
  have hlength : ((Parser.beforeEnd ts).drop c).length = (Parser.beforeEnd ts).length - c :=
    List.length_drop
  have hle := hus.length_le
  have hdrop (k : Nat) (hk : k ≤ (Parser.beforeEnd ts).length) :
      ts.drop k = (Parser.beforeEnd ts).drop k ++ post :=
    (congrArg (List.drop k) hts).trans (List.drop_append_of_le_length hk)
  obtain ⟨moved, hmoved⟩ : ∃ moved, moved = ((Parser.beforeEnd ts).drop c).length - us'.length :=
    ⟨_, rfl⟩
  refine ⟨outcome, moved, by omega, ?_, ?_, ?_⟩
  · have hready := ready_ofTokens limits ts (hc.trans (List.takeWhile_prefix _).length_le)
    rw [hmoved]
    exact perform_of_append hready (hdrop c hc) hus (hperform _ post hpost (hpos _ pos_endTokenOf))
  · have hus' : us' = (Parser.beforeEnd ts).drop (c + moved) := by
      rw [← List.drop_drop, hmoved]
      exact List.suffix_iff_eq_drop.1 hus
    rw [hdrop c hc, hdrop (c + moved) (by omega), ← hus']
    exact hperform (Parser.endOf ts) post hpost (hpos _ fun _ => rfl)
  · have hfresh : (Parser.normalised ts).drop c =
        (Parser.beforeEnd ts).drop c ++ [Parser.firstEnd ts] :=
      List.drop_append_of_le_length hc
    have hready := ready_ofTokens limits ((Parser.normalised ts).drop c) (Nat.zero_le _)
    rw [← Nat.zero_add moved, hmoved]
    exact perform_of_append hready hfresh hus (hperform _ [Parser.firstEnd ts]
      (Parser.atEnd_cons.2 (Parser.kind_firstEnd ts)) rfl)

/-- A fresh machine answers as a fresh parser. -/
theorem perform_ofTokens (limits : Limits) (ts : List Token) (call : Parser.Call) :
    ∃ p, (ofTokens limits ts).perform call =
      .ok (((Parser.ofTokens limits ts).perform call).1, (ofTokens limits ts).withCursor p) := by
  obtain ⟨outcome, moved, -, hcall, hparser, -⟩ := perform_step limits ts call (Nat.zero_le _)
  have houtcome : ((Parser.ofTokens limits ts).perform call).1 = outcome :=
    congrArg Prod.fst hparser
  rw [houtcome]
  exact ⟨0 + moved, hcall⟩

/-- The current token of a machine is what a parser finds next. -/
theorem current_eq_next (limits : Limits) (ts : List Token) {c : Nat}
    (hc : c ≤ (Parser.beforeEnd ts).length) :
    ((ofTokens limits ts).withCursor c).current =
      (⟨limits, Parser.endOf ts⟩ : Context).next (ts.drop c) := by
  cases hleft : ts.drop c with
  | cons t us => exact current_of_cons hleft
  | nil =>
      -- the cursor has passed all tokens, so none of them is an end
      have hall : Parser.beforeEnd ts = ts := by
        have hlength : ts.length ≤ c := List.drop_eq_nil_iff.1 hleft
        exact (List.takeWhile_prefix _).eq_of_length_le (hlength.trans hc)
      have hend : ∀ t ∈ ts, t.kind ≠ .eof := by
        intro t ht
        rw [← hall] at ht
        simpa using List.all_eq_true.1 List.all_takeWhile t ht
      have hcurrent : ((ofTokens limits ts).withCursor c).current = endTokenOf ts :=
        current_of_nil hleft
      rw [hcurrent, endTokenOf_eq hend]
      rfl

/-! ## Any calls -/

/-- **Calls in any order and number** leave the cursor before the end or on it, and answer as those
of a parser do. -/
theorem performAll_eq (limits : Limits) (ts : List Token) (calls : List Parser.Call) {c : Nat}
    (hc : c ≤ (Parser.beforeEnd ts).length) :
    ∃ outcomes c', c' ≤ (Parser.beforeEnd ts).length ∧
      ((ofTokens limits ts).withCursor c).performAll calls =
        .ok (outcomes, (ofTokens limits ts).withCursor c') ∧
      Parser.performAll ⟨⟨limits, Parser.endOf ts⟩, ts.drop c⟩ calls =
        (outcomes, ⟨⟨limits, Parser.endOf ts⟩, ts.drop c'⟩) := by
  induction calls generalizing c with
  | nil => exact ⟨[], c, hc, rfl, rfl⟩
  | cons call calls ih =>
      obtain ⟨outcome, moved, hmoved, hcall, hparser, -⟩ := perform_step limits ts call hc
      obtain ⟨outcomes, c', hc', hcalls, hparsers⟩ := ih hmoved
      refine ⟨outcome :: outcomes, c', hc', ?_, ?_⟩
      · simp only [performAll, hcall, hcalls, bind, Except.bind, pure, Except.pure]
      · simp only [Parser.performAll, hparser, hparsers]

-- the sign stands too deep, but it has been passed, and its level of nesting is not left entered
example : ((ofTokens ⟨0, 0⟩ [⟨.minus, "-", 0⟩, ⟨.number, "1", 1⟩]).performAll
    [.expression, .complete]).map Prod.fst = .ok [.error (.tooDeep 0 0), .ok 1] := by
  decide +kernel

/-- **Nothing but the cursor is left of a call.** After any calls, whatever they have come to, no
level of nesting is entered and the cursor has not passed the first end. The next call moves it
forward, if at all, and answers and moves as the first call on the tokens from the cursor on. A
machine never breaks down over this, and it gives what a parser gives. -/
theorem memoryless (limits : Limits) (ts : List Token) (calls : List Parser.Call) :
    ∃ outcomes m, (ofTokens limits ts).performAll calls = .ok (outcomes, m) ∧
      (Parser.ofTokens limits ts).performAll calls =
        (outcomes, ⟨⟨limits, Parser.endOf ts⟩, ts.drop m.cursor⟩) ∧
      m.depth = 0 ∧ m.cursor ≤ (ts.findIdx fun t => t.kind == .eof) ∧
      ∀ call, ∃ outcome m', m.perform call = .ok (outcome, m') ∧
        m'.depth = 0 ∧ m.cursor ≤ m'.cursor ∧ m'.cursor ≤ (ts.findIdx fun t => t.kind == .eof) ∧
        ∃ fresh, (ofTokens limits ((Parser.normalised ts).drop m.cursor)).perform call =
            .ok (outcome, fresh) ∧
          fresh.cursor = m'.cursor - m.cursor := by
  obtain ⟨outcomes, c, hc, hmachine, hparser⟩ := performAll_eq limits ts calls (Nat.zero_le _)
  refine ⟨outcomes, (ofTokens limits ts).withCursor c, hmachine, hparser, rfl, ?_, ?_⟩
  · exact Parser.length_beforeEnd ts ▸ hc
  · intro call
    obtain ⟨outcome, moved, hmoved, hcall, -, hfresh⟩ := perform_step limits ts call hc
    refine ⟨outcome, _, hcall, rfl, Nat.le_add_right c moved, ?_, _, hfresh, ?_⟩
    · exact Parser.length_beforeEnd ts ▸ hmoved
    · exact (Nat.add_sub_cancel_left c moved).symm

end Machine

end RatExpr
