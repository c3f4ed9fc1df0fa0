import RatExpr.Proofs.Grammar.Calls

set_option autoImplicit false

/-! # One token of lookahead

A call looks at the token it stops at, and at none after it. Whatever comes after that token instead,
be it more tokens, fewer or others, the call answers the same and stops at the same token
(`Machine.perform_of_agree`). Where the tokens end does not matter either, although a machine works
it out before the first call. The main statement is `Machine.one_token_lookahead`.

The two runs are compared by an alignment. Its lists are the same up to the token of the stop, and
what comes after it is lost: should a reading come to it, nothing would be known of that reading.
But it does not, as the tokens that it leaves are too many.
-/

namespace RatExpr

namespace Parser

/-- The same tokens, and what comes after them. Nothing is known of the latter. -/
def prefixAlignment (limits : Limits) (endPos endPos' : Nat) (post post' : List Token) :
    Alignment ⟨limits, endPos⟩ ⟨limits, endPos'⟩ id where
  limits_eq := Eq.refl limits
  Aligned ts ts' := ∃ us, ts = us ++ post ∧ ts' = us ++ post'
  Lost ts := ts.length ≤ post.length
  lost_of_suffix h hsuffix := hsuffix.length_le.trans h
  cases := by
    rintro ts ts' ⟨us, rfl, rfl⟩
    cases us with
    | nil => exact Or.inl (Nat.le_refl _)
    | cons t us => exact Or.inr (Or.inr ⟨t, us ++ post, us ++ post', rfl, rfl, us, rfl, rfl⟩)

/-- **Only the token of the stop and those before it count.** -/
theorem perform_of_stop (limits : Limits) (endPos endPos' : Nat) (call : Call)
    {before post : List Token} {t : Token} {outcome : Except EvalError Rat}
    (h : perform ⟨⟨limits, endPos⟩, before ++ t :: post⟩ call =
      (outcome, ⟨⟨limits, endPos⟩, t :: post⟩)) (post' : List Token) :
    perform ⟨⟨limits, endPos'⟩, before ++ t :: post'⟩ call =
      (outcome, ⟨⟨limits, endPos'⟩, t :: post'⟩) := by
  obtain ⟨outcome', rest', -, h'⟩ :=
    exists_perform_eq ⟨⟨limits, endPos'⟩, before ++ t :: post'⟩ call
  have haligned : (prefixAlignment limits endPos endPos' post post').Aligned
      (before ++ t :: post) (before ++ t :: post') :=
    ⟨before ++ [t], List.append_cons before t post, List.append_cons before t post'⟩
  have hstep := Alignment.perform_inStep _ call haligned
  simp only [Alignment.InStep, Alignment.answer, h, h', moveOutcome_id] at hstep
  have hfound : ¬ (t :: post).length ≤ post.length := by
    rw [List.length_cons]
    omega
  obtain ⟨rfl, us, hus, rfl⟩ := hstep.resolve_left hfound
  have ht : us = [t] := List.append_cancel_right (hus.symm.trans (List.singleton_append).symm)
  rw [h', ht]
  rfl

end Parser

namespace Machine

/-- **What comes after the token of the stop** is not seen by a call. -/
theorem perform_of_stop (limits : Limits) (call : Parser.Call) {before post : List Token}
    {t : Token} {outcome : Except EvalError Rat}
    (h : (ofTokens limits (before ++ t :: post)).perform call =
      .ok (outcome, (ofTokens limits (before ++ t :: post)).withCursor before.length))
    (post' : List Token) :
    (ofTokens limits (before ++ t :: post')).perform call =
      .ok (outcome, (ofTokens limits (before ++ t :: post')).withCursor before.length) := by
  have hready (ts : List Token) : (ofTokens limits ts).Ready
      ⟨limits, (endTokenOf ts).pos⟩ limits.maxDepth := ready_ofTokens limits ts (Nat.zero_le _)
  have hleft (ts : List Token) : (ofTokens limits ts).left = ts := rfl
  obtain ⟨outcome', rest, hsuffix, hparser⟩ := Parser.exists_perform_eq
    ⟨⟨limits, (endTokenOf (before ++ t :: post)).pos⟩, before ++ t :: post⟩ call
  have hmachine := perform_eq (hready (before ++ t :: post)) call
  rw [hleft, hparser, h] at hmachine
  obtain ⟨rfl, hcursor⟩ := Prod.mk.inj (Except.ok.inj hmachine)
  -- the parser stops at the same token, as it leaves as many tokens
  have hlength : rest.length = (t :: post).length := by
    have hmoved : before.length = (before ++ t :: post).length - rest.length :=
      congrArg Machine.cursor hcursor
    have hle := hsuffix.length_le
    rw [List.length_append] at hmoved hle
    omega
  have hrest : rest = t :: post :=
    (List.suffix_of_suffix_length_le hsuffix (List.suffix_append before (t :: post))
      hlength.le).eq_of_length hlength
  rw [hrest] at hparser
  have hstop := Parser.perform_of_stop limits _ (endTokenOf (before ++ t :: post')).pos call
    hparser post'
  have hmoved : (before ++ t :: post').length - (t :: post').length = before.length := by
    rw [List.length_append, Nat.add_sub_cancel]
  rw [perform_eq (hready (before ++ t :: post')) call, hleft, hstop]
  exact congrArg (fun p => Except.ok (outcome, withCursor _ p)) hmoved

/-- A list that is the same up to a token starts with it and those before it. -/
theorem eq_take_append_of_agree {ts ts' : List Token} {p : Nat} (hp : p < ts'.length)
    (h : ∀ i ≤ p, ts'[i]? = ts[i]?) (t : Token) (ht : ts[p]? = some t) :
    ts' = ts.take p ++ t :: ts'.drop (p + 1) := by
  have htake : ts'.take p = ts.take p := by
    refine List.ext_getElem? fun i => ?_
    by_cases hi : i < p
    · rw [List.getElem?_take_of_lt hi, List.getElem?_take_of_lt hi, h i (by omega)]
    · rw [List.getElem?_take_eq_none (by omega), List.getElem?_take_eq_none (by omega)]
  have hget : ts'[p] = t := by
    have := (h p (Nat.le_refl p)).trans ht
    rw [List.getElem?_eq_getElem hp] at this
    exact Option.some.inj this
  rw [← htake, ← hget, ← List.drop_eq_getElem_cons hp, List.take_append_drop]

/-- **Lists that are the same up to the token of the stop are answered the same.** -/
theorem perform_of_agree (limits : Limits) (call : Parser.Call) {ts ts' : List Token} {p : Nat}
    {outcome : Except EvalError Rat}
    (h : (ofTokens limits ts).perform call = .ok (outcome, (ofTokens limits ts).withCursor p))
    (hp : p < ts.length) (hp' : p < ts'.length) (hagree : ∀ i ≤ p, ts'[i]? = ts[i]?) :
    (ofTokens limits ts').perform call = .ok (outcome, (ofTokens limits ts').withCursor p) := by
  have hget : ts[p]? = some ts[p] := List.getElem?_eq_getElem hp
  have hts := eq_take_append_of_agree hp (fun _ _ => rfl) ts[p] hget
  have hts' := eq_take_append_of_agree hp' hagree ts[p] hget
  have hlength : (ts.take p).length = p := List.length_take_of_le hp.le
  have hstart : (ofTokens limits (ts.take p ++ ts[p] :: ts.drop (p + 1))).perform call =
      .ok (outcome, (ofTokens limits (ts.take p ++ ts[p] :: ts.drop (p + 1))).withCursor
        (ts.take p).length) := by
    rw [← hts, hlength]
    exact h
  have hstop := perform_of_stop limits call hstart (ts'.drop (p + 1))
  rwa [← hts', hlength] at hstop

/-- The first end is not after an end. -/
theorem length_beforeEnd_le {before post : List Token} {fin : Token} (hfin : fin.kind = .eof) :
    (Parser.beforeEnd (before ++ fin :: post)).length ≤ before.length := by
  rw [Parser.length_beforeEnd]
  refine Nat.le_of_not_lt fun hlt => ?_
  have hother := List.not_of_lt_findIdx hlt
  simp [hfin] at hother

/-- **A call has one token of lookahead.** It answers, and stops somewhere. Any list of tokens that
is the same up to the token there, and with it, is answered the same and with the same stop, be it
with a value or an error. So nothing after the token of an error counts, and nothing after the first
end. -/
theorem one_token_lookahead (limits : Limits) (call : Parser.Call) (ts : List Token) :
    ∃ outcome p, (ofTokens limits ts).perform call =
        .ok (outcome, (ofTokens limits ts).withCursor p) ∧
      (p < ts.length → ∀ ts', p < ts'.length → (∀ i ≤ p, ts'[i]? = ts[i]?) →
        (ofTokens limits ts').perform call =
          .ok (outcome, (ofTokens limits ts').withCursor p)) ∧
      ∀ before fin post, ts = before ++ fin :: post → fin.kind = .eof → ∀ post',
        (ofTokens limits (before ++ fin :: post')).perform call =
          .ok (outcome, (ofTokens limits (before ++ fin :: post')).withCursor p) := by
  obtain ⟨outcome, p, hp, hstep, -⟩ := perform_step limits ts call (Nat.zero_le _)
  rw [Nat.zero_add] at hp hstep
  have hperform : (ofTokens limits ts).perform call =
      .ok (outcome, (ofTokens limits ts).withCursor p) := hstep
  refine ⟨outcome, p, hperform,
    fun hlt ts' hlt' hagree => perform_of_agree limits call hperform hlt hlt' hagree, ?_⟩
  rintro before fin post rfl hfin post'
  have hle : p < (before ++ [fin]).length := by
    rw [List.length_append, List.length_singleton]
    exact Nat.lt_succ_of_le (hp.trans (length_beforeEnd_le hfin))
  have hlt (us : List Token) : p < (before ++ fin :: us).length := by
    rw [List.append_cons, List.length_append]
    omega
  refine perform_of_agree limits call hperform (hlt post) (hlt post') fun i hi => ?_
  rw [List.append_cons before fin post, List.append_cons before fin post',
    List.getElem?_append_left (hi.trans_lt hle), List.getElem?_append_left (hi.trans_lt hle)]

/-- The number is followed by a parenthesis, and what follows that is not looked at. -/
theorem one_token_lookahead_trailing :
    1 < [(⟨.number, "1", 0⟩ : Token), ⟨.rightParen, ")", 1⟩].length ∧
    ∀ ts', 1 < ts'.length →
      (∀ i ≤ 1, ts'[i]? = [(⟨.number, "1", 0⟩ : Token), ⟨.rightParen, ")", 1⟩][i]?) →
      (ofTokens {} ts').perform .complete =
        .ok (.error (.trailingToken ⟨.rightParen, ")", 1⟩), (ofTokens {} ts').withCursor 1) := by
  refine ⟨by decide, ?_⟩
  obtain ⟨outcome, p, hperform, hlook, -⟩ :=
    one_token_lookahead {} .complete [⟨.number, "1", 0⟩, ⟨.rightParen, ")", 1⟩]
  have hrun : (ofTokens {} [⟨.number, "1", 0⟩, ⟨.rightParen, ")", 1⟩]).perform .complete =
      .ok (.error (.trailingToken ⟨.rightParen, ")", 1⟩),
        (ofTokens {} [⟨.number, "1", 0⟩, ⟨.rightParen, ")", 1⟩]).withCursor 1) := by
    decide +kernel
  obtain ⟨rfl, hmachine⟩ := Prod.mk.inj (Except.ok.inj (hperform.symm.trans hrun))
  obtain rfl : p = 1 := congrArg Machine.cursor hmachine
  exact hlook (by decide)

end Machine

end RatExpr
