import RatExpr.Proofs.Expression.RoundTrip
import RatExpr.Proofs.Expression.Spacing

set_option autoImplicit false

/-! # What a trace shows

A trace goes along with an evaluation and does not change its outcome. The tokens that it shows are
a text themselves, the text with its tokens spaced out, and the result is one, too. Both can be
evaluated again, and are worth what the text is worth (`Expression.trace_truthful`).
-/

namespace RatExpr

open Token (significant spaced content Word)

namespace Token

/-- The tokens are shown as words with one space between them. -/
theorem spaced_eq_spread (ts : List Token) :
    spaced ts = Word.spread (Word.ofTokens (ts.filter fun t => t.kind != .eof)) :=
  (Word.spread_ofTokens _).symm

/-- What is shown of tokens depends on their content only. -/
theorem spaced_congr {ts ts' : List Token} (h : ts'.map content = ts.map content) :
    spaced ts' = spaced ts := by
  have hcontent : ∀ us : List Token, spaced us =
      " ".intercalate (((us.map content).filter fun c => c.1 != .eof).map Prod.snd) := by
    intro us
    rw [spaced, List.filter_map, List.map_map]
    rfl
  rw [hcontent, hcontent, h]

/-- **The tokens of a text are read again from what is shown of them.** -/
theorem significant_spaced {text : String} {ts : List Token} (h : significant text = .ok ts) :
    ∃ ts', significant (spaced ts) = .ok ts' ∧ ts'.map content = ts.map content := by
  have hwords := Word.map_token_ofTokens (ts.filter fun t => t.kind != .eof)
  have hlead : Text.AllBlank "".toList := Text.allBlank_nil
  have hsignificant := Expression.significant_respaced h hwords hlead (Word.apart_ofTokens _)
  rw [String.empty_append, ← spaced_eq_spread] at hsignificant
  exact ⟨_, hsignificant, Expression.map_content_respaced h hwords _ _⟩

end Token

namespace Expression

variable {limits : Limits} {text : String}

/-- A text with a value has tokens. -/
theorem exists_significant_of_evaluate {v : Rat} (h : evaluate limits text = .ok v) :
    ∃ ts, significant text = .ok ts := by
  cases hts : significant text with
  | ok ts => exact ⟨ts, rfl⟩
  | error e =>
      simp [evaluate, tokens, hts] at h

/-- **A trace shows the value of the text, its tokens, and the canonical text of the value.** -/
theorem trace_eq_ok_iff {v : Rat} {d : Trace} :
    trace limits text = .ok (v, d) ↔
      evaluate limits text = .ok v ∧
        ∃ ts, significant text = .ok ts ∧ d = ⟨spaced ts, Canonical.render v, stages⟩ := by
  cases hts : significant text with
  | error e => simp [trace, evaluate, tokens, hts]
  | ok ts =>
      simp only [trace, evaluate, tokens, hts]
      cases hblank : ts.all fun t => t.kind == .eof with
      | true => simp
      | false =>
          simp only [Bool.false_eq_true, if_false]
          cases hvalue : (Parser.ofTokens limits ts).complete.1 with
          | error e => simp
          | ok w =>
              simp only [Except.ok.injEq, Prod.mk.injEq]
              constructor
              · rintro ⟨rfl, rfl⟩
                exact ⟨rfl, ts, rfl, rfl⟩
              · rintro ⟨rfl, ts', rfl, rfl⟩
                exact ⟨rfl, rfl⟩

/-- Tracing fails as evaluating does. -/
theorem trace_eq_error_iff {e : EvalError} :
    trace limits text = .error e ↔ evaluate limits text = .error e := by
  rw [← trace_map_fst]
  cases trace limits text with
  | error e' => exact ⟨congrArg _, fun h => congrArg _ (Except.error.inj h)⟩
  | ok p => exact ⟨nofun, nofun⟩

/-- **A trace is truthful.** It fails as the evaluation does, and otherwise has its value. What it
shows of the tokens of a text is read again as those tokens, so showing them once more changes
nothing; it is worth what the text is worth, under the same limits, and has the same trace. The
result that it shows is worth that, too, unless it is negative and there is no room for a sign. -/
theorem trace_truthful (limits : Limits) (text : String) :
    (∀ e, trace limits text = .error e ↔ evaluate limits text = .error e) ∧
    (∀ v, (∃ d, trace limits text = .ok (v, d)) ↔ evaluate limits text = .ok v) ∧
    (∀ ts, significant text = .ok ts →
      ∃ ts', significant (spaced ts) = .ok ts' ∧ spaced ts' = spaced ts) ∧
    ∀ v d, trace limits text = .ok (v, d) →
      evaluate limits d.tokens = .ok v ∧
      (∃ d', trace limits d.tokens = .ok (v, d') ∧ d'.tokens = d.tokens ∧ d'.result = d.result) ∧
      (1 ≤ limits.maxDepth ∨ 0 ≤ v → evaluate limits d.result = .ok v) := by
  refine ⟨fun e => trace_eq_error_iff, fun v => ⟨?_, fun h => ?_⟩, fun ts hts => ?_, ?_⟩
  · rintro ⟨d, hd⟩
    exact (trace_eq_ok_iff.1 hd).1
  · obtain ⟨ts, hts⟩ := exists_significant_of_evaluate h
    exact ⟨_, trace_eq_ok_iff.2 ⟨h, ts, hts, rfl⟩⟩
  · obtain ⟨ts', hts', hcontent⟩ := Token.significant_spaced hts
    exact ⟨ts', hts', Token.spaced_congr hcontent⟩
  · intro v d hd
    obtain ⟨hvalue, ts, hts, rfl⟩ := trace_eq_ok_iff.1 hd
    obtain ⟨ts', hts', hcontent⟩ := Token.significant_spaced hts
    have hagain : evaluate limits (spaced ts) = .ok v :=
      (evaluate_eq_ok_congr hts hts' hcontent limits).2 hvalue
    refine ⟨hagain, ⟨_, trace_eq_ok_iff.2 ⟨hagain, ts', hts', rfl⟩, ?_, rfl⟩, fun hroom => ?_⟩
    · exact Token.spaced_congr hcontent
    · exact Canonical.evaluate_render_of_room hroom

/-- A negative result, with room for its sign. -/
theorem trace_truthful_negative :
    trace ⟨1, 3⟩ "\t-1.50**3 /2" = .ok (-27 / 16, ⟨"- 1.50 ** 3 / 2", "-27/16", stages⟩) ∧
      evaluate ⟨1, 3⟩ "- 1.50 ** 3 / 2" = .ok (-27 / 16) ∧
      evaluate ⟨1, 3⟩ "-27/16" = .ok (-27 / 16) := by
  have htrace : trace ⟨1, 3⟩ "\t-1.50**3 /2" =
      .ok (-27 / 16, ⟨"- 1.50 ** 3 / 2", "-27/16", stages⟩) := by decide +kernel
  obtain ⟨htokens, -, hresult⟩ := (trace_truthful ⟨1, 3⟩ "\t-1.50**3 /2").2.2.2 _ _ htrace
  exact ⟨htrace, htokens, hresult (Or.inl (by decide))⟩

end Expression

end RatExpr
