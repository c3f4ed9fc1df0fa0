import Mathlib.Data.List.Basic
import RatExpr.Expression
import RatExpr.Proofs.Grammar.Moving
import RatExpr.Proofs.Token.Spacing

set_option autoImplicit false

/-! # Spacing does not matter

An evaluation looks at what the tokens of a text are, and not at where they stand: texts with the
same tokens have the same value, or errors that differ in where they point
(`Expression.unplaced_evaluate_congr`). Blanks between the tokens only move them. So a text may be
spaced out at will, and closed up except where two tokens would meet; the main statement is
`Expression.evaluate_respaced`.
-/

namespace RatExpr

open Text (AllBlank)
open Token (significant content Word)

/-! ## Errors without a place -/

namespace EvalError

/-- The error without the text of a blank expression. -/
def forgetBlank : EvalError → EvalError
  | emptyExpression _ => emptyExpression ""
  | unclosedParen opening cause => unclosedParen opening cause.forgetBlank
  | operand op pos cause => operand op pos cause.forgetBlank
  | side s text cause => side s text cause.forgetBlank
  | e => e

/-- What an error says, but not where: all positions are taken out, and so is the text of a blank
expression. -/
def unplaced (e : EvalError) : EvalError := (e.move fun _ => 0).forgetBlank

end EvalError

/-- Whatever is done to errors, the values stay. -/
theorem mapError_eq_ok_iff {α : Type} {x : Except EvalError α} {f : EvalError → EvalError} {a : α} :
    x.mapError f = .ok a ↔ x = .ok a := by
  cases x with
  | error e => exact ⟨nofun, nofun⟩
  | ok b => exact Iff.rfl

/-! ## Texts with the same tokens -/

namespace Token

/-- The end is the last of the tokens that an expression is read from. -/
theorem eq_append_end {text : String} {ts : List Token} (h : significant text = .ok ts) :
    ts = (ts.filter fun t => t.kind != .eof) ++ [endAt text.length] := by
  obtain ⟨us, hcut, rfl⟩ := significant_eq_ok_iff_cut.1 h
  have hus : us.filter (fun t => t.kind != .eof) = us :=
    List.filter_eq_self.2 fun t ht => by simpa using hcut.kind_ne_eof t ht
  rw [List.filter_append, hus]
  simp [endAt]

theorem hasEnd_of_significant {text : String} {ts : List Token} (h : significant text = .ok ts) :
    HasEnd ts := by
  obtain ⟨us, -, rfl⟩ := significant_eq_ok_iff_cut.1 h
  exact ⟨endAt text.length, by simp, rfl⟩

/-- Whether there are tokens besides the end is seen from their content. -/
theorem all_eof_congr {ts ts' : List Token} (h : ts'.map content = ts.map content) :
    (ts'.all fun t => t.kind == .eof) = ts.all fun t => t.kind == .eof := by
  have hcontent : ∀ us : List Token,
      (us.all fun t => t.kind == .eof) = (us.map content).all fun c => c.1 == .eof := by
    intro us
    rw [List.all_map]
    rfl
  rw [hcontent, hcontent, h]

end Token

namespace Expression

/-- **What a text is worth depends on the content of its tokens,** and where they stand shows in
errors only. -/
theorem unplaced_evaluate_congr {text text' : String} {ts ts' : List Token}
    (hts : significant text = .ok ts) (hts' : significant text' = .ok ts')
    (h : ts'.map content = ts.map content) (limits : Limits) :
    (evaluate limits text').mapError EvalError.unplaced =
      (evaluate limits text).mapError EvalError.unplaced := by
  have hall := Token.all_eof_congr h
  by_cases hblank : (ts.all fun t => t.kind == .eof) = true
  · -- both texts are blank, and the errors name them
    have herror : evaluate limits text = .error (.emptyExpression text) := by
      simp only [evaluate, tokens, hts, hblank, if_true]
    have herror' : evaluate limits text' = .error (.emptyExpression text') := by
      simp only [evaluate, tokens, hts', hall, hblank, if_true]
    rw [herror, herror']
    rfl
  · have hread : evaluate limits text = (Parser.ofTokens limits ts).complete.1 := by
      simp only [evaluate, tokens, hts, hblank]
      rfl
    have hread' : evaluate limits text' = (Parser.ofTokens limits ts').complete.1 := by
      simp only [evaluate, tokens, hts', hall, hblank]
      rfl
    have hsame := Parser.complete_congr limits 0 (Token.hasEnd_of_significant hts)
      (Token.hasEnd_of_significant hts') h
    have hunplaced : ∀ x : Except EvalError Rat, x.mapError EvalError.unplaced =
        (moveOutcome (fun _ => 0) x).mapError EvalError.forgetBlank := by
      intro x
      cases x <;> rfl
    rw [hread, hread', hunplaced, hunplaced, hsame]

/-- In particular it depends on it whether there is a value, and which. -/
theorem evaluate_eq_ok_congr {text text' : String} {ts ts' : List Token}
    (hts : significant text = .ok ts) (hts' : significant text' = .ok ts')
    (h : ts'.map content = ts.map content) (limits : Limits) {v : Rat} :
    evaluate limits text' = .ok v ↔ evaluate limits text = .ok v := by
  rw [← mapError_eq_ok_iff, unplaced_evaluate_congr hts hts' h limits, mapError_eq_ok_iff]

/-! ## Blank texts -/

/-- A blank text has no value. -/
theorem evaluate_of_allBlank {text : String} (h : AllBlank text.toList) (limits : Limits) :
    evaluate limits text = .error (.emptyExpression text) := by
  simp [evaluate, tokens, Token.significant_of_allBlank h, Token.endAt]

/-- A text with a value is not blank. -/
theorem not_allBlank_of_evaluate {limits : Limits} {text : String} {v : Rat}
    (h : evaluate limits text = .ok v) : ¬ AllBlank text.toList := by
  intro hblank
  rw [evaluate_of_allBlank hblank] at h
  exact nomatch h

/-! ## Spaced texts -/

section

variable {text lead : String} {ts : List Token} {words : List Word}

/-- The tokens of a text are found again where they are spread. -/
theorem significant_respaced (hts : significant text = .ok ts)
    (hwords : words.map Word.token = ts.filter fun t => t.kind != .eof)
    (hlead : AllBlank lead.toList) (hapart : Word.Apart words) :
    significant (lead ++ Word.spread words) = .ok (Word.placed lead.length words ++
      [Token.endAt (lead ++ Word.spread words).length]) := by
  refine Token.significant_spread hlead (fun w hw => ?_) hapart
  have hmem : w.token ∈ ts.filter fun t => t.kind != .eof := hwords ▸ List.mem_map_of_mem hw
  obtain ⟨ht, hkind⟩ := List.mem_filter.1 hmem
  exact Token.isSignificant_of_mem hts ht (by simpa using hkind)

/-- They have the content that they have in the text. -/
theorem map_content_respaced (hts : significant text = .ok ts)
    (hwords : words.map Word.token = ts.filter fun t => t.kind != .eof) (pos pos' : Nat) :
    (Word.placed pos words ++ [Token.endAt pos']).map content = ts.map content := by
  have hcontent : words.map (fun w => w.token.content) =
      (ts.filter fun t => t.kind != .eof).map content := by
    rw [← hwords, List.map_map]
    rfl
  calc (Word.placed pos words ++ [Token.endAt pos']).map content
      = (ts.filter fun t => t.kind != .eof).map content ++ [Token.content (Token.endAt pos')] := by
        rw [List.map_append, Word.map_content_placed, hcontent, List.map_singleton]
    _ = ((ts.filter fun t => t.kind != .eof) ++ [Token.endAt text.length]).map content := by
        rw [List.map_append]
        rfl
    _ = ts.map content := by rw [← Token.eq_append_end hts]

/-- Each token stands after what is written before it, and the end after the whole text. -/
theorem pos_of_getElem?_respaced {i : Nat} {t : Token}
    (h : (Word.placed lead.length words ++
      [Token.endAt (lead ++ Word.spread words).length])[i]? = some t) :
    t.pos = (lead ++ Word.spread (words.take i)).length := by
  have hlength := Word.length_placed lead.length words
  rw [String.length_append]
  by_cases hi : i < words.length
  · rw [List.getElem?_append_left (by omega)] at h
    exact Word.pos_of_getElem?_placed h
  · rw [List.getElem?_append_right (by omega)] at h
    obtain ⟨-, rfl⟩ := List.getElem?_eq_some_iff.1 h
    rw [List.take_of_length_le (by omega), ← String.length_append]
    simp [Token.endAt]

/-- **Spacing does not matter.** Write the tokens of a text again, with any blanks before the first
and after each, one at least between any two. The same tokens are read from the new text, each where
it is written and the end at its end. Under all limits the new text has the value that the text has,
or an error that says the same but for places. -/
theorem evaluate_respaced (hts : significant text = .ok ts)
    (hwords : words.map Word.token = ts.filter fun t => t.kind != .eof)
    (hlead : AllBlank lead.toList) (hapart : Word.Apart words) :
    (∃ ts', significant (lead ++ Word.spread words) = .ok ts' ∧
      ts'.map content = ts.map content ∧
      ∀ i t, ts'[i]? = some t → t.pos = (lead ++ Word.spread (words.take i)).length) ∧
    ∀ limits,
      (∀ v, evaluate limits (lead ++ Word.spread words) = .ok v ↔ evaluate limits text = .ok v) ∧
      (evaluate limits (lead ++ Word.spread words)).mapError EvalError.unplaced =
        (evaluate limits text).mapError EvalError.unplaced := by
  have hsignificant := significant_respaced hts hwords hlead hapart
  have hcontent := map_content_respaced hts hwords lead.length (lead ++ Word.spread words).length
  refine ⟨⟨_, hsignificant, hcontent, fun i t ht => pos_of_getElem?_respaced ht⟩, fun limits => ?_⟩
  exact ⟨fun v => evaluate_eq_ok_congr hts hsignificant hcontent limits,
    unplaced_evaluate_congr hts hsignificant hcontent limits⟩

end

/-- Blanks of several kinds, and tokens that meet in the text: the operator of two stars and the
number that follows it, and a star and a number that starts with its point. -/
theorem evaluate_respaced_scattered :
    significant "2**3*.5" = .ok [⟨.number, "2", 0⟩, ⟨.power, "**", 1⟩, ⟨.number, "3", 3⟩,
        ⟨.star, "*", 4⟩, ⟨.number, ".5", 5⟩, .endAt 7] ∧
      AllBlank "\t".toList ∧
      Word.Apart [⟨⟨.number, "2", 0⟩, "\u00a0\n"⟩, ⟨⟨.power, "**", 1⟩, " "⟩,
        ⟨⟨.number, "3", 3⟩, "\r"⟩, ⟨⟨.star, "*", 4⟩, "\u2003"⟩, ⟨⟨.number, ".5", 5⟩, ""⟩] ∧
      evaluate ⟨1, 3⟩ "\t2\u00a0\n** 3\r*\u2003.5" = .ok 4 := by
  have hts : significant "2**3*.5" = .ok [⟨.number, "2", 0⟩, ⟨.power, "**", 1⟩, ⟨.number, "3", 3⟩,
      ⟨.star, "*", 4⟩, ⟨.number, ".5", 5⟩, .endAt 7] := by decide +kernel
  have hlead : AllBlank "\t".toList := by decide
  have hapart : Word.Apart [⟨⟨.number, "2", 0⟩, "\u00a0\n"⟩, ⟨⟨.power, "**", 1⟩, " "⟩,
      ⟨⟨.number, "3", 3⟩, "\r"⟩, ⟨⟨.star, "*", 4⟩, "\u2003"⟩, ⟨⟨.number, ".5", 5⟩, ""⟩] := by
    decide
  have hvalue : evaluate ⟨1, 3⟩ "2**3*.5" = .ok 4 := by decide +kernel
  exact ⟨hts, hlead, hapart, (((evaluate_respaced hts rfl hlead hapart).2 ⟨1, 3⟩).1 4).2 hvalue⟩

end Expression

end RatExpr
