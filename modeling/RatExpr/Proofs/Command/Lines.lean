import RatExpr.Proofs.Command.Run
import RatExpr.Proofs.Text.Line
import RatExpr.Proofs.Token.Place

set_option autoImplicit false

/-! # No text gets a line into the output

The arguments of a command are any texts, and they come back in what the command writes: a message
quotes fragments, tokens and whole texts, and a trace shows tokens as they are written. Neither can
end a line. What a message shows of a text is quoted (`EvalError.isLine_message`), and the tokens of
an expression hold digits and signs only (`Token.isLine_spaced`). So what a run writes can be taken
apart at the ends of lines, whatever characters are taken for these, and the lines that are found
are those that were meant (`Invocation.writes_lines`).
-/

namespace RatExpr

open Text (canBreak canBreak_of_isDigit isLine isLine_iff isLine_append isLine_intercalate
  isLine_repr isPrintable HasLines)
open Text.Quoted (quoteBy isLine_quote)

/-! ## Messages -/

theorem BinaryOp.isLine_symbol (op : BinaryOp) : isLine op.symbol = true := by
  cases op <;> decide

theorem Side.isLine_name (side : Side) : isLine side.name = true := by
  cases side <;> decide

theorem Expected.isLine_text (expected : Expected) : isLine expected.text = true := by
  cases expected <;> decide

theorem Token.isLine_display (t : Token) : isLine t.display = true := by
  have hname : isLine t.kind.name = true := by cases t.kind <;> decide
  have hquote : isLine (quoteBy isPrintable t.text) = true := isLine_quote t.text
  simp only [display, displayBy, isLine_append, hname, hquote]
  decide

/-- **The message of an error is a line,** and so are those of its causes, whatever texts they are
about. -/
theorem EvalError.isLine_message (e : EvalError) : isLine e.message = true := by
  have hnat (n : Nat) : isLine (toString n) = true := isLine_repr n
  have hstring (s : String) : toString s = s := rfl
  have hquote (s : String) : isLine (quoteBy isPrintable s) = true := isLine_quote s
  have hdisplay (t : Token) : isLine (t.displayBy isPrintable) = true := t.isLine_display
  unfold message messageBy
  -- what is left of a message without its parts are the words that are always the same
  cases e <;>
    simp only [hstring, hnat, isLine_append, hquote, hdisplay,
      BinaryOp.isLine_symbol, Side.isLine_name, Expected.isLine_text] <;>
    decide +kernel

/-! ## Traces -/

namespace Token

/-- A number is written with digits and perhaps a point. -/
theorem IsNumeral.canBreak_eq_false {cs : List Char} (h : IsNumeral cs) :
    ∀ c ∈ cs, canBreak c = false := by
  rcases h with ⟨-, hdigits⟩ | ⟨whole, digits, rfl, hwhole, -, hdigits⟩
  · exact fun c hc => canBreak_of_isDigit (hdigits c hc)
  · intro c hc
    rcases List.mem_append.1 hc with hc | hc
    · exact canBreak_of_isDigit (hwhole c hc)
    · rcases List.mem_cons.1 hc with rfl | hc
      · decide
      · exact canBreak_of_isDigit (hdigits c hc)

/-- No token of an expression can end a line. Blanks can, and illegal tokens can, but an expression
has neither. -/
theorem Kind.Spells.canBreak_eq_false {kind : Kind} {cs : List Char} (h : kind.Spells cs)
    (hspace : kind ≠ .space) (hillegal : kind ≠ .illegal) : ∀ c ∈ cs, canBreak c = false := by
  cases kind with
  | space => exact absurd rfl hspace
  | illegal => exact absurd rfl hillegal
  | number => exact IsNumeral.canBreak_eq_false h
  | eof =>
      rw [show cs = [] from h]
      exact List.forall_mem_nil _
  | power =>
      rw [show cs = ['*', '*'] from h]
      exact List.forall_mem_cons.2 ⟨by decide, List.forall_mem_singleton.2 (by decide)⟩
  | _ =>
      rw [show cs = [_] from h]
      exact List.forall_mem_singleton.2 (by decide)

theorem isLine_text_of_significant {text : String} {ts : List Token}
    (h : significant text = .ok ts) : ∀ t ∈ ts, isLine t.text = true := by
  obtain ⟨hlegal, rfl⟩ := significant_eq_ok_iff.1 h
  intro t ht
  obtain ⟨hall, hspace⟩ := List.mem_filter.1 ht
  have hspells := spells_of_mem_all hall
  exact isLine_iff.2 (hspells.canBreak_eq_false (by simpa using hspace) (hlegal t hall))

/-- **The tokens of a text are shown on one line,** however many lines the text has. -/
theorem isLine_spaced {text : String} {ts : List Token} (h : significant text = .ok ts) :
    isLine (spaced ts) = true := by
  refine isLine_intercalate (by decide) fun s hs => ?_
  obtain ⟨t, ht, rfl⟩ := List.mem_map.1 hs
  exact isLine_text_of_significant h t (List.mem_of_mem_filter ht)

end Token

theorem Canonical.isLine_integer (n : Int) : isLine (integer n) = true := by
  have hsign : isLine "-" = true := by decide
  rw [integer]
  split
  · rw [isLine_append, hsign, isLine_repr]
    rfl
  · exact isLine_repr _

theorem Canonical.isLine_render (v : Rat) : isLine (render v) = true := by
  have hslash : isLine "/" = true := by decide
  rw [render]
  split
  · exact isLine_integer v.num
  · rw [isLine_append, isLine_append, isLine_integer, hslash, isLine_repr]
    rfl

namespace Command

open Token (significant)

theorem isLine_sideLine (side : Side) {text : String} {ts : List Token}
    (h : significant text = .ok ts) (v : Rat) : isLine (sideLine side ts v) = true := by
  simp only [sideLine, isLine_append, Side.isLine_name, Token.isLine_spaced h,
    Canonical.isLine_render]
  decide

theorem Shows.isLine {limits : Limits} {side : Side} {text : String} {lines : List String}
    (h : Shows limits side text lines) : ∀ line ∈ lines, isLine line = true := by
  cases h with
  | value hts hvalue => exact List.forall_mem_singleton.2 (isLine_sideLine side hts _)
  | failure herror => exact List.forall_mem_nil _

theorem Invocation.Traces.isLine {i : Invocation} {lines : List String} (h : i.Traces lines) :
    ∀ line ∈ lines, isLine line = true := by
  cases h with
  | silent h => exact List.forall_mem_nil _
  | traced h hnum hden => exact List.forall_mem_append.2 ⟨hnum.isLine, hden.isLine⟩

theorem isLine_of_mem_errorLines (e : EvalError) : ∀ line ∈ errorLines e, isLine line = true := by
  have herror : isLine "erreur : " = true := by decide
  have hcause : isLine "  cause : " = true := by decide
  refine List.forall_mem_cons.2 ⟨?_, fun line hline => ?_⟩
  · rw [isLine_append, herror, e.isLine_message]
    rfl
  · obtain ⟨cause, -, rfl⟩ := List.mem_map.1 hline
    rw [isLine_append, hcause, cause.isLine_message]
    rfl

/-! ## Written lines -/

theorem unlines_cons (line : String) (lines : List String) :
    unlines (line :: lines) = line ++ "\n" ++ unlines lines := by
  rw [unlines, List.map_cons, String.join_cons]
  rfl

/-- **Lines that are written are found again.** A line feed has to be taken for the end of a line;
what else is taken for one must not be in the lines. -/
theorem hasLines_unlines {ends : Char → Bool} (hfeed : ends '\n' = true) {lines : List String}
    (h : ∀ line ∈ lines, ∀ c ∈ line.toList, ends c = false) :
    HasLines ends (unlines lines) lines := by
  unfold HasLines
  induction lines with
  | nil => exact List.splitOnP_nil
  | cons line lines ih =>
      obtain ⟨hline, hlines⟩ := List.forall_mem_cons.1 h
      have hlist : (unlines (line :: lines)).toList =
          line.toList ++ '\n' :: (unlines lines).toList := by
        rw [unlines_cons, String.toList_append, String.toList_append, List.append_assoc]
        rfl
      rw [hlist, List.splitOnP_append_cons_of_forall_mem (by simpa using hline) _ hfeed, ih hlines]
      rfl

section Ends

variable {ends : Char → Bool} (hfeed : ends '\n' = true)
  (hends : ∀ c, ends c = true → canBreak c = true)

include hfeed hends

theorem hasLines_unlines_of_isLine {lines : List String}
    (h : ∀ line ∈ lines, isLine line = true) : HasLines ends (unlines lines) lines := by
  refine hasLines_unlines hfeed fun line hline c hc => Bool.eq_false_iff.2 fun hbreak => ?_
  have hplain : canBreak c = false := isLine_iff.1 (h line hline) c hc
  exact absurd (hplain.symm.trans (hends c hbreak)) (by decide)

/-- **What a run writes has the lines that were meant, whatever its texts are.** No message of an
error or of a cause, no line of a trace and no value has a character in it that could be taken for
the end of a line. So whichever of these characters are taken for one, if only the line feed is:
the output has the lines of the trace, then that of the value, and nothing more; and for an error
there is one line, and one for each of its causes. -/
theorem Invocation.writes_lines (i : Invocation) :
    (∀ line ∈ i.traceLines, isLine line = true) ∧
    (∀ r, i.pair.evaluate i.limits = .ok r →
      isLine (Canonical.render r) = true ∧
      HasLines ends i.run.stdout (i.traceLines ++ [Canonical.render r]) ∧
      HasLines ends i.run.stderr []) ∧
    ∀ e, i.pair.evaluate i.limits = .error e →
      (∀ cause ∈ e :: e.causes, isLine cause.message = true) ∧
      HasLines ends i.run.stdout i.traceLines ∧
      HasLines ends i.run.stderr (("erreur : " ++ e.message) ::
        e.causes.map fun cause => "  cause : " ++ cause.message) := by
  have htrace : ∀ line ∈ i.traceLines, isLine line = true := i.traces_traceLines.isLine
  refine ⟨htrace, fun r hr => ?_, fun e he => ?_⟩
  · have hvalue : ∀ line ∈ [Canonical.render r], isLine line = true :=
      List.forall_mem_singleton.2 (Canonical.isLine_render r)
    rw [run_of_ok hr]
    exact ⟨Canonical.isLine_render r,
      hasLines_unlines_of_isLine hfeed hends (List.forall_mem_append.2 ⟨htrace, hvalue⟩),
      List.splitOnP_nil⟩
  · rw [run_of_error he]
    exact ⟨fun cause _ => cause.isLine_message, hasLines_unlines_of_isLine hfeed hends htrace,
      hasLines_unlines_of_isLine hfeed hends (isLine_of_mem_errorLines e)⟩

end Ends

/-- The denominator has a separator of lines in it, which is quoted. Its error takes two lines. -/
theorem Invocation.writes_lines_separated :
    canBreak '\n' = true ∧ (∀ c, canBreak c = true → canBreak c = true) ∧
    (⟨"1\n+1", "2\u2028)"⟩ : Pair).evaluate {} =
      .error (.side .denominator "2\u2028)" (.trailingToken ⟨.rightParen, ")", 2⟩)) ∧
    ∃ line cause, HasLines canBreak (⟨⟨"1\n+1", "2\u2028)"⟩, {}, true⟩ : Invocation).run.stderr
      ["erreur : " ++ line, "  cause : " ++ cause] := by
  have hfeed : canBreak '\n' = true := by decide
  have hevaluate : (⟨"1\n+1", "2\u2028)"⟩ : Pair).evaluate {} =
      .error (.side .denominator "2\u2028)" (.trailingToken ⟨.rightParen, ")", 2⟩)) := by
    decide +kernel
  have hlines := writes_lines hfeed (fun _ h => h) ⟨⟨"1\n+1", "2\u2028)"⟩, {}, true⟩
  exact ⟨hfeed, fun _ h => h, hevaluate, _, _, (hlines.2.2 _ hevaluate).2.2⟩

end Command

end RatExpr
