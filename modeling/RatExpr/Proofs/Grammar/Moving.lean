import RatExpr.Proofs.Grammar.Alignment
import RatExpr.Proofs.Token.Delimiter

set_option autoImplicit false

/-! # Tokens at other positions

A parser does not look at where its tokens stand. If all positions are moved, however that is done,
it answers as before, with the positions in its errors moved along (`Parser.perform_move`). So
tokens of the same content lead to the same answer but for positions (`Parser.complete_congr`).

An end has to be among the tokens. Where it is missing, its position is taken from the last token,
text included, and is not moved with the others.
-/

namespace RatExpr

/-- Does a token say that the text is over? -/
def Token.HasEnd (ts : List Token) : Prop := ∃ t ∈ ts, t.kind = .eof

/-- Moved to one position, tokens are told by their content. -/
theorem Token.map_move_congr (pos : Nat) {ts ts' : List Token}
    (h : ts'.map content = ts.map content) :
    ts'.map (move fun _ => pos) = ts.map (move fun _ => pos) := by
  have hcontent : ∀ us : List Token,
      us.map (move fun _ => pos) = (us.map content).map fun c => ⟨c.1, c.2, pos⟩ := by
    intro us
    rw [List.map_map]
    rfl
  rw [hcontent, hcontent, h]

namespace Parser

/-- Tokens with an end among them are at the end, or go on to it, and so do the same tokens moved. -/
theorem moved_cases (ctx ctx' : Context) (f : Nat → Nat) {ts ts' : List Token}
    (h : Token.HasEnd ts ∧ ts' = ts.map (Token.move f)) :
    (AtEnd ts ∧ AtEnd ts' ∧ (ctx'.next ts').pos = f (ctx.next ts).pos) ∨
      ∃ t us us', ts = t :: us ∧ ts' = t.move f :: us' ∧
        Token.HasEnd us ∧ us' = us.map (Token.move f) := by
  obtain ⟨⟨e, he, hend⟩, rfl⟩ := h
  cases ts with
  | nil => exact absurd he List.not_mem_nil
  | cons t us =>
      by_cases ht : t.kind = .eof
      · exact Or.inl ⟨atEnd_cons.2 ht, atEnd_cons.2 ht, rfl⟩
      · have hus : e ∈ us := by
          rcases List.mem_cons.1 he with rfl | hus
          · exact absurd hend ht
          · exact hus
        exact Or.inr ⟨t, us, _, rfl, rfl, ⟨e, hus, hend⟩, rfl⟩

/-- Tokens with an end among them, and the same tokens moved. -/
def moveAlignment (limits : Limits) (endPos endPos' : Nat) (f : Nat → Nat) :
    Alignment ⟨limits, endPos⟩ ⟨limits, endPos'⟩ f where
  limits_eq := Eq.refl limits
  Aligned ts ts' := Token.HasEnd ts ∧ ts' = ts.map (Token.move f)
  Lost _ := False
  lost_of_suffix h _ := h
  cases h := Or.inr (moved_cases _ _ f h)

/-- **A call answers moved tokens as it answers the tokens,** and leaves the same ones, moved. -/
theorem perform_move (limits : Limits) (endPos endPos' : Nat) (f : Nat → Nat) (call : Call)
    {ts : List Token} (hts : Token.HasEnd ts) :
    let answer := perform ⟨⟨limits, endPos⟩, ts⟩ call
    let moved := perform ⟨⟨limits, endPos'⟩, ts.map (Token.move f)⟩ call
    moved.1 = moveOutcome f answer.1 ∧ Token.HasEnd answer.2.rest ∧
      moved.2.rest = answer.2.rest.map (Token.move f) := by
  have hstep := Alignment.perform_inStep (moveAlignment limits endPos endPos' f) call ⟨hts, rfl⟩
  obtain ⟨hvalue, hend, hrest⟩ := hstep.resolve_left id
  exact ⟨hvalue, hend, hrest⟩

/-- **Only the content of tokens counts,** but for the positions in an error. -/
theorem complete_congr (limits : Limits) (pos : Nat) {ts ts' : List Token} (hts : Token.HasEnd ts)
    (hts' : Token.HasEnd ts') (h : ts'.map Token.content = ts.map Token.content) :
    moveOutcome (fun _ => pos) (ofTokens limits ts').complete.1 =
      moveOutcome (fun _ => pos) (ofTokens limits ts).complete.1 := by
  -- both lists are moved to the same one
  have hmove := (perform_move limits (endOf ts) 0 (fun _ => pos) .complete hts).1
  have hmove' := (perform_move limits (endOf ts') 0 (fun _ => pos) .complete hts').1
  rw [Token.map_move_congr pos h] at hmove'
  exact hmove'.symm.trans hmove

end Parser

end RatExpr
