import RatExpr.Token.Scanner

set_option autoImplicit false

/-! # Scanning a known beginning

What a scanner hands out first if the text that is left starts with a number or with a
character that is a token alone.
-/

namespace RatExpr

namespace Token

/-- The text does not go on with a number: no digit and no point comes first. -/
def NumberOver (cs : List Char) : Prop := ∀ c ∈ cs.head?, c.isDigit = false ∧ c ≠ '.'

theorem numberOver_nil : NumberOver [] := by simp [NumberOver]

theorem numberOver_cons {c : Char} {cs : List Char} :
    NumberOver (c :: cs) ↔ c.isDigit = false ∧ c ≠ '.' := by
  simp [NumberOver]

/-- Digits that a text does not go on after are a number. -/
theorem lexeme_digits {d : Char} {ds rest : List Char} (hds : ∀ c ∈ d :: ds, c.isDigit = true)
    (hrest : NumberOver rest) : lexeme d (ds ++ rest) = ⟨.number, d :: ds, rest⟩ := by
  have hpos : ∀ c ∈ ds, c.isDigit = true := fun c hc => hds c (by simp [hc])
  rw [lexeme_of_isDigit _ (hds d (by simp)), List.takeWhile_append_of_pos hpos,
    List.dropWhile_append_of_pos hpos]
  cases rest with
  | nil => simp [numberLexeme]
  | cons c cs =>
      obtain ⟨hdigit, hpoint⟩ := numberOver_cons.1 hrest
      simp only [List.takeWhile_cons, List.dropWhile_cons, hdigit, Bool.false_eq_true, if_false,
        List.append_nil]
      unfold numberLexeme
      split
      · rename_i heq
        exact absurd (List.cons.inj heq).1 hpoint
      · rfl

end Token

namespace Scanner

/-- **Digits are handed out as one number.** -/
theorem toList_digits (pos : Nat) {ds rest : List Char} (hne : ds ≠ [])
    (hds : ∀ c ∈ ds, c.isDigit = true) (hrest : Token.NumberOver rest) :
    (reading pos (ds ++ rest)).toList =
      ⟨.number, String.ofList ds, pos⟩ :: (reading (pos + ds.length) rest).toList := by
  cases ds with
  | nil => exact absurd rfl hne
  | cons d ds =>
      rw [List.cons_append, toList_reading_cons, Token.lexeme_digits hds hrest]

/-- A character that is no blank, digit, point or star is handed out alone. -/
theorem toList_single (pos : Nat) {c : Char} (rest : List Char) (hblank : Text.isBlank c = false)
    (hdigit : c.isDigit = false) (hpoint : c ≠ '.') (hstar : c ≠ '*') :
    (reading pos (c :: rest)).toList =
      ⟨Token.Kind.ofChar c, String.ofList [c], pos⟩ :: (reading (pos + 1) rest).toList := by
  rw [toList_reading_cons, Token.lexeme_of_single rest hblank hdigit hpoint (absurd · hstar)]
  rfl

end Scanner

end RatExpr
