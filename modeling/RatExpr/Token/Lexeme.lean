import RatExpr.Text.Blank
import RatExpr.Token.Basic

set_option autoImplicit false

/-! # The first token of a text

`lexeme` cuts the first token off a text that is not empty. A token is as long as it can be:
a run of blanks, the operator of two stars, or a number with all its digits. A number is
written with ASCII digits; if it has a point, digits have to follow the point, and digits
may stand before it. A point with no digit after it is illegal, together with the digits
before it.

Main statements: nothing is lost (`lexeme_text_append_rest`) and something is taken
(`lexeme_text_ne_nil`), so the rest is shorter (`length_lexeme_rest_lt`).
-/

namespace RatExpr.Token

/-- The first token of a text, without its position, and the text after it. -/
structure Lexeme where
  kind : Kind
  text : List Char
  rest : List Char
  deriving DecidableEq, Repr

/-- The kind of a token of one character. -/
def Kind.ofChar : Char → Kind
  | '(' => .leftParen
  | ')' => .rightParen
  | '+' => .plus
  | '-' => .minus
  | '*' => .star
  | '/' => .slash
  | '%' => .percent
  | _ => .illegal

/-- A number whose digits before the point are `whole` and that goes on with `rest`. -/
def numberLexeme (whole rest : List Char) : Lexeme :=
  match rest with
  | '.' :: rest =>
      match rest.takeWhile Char.isDigit with
      | [] => ⟨.illegal, whole ++ ['.'], rest⟩
      | digits => ⟨.number, whole ++ '.' :: digits, rest.dropWhile Char.isDigit⟩
  | rest => ⟨.number, whole, rest⟩

/-- The first token of the text `c :: cs`. -/
def lexeme (c : Char) (cs : List Char) : Lexeme :=
  if Text.isBlank c then
    ⟨.space, c :: cs.takeWhile Text.isBlank, cs.dropWhile Text.isBlank⟩
  else if c.isDigit then
    numberLexeme (c :: cs.takeWhile Char.isDigit) (cs.dropWhile Char.isDigit)
  else match c, cs with
    | '.', cs => numberLexeme [] ('.' :: cs)
    | '*', '*' :: cs => ⟨.power, ['*', '*'], cs⟩
    | c, cs => ⟨Kind.ofChar c, [c], cs⟩

/-! ## The forms of a first token -/

/-- Blanks are taken together. -/
theorem lexeme_of_isBlank {c : Char} (cs : List Char) (hc : Text.isBlank c = true) :
    lexeme c cs = ⟨.space, c :: cs.takeWhile Text.isBlank, cs.dropWhile Text.isBlank⟩ := by
  simp [lexeme, hc]

/-- A digit starts a number with all the digits after it. -/
theorem lexeme_of_isDigit {c : Char} (cs : List Char) (hc : c.isDigit = true) :
    lexeme c cs =
      numberLexeme (c :: cs.takeWhile Char.isDigit) (cs.dropWhile Char.isDigit) := by
  simp [lexeme, hc, Text.isBlank_eq_false_of_isDigit hc]

/-- A point starts a number with no digits before it. -/
theorem lexeme_point (cs : List Char) : lexeme '.' cs = numberLexeme [] ('.' :: cs) := by
  have hb : Text.isBlank '.' = false := by decide
  have hd : '.'.isDigit = false := by decide
  simp [lexeme, hb, hd]

/-- **Any other character is a token alone,** but for a star before a star. -/
theorem lexeme_of_single {c : Char} (cs : List Char) (hb : Text.isBlank c = false)
    (hd : c.isDigit = false) (hp : c ≠ '.') (hs : c = '*' → cs.head? ≠ some '*') :
    lexeme c cs = ⟨Kind.ofChar c, [c], cs⟩ := by
  simp only [lexeme, hb, hd, Bool.false_eq_true, if_false]
  split
  · exact absurd rfl hp
  · exact absurd rfl (hs rfl)
  · rfl

example : lexeme '1' "2.5.6".toList = ⟨.number, "12.5".toList, ".6".toList⟩ := by decide

example : lexeme '1' "2.+".toList = ⟨.illegal, "12.".toList, "+".toList⟩ := by decide

example : lexeme '*' "**".toList = ⟨.power, "**".toList, "*".toList⟩ := by decide

/-! ## Nothing is lost -/

theorem numberLexeme_text_append_rest (whole rest : List Char) :
    (numberLexeme whole rest).text ++ (numberLexeme whole rest).rest = whole ++ rest := by
  unfold numberLexeme
  split
  · split
    · simp
    · simp [List.append_assoc]
  · rfl

/-- **The first token and the rest make up the text.** -/
theorem lexeme_text_append_rest (c : Char) (cs : List Char) :
    (lexeme c cs).text ++ (lexeme c cs).rest = c :: cs := by
  unfold lexeme
  split
  · simp
  · split
    · simp [numberLexeme_text_append_rest]
    · split
      · simp [numberLexeme_text_append_rest]
      · rfl
      · rfl

/-! ## Something is taken -/

theorem numberLexeme_text_ne_nil {whole rest : List Char}
    (h : whole ≠ [] ∨ rest.head? = some '.') : (numberLexeme whole rest).text ≠ [] := by
  unfold numberLexeme
  split
  · split <;> simp
  · rename_i hrest
    rcases h with h | h
    · exact h
    · cases rest with
      | nil => simp at h
      | cons d ds => simp at h; exact absurd (by rw [h]) (hrest ds)

/-- **The first token is not empty.** -/
theorem lexeme_text_ne_nil (c : Char) (cs : List Char) : (lexeme c cs).text ≠ [] := by
  unfold lexeme
  split
  · simp
  · split
    · exact numberLexeme_text_ne_nil (Or.inl (by simp))
    · split
      · exact numberLexeme_text_ne_nil (Or.inr rfl)
      · simp
      · simp

/-- What follows the first token is shorter than the text. -/
theorem length_lexeme_rest_lt (c : Char) (cs : List Char) :
    (lexeme c cs).rest.length < (c :: cs).length := by
  rw [← lexeme_text_append_rest c cs, List.length_append]
  have := List.length_pos_iff.2 (lexeme_text_ne_nil c cs)
  omega

end RatExpr.Token
