import RatExpr.Text.Quoted

set_option autoImplicit false

/-! # Tokens

A token is a piece of the text of an expression: its kind, its characters, and the
position, counted in characters, at which it starts. The end of the text is a token of its
own, of no characters.

A token is shown by its kind and its quoted text; its position is not shown
(`display_congr`).
-/

namespace RatExpr

/-- The kinds of tokens. `power` is the two-character operator; `illegal` is a piece of text
that belongs to no expression. -/
inductive Token.Kind where
  | eof
  | space
  | number
  | leftParen
  | rightParen
  | plus
  | minus
  | star
  | slash
  | power
  | percent
  | illegal
  deriving DecidableEq, Repr

/-- The name under which a kind is shown. -/
def Token.Kind.name : Token.Kind → String
  | .eof => "FIN"
  | .space => "ESPACE"
  | .number => "NUM"
  | .leftParen => "LPAR"
  | .rightParen => "RPAR"
  | .plus => "PLUS"
  | .minus => "MINUS"
  | .star => "STAR"
  | .slash => "SLASH"
  | .power => "POW"
  | .percent => "PERCENT"
  | .illegal => "ILLEGAL"

/-- A piece of text with its kind and the position of its first character. -/
structure Token where
  kind : Token.Kind
  text : String
  pos : Nat
  deriving DecidableEq, Repr

namespace Token

/-- The end of a text of `pos` characters. -/
def endAt (pos : Nat) : Token := ⟨.eof, "", pos⟩

/-- The position just after the token. -/
def stop (t : Token) : Nat := t.pos + t.text.length

/-- A token as it is shown where the `plain` characters stand for themselves. -/
def displayBy (plain : Char → Bool) (t : Token) : String :=
  "Jeton(" ++ t.kind.name ++ ", " ++ Text.Quoted.quoteBy plain t.text ++ ")"

/-- A token as messages show it. -/
def display (t : Token) : String := t.displayBy Text.isPrintable

/-- The texts of the tokens, apart from the end, with one space between them. -/
def spaced (ts : List Token) : String :=
  " ".intercalate ((ts.filter fun t => t.kind != .eof).map text)

example : display ⟨.number, "12", 0⟩ = "Jeton(NUM, \"12\")" := by decide

/-- What is shown of a token depends on its kind and its text only. -/
theorem display_congr {s t : Token} (hkind : s.kind = t.kind) (htext : s.text = t.text) :
    s.display = t.display := by
  simp [display, displayBy, hkind, htext]

/-- **Different kinds have different names.** -/
theorem Kind.name_inj {j k : Kind} : j.name = k.name ↔ j = k := by
  cases j <;> cases k <;> simp [name]

end Token

end RatExpr
