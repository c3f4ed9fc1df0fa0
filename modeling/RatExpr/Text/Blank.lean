import RatExpr.Text.CodeRange

set_option autoImplicit false

/-! # Blank characters

The characters with the Unicode property White_Space, and trimming a text of them.
This set is larger than the ASCII blanks of `Char.isWhitespace` and leaves out characters
that only look like blanks, such as the zero width space.
-/

namespace RatExpr.Text

/-- The code points with the property White_Space. -/
def whiteSpace : CodeRanges :=
  [(0x9, 0xD), (0x20, 0x20), (0x85, 0x85), (0xA0, 0xA0), (0x1680, 0x1680), (0x2000, 0x200A),
   (0x2028, 0x2029), (0x202F, 0x202F), (0x205F, 0x205F), (0x3000, 0x3000)]

example : whiteSpace.isSeparated = true := by decide

example : whiteSpace.size = 25 := by decide

/-- A blank: a character with the property White_Space. -/
def isBlank (c : Char) : Bool := inRanges whiteSpace c

/-- A text without the blanks at its two ends. -/
def trim (cs : List Char) : List Char :=
  ((cs.dropWhile isBlank).reverse.dropWhile isBlank).reverse

/-- No digit is a blank. -/
theorem isBlank_eq_false_of_isDigit {c : Char} (h : c.isDigit = true) : isBlank c = false := by
  have hd : 48 ≤ c.toNat ∧ c.toNat ≤ 57 := Char.isDigit_iff_toNat.1 h
  rw [Bool.eq_false_iff]
  intro hb
  obtain ⟨row, hrow, hlo, hhi⟩ := inRanges_iff.1 hb
  simp only [whiteSpace, List.mem_cons, List.not_mem_nil, or_false] at hrow
  rcases hrow with rfl | rfl | rfl | rfl | rfl | rfl | rfl | rfl | rfl | rfl <;>
    simp only at hlo hhi <;> omega

example : trim " 1\u00a0".toList = ['1'] := by decide

end RatExpr.Text
