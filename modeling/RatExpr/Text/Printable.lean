import RatExpr.Text.GraphemeExtend
import RatExpr.Text.Unassigned

set_option autoImplicit false

/-! # Printable characters

A character is printable when it has a shape of its own on a page: it is assigned, it is
no control, no format character and no separator but the plain space, and it is not drawn
onto the character before it. Only printable characters stand for themselves in a quoted
text. No character that could end a line is printable (`isPrintable_eq_false_of_mem`).
-/

namespace RatExpr.Text

/-- The code points of the general categories Cc and Cf (controls, format characters) and
Zl, Zp and Zs (separators), without the plain space. -/
def invisible : CodeRanges :=
  [(0x0, 0x1F), (0x7F, 0xA0), (0xAD, 0xAD), (0x600, 0x605), (0x61C, 0x61C), (0x6DD, 0x6DD),
   (0x70F, 0x70F), (0x890, 0x891), (0x8E2, 0x8E2), (0x1680, 0x1680), (0x180E, 0x180E),
   (0x2000, 0x200F), (0x2028, 0x202F), (0x205F, 0x2064), (0x2066, 0x206F), (0x3000, 0x3000),
   (0xFEFF, 0xFEFF), (0xFFF9, 0xFFFB), (0x110BD, 0x110BD), (0x110CD, 0x110CD), (0x13430, 0x1343F),
   (0x1BCA0, 0x1BCA3), (0x1D173, 0x1D17A), (0xE0001, 0xE0001), (0xE0020, 0xE007F)]

example : invisible.isSeparated = true := by decide

/-- Has the character a shape of its own? The printable ASCII characters need no table. -/
def isPrintable (c : Char) : Bool :=
  if c.toNat < 0x7F then 0x20 ≤ c.toNat
  else !(inRanges invisible c || inRanges unassigned c || inRanges graphemeExtend c)

/-- The printable ASCII characters are those from the space to the tilde. -/
theorem isPrintable_ascii {c : Char} (h : c.toNat < 0x7F) :
    isPrintable c = true ↔ 0x20 ≤ c.toNat := by
  simp [isPrintable, h]

/-- **An invisible character is not printable,** whatever the other tables hold. -/
theorem isPrintable_eq_false_of_mem {c : Char} (h : inRanges invisible c = true) :
    isPrintable c = false := by
  by_cases hc : c.toNat < 0x7F
  · obtain ⟨row, hrow, hlo, hhi⟩ := inRanges_iff.1 h
    have hrows : ∀ row ∈ invisible, row.2 ≤ 0x1F ∨ 0x7F ≤ row.1 := by decide
    rcases hrows row hrow with hr | hr
    · simp [isPrintable, hc]; omega
    · omega
  · simp [isPrintable, hc, h]

end RatExpr.Text
