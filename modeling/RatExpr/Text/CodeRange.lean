set_option autoImplicit false

/-! # Tables of code point ranges

A property of characters is given by a table of closed ranges of code points.
`Text.inRanges` looks a character up in such a table, and `inRanges_iff` says what
the answer means: some row of the table holds the character.
-/

namespace RatExpr.Text

/-- A table of closed ranges of code points: the row `(lo, hi)` holds `lo`, `hi` and
everything between them. -/
abbrev CodeRanges := List (Nat × Nat)

/-- The number of code points that the rows hold, each row counted by itself. -/
def CodeRanges.size (table : CodeRanges) : Nat :=
  table.foldl (fun count row => count + (row.2 + 1 - row.1)) 0

/-- Do the rows stand in order, with a gap between each two? Then no code point is counted
twice by `CodeRanges.size`, and no two rows could be written as one. -/
def CodeRanges.isSeparated (table : CodeRanges) : Bool :=
  (table.zip table.tail).all fun rows => rows.1.2 + 1 < rows.2.1

/-- Is the code point of `c` in one of the ranges of the table? -/
def inRanges (table : CodeRanges) (c : Char) : Bool :=
  table.any fun row => row.1 ≤ c.toNat && c.toNat ≤ row.2

/-- **A character is in a table exactly when some row holds it.** -/
theorem inRanges_iff {table : CodeRanges} {c : Char} :
    inRanges table c = true ↔ ∃ row ∈ table, row.1 ≤ c.toNat ∧ c.toNat ≤ row.2 := by
  simp [inRanges]

end RatExpr.Text
