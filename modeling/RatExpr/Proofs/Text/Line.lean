import RatExpr.Text.Quoted

set_option autoImplicit false

/-! # Texts of one line

What is read as the end of a line when a text is written out: a line feed, but elsewhere also
another control or a separator of lines or paragraphs (`canBreak`). A text with none of these is a
line wherever it is read (`isLine`). A text may be quoted before it is written, and then it is a line
whatever it was (`isLine_quote`); so are texts put together of lines (`isLine_append`). Lines that
are written one after the other, each ended by a line feed, are to be found again (`HasLines`).
-/

namespace RatExpr.Text

/-! ## Characters that end lines -/

/-- The code points of the general categories Cc (controls), Zl and Zp (the separators of lines and
of paragraphs). -/
def lineBreaking : CodeRanges := [(0x0, 0x1F), (0x7F, 0x9F), (0x2028, 0x2029)]

example : lineBreaking.isSeparated = true := by decide

example : lineBreaking.size = 67 := by decide

/-- May the character be read as the end of a line? -/
def canBreak (c : Char) : Bool := inRanges lineBreaking c

/-- A table whose rows lie in those of another holds no other characters. -/
theorem inRanges_of_rows {table table' : CodeRanges}
    (hrows : ∀ row ∈ table, ∃ row' ∈ table', row'.1 ≤ row.1 ∧ row.2 ≤ row'.2) {c : Char}
    (h : inRanges table c = true) : inRanges table' c = true := by
  obtain ⟨row, hrow, hlo, hhi⟩ := inRanges_iff.1 h
  obtain ⟨row', hrow', hlo', hhi'⟩ := hrows row hrow
  exact inRanges_iff.2 ⟨row', hrow', by omega, by omega⟩

/-- **A character with a shape of its own ends no line.** -/
theorem canBreak_of_isPrintable {c : Char} (h : isPrintable c = true) : canBreak c = false := by
  rw [Bool.eq_false_iff]
  intro hc
  have hinvisible : inRanges invisible c = true := inRanges_of_rows (by decide) hc
  rw [isPrintable_eq_false_of_mem hinvisible] at h
  exact absurd h (by decide)

theorem canBreak_of_isDigit {c : Char} (h : c.isDigit = true) : canBreak c = false := by
  have hd : 48 ≤ c.toNat ∧ c.toNat ≤ 57 := Char.isDigit_iff_toNat.1 h
  exact canBreak_of_isPrintable ((isPrintable_ascii (by omega)).2 (by omega))

/-! ## Lines -/

/-- Is the text one line, wherever it is read? -/
def isLine (s : String) : Bool := s.toList.all fun c => !canBreak c

theorem isLine_iff {s : String} : isLine s = true ↔ ∀ c ∈ s.toList, canBreak c = false := by
  simp only [isLine, List.all_eq_true, Bool.not_eq_true']

/-- **Lines put together are a line.** -/
@[simp] theorem isLine_append (s t : String) : isLine (s ++ t) = (isLine s && isLine t) := by
  simp only [isLine, String.toList_append, List.all_append]

theorem isLine_intercalate {separator : String} (hseparator : isLine separator = true)
    {parts : List String} (h : ∀ s ∈ parts, isLine s = true) :
    isLine (separator.intercalate parts) = true := by
  induction parts with
  | nil =>
      rw [String.intercalate_nil]
      decide
  | cons s parts ih =>
      obtain ⟨hs, hparts⟩ := List.forall_mem_cons.1 h
      by_cases hlast : parts = []
      · rw [hlast, String.intercalate_singleton]
        exact hs
      · rw [String.intercalate_cons_of_ne_nil hlast, isLine_append, isLine_append, hs, hseparator,
          ih hparts]
        rfl

@[simp] theorem isLine_repr (n : Nat) : isLine n.repr = true := by
  refine isLine_iff.2 fun c hc => ?_
  rw [Nat.toList_repr] at hc
  exact canBreak_of_isDigit (Nat.isDigit_of_mem_toDigits (by decide) (by decide) hc)

/-! ## Quoted texts -/

namespace Quoted

/-- An escape is a line, if the characters that stand for themselves end none. -/
theorem all_escape {plain : Char → Bool} (hplain : ∀ c, plain c = true → canBreak c = false)
    (c : Char) : (escape plain c).all (fun d => !canBreak d) = true := by
  unfold escape
  split
  · rfl
  · rfl
  · rfl
  · rfl
  · rfl
  · rfl
  · split
    · rename_i hc
      simp [hplain c hc]
    · have hdigits : (Nat.toDigits 16 c.toNat).all (fun d => !canBreak d) = true :=
        List.all_eq_true.2 (forall_mem_toDigits (by decide) c.toNat)
      rw [codePoint, List.all_append, List.all_append, hdigits]
      rfl

/-- **A quoted text is a line,** whatever the text is. -/
@[simp] theorem isLine_quote (s : String) : isLine (quote s) = true := by
  have hbody : (body isPrintable s.toList).all (fun d => !canBreak d) = true := by
    rw [body, List.all_flatMap, List.all_eq_true]
    exact fun c _ => all_escape (fun _ => canBreak_of_isPrintable) c
  rw [isLine, quote, toList_quoteBy, encode, List.all_cons, List.all_append, hbody]
  rfl

end Quoted

/-! ## Written lines -/

/-- The text consists of the lines: they are found in it by looking for the characters that end a
line, each of them is ended, and nothing comes after the last one. -/
def HasLines (ends : Char → Bool) (s : String) (lines : List String) : Prop :=
  s.toList.splitOnP ends = lines.map String.toList ++ [[]]

end RatExpr.Text
