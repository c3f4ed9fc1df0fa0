import Mathlib.Data.List.Basic
import RatExpr.Proofs.Grammar.Alignment
import RatExpr.Proofs.Token.Delimiter

set_option autoImplicit false

/-! # Texts joined by a delimiter

Two texts with a delimiter between them have the tokens of both, the delimiter between them, and
those of the second text as far on as it starts (`all_append_delimiter`). If the delimiter is legal,
all tokens are legal where those of both texts are; otherwise the error is that of the first text
that has one (`significant_append_delimiter`). The main statement is `splits_at_delimiter`.
-/

namespace RatExpr.Token

/-! ## All tokens -/

/-- **The tokens of joined texts** are those of the first one, but its end, the delimiter, and those
of the second one, further on. -/
theorem all_append_delimiter (a b : String) {d : Char} (hd : IsDelimiter d) :
    all (a ++ String.singleton d ++ b) =
      pieces 0 a.toList ++ ⟨Kind.ofChar d, String.singleton d, a.length⟩ ::
        (all b).map (shift (a.length + 1)) := by
  have htext : (a ++ String.singleton d ++ b).toList = a.toList ++ d :: b.toList := by
    simp
  have hlength : (a ++ String.singleton d ++ b).length = b.length + (a.length + 1) := by
    simp
    omega
  have hshift : pieces (a.length + 1) b.toList = (pieces 0 b.toList).map (shift (a.length + 1)) := by
    rw [← pieces_shift, Nat.zero_add]
  calc all (a ++ String.singleton d ++ b)
      = pieces 0 (a.toList ++ d :: b.toList) ++ [endAt (b.length + (a.length + 1))] := by
        rw [all_eq_pieces, htext, hlength]
    _ = pieces 0 a.toList ++ ⟨Kind.ofChar d, String.singleton d, a.length⟩ ::
          (pieces (a.length + 1) b.toList ++ [endAt (b.length + (a.length + 1))]) := by
        rw [pieces_append_delimiter 0 _ _ hd, Nat.zero_add, String.length_toList,
          List.append_assoc, List.cons_append]
        rfl
    _ = pieces 0 a.toList ++ ⟨Kind.ofChar d, String.singleton d, a.length⟩ ::
          (all b).map (shift (a.length + 1)) := by
        rw [hshift, all_eq_pieces b, List.map_append]
        rfl

/-! ## Significant tokens -/

/-- The end is not illegal, so the first illegal token is among the others. -/
theorem find?_illegal_all (text : String) :
    ((all text).find? fun t => t.kind == .illegal) =
      (pieces 0 text.toList).find? fun t => t.kind == .illegal := by
  rw [all_eq_pieces, List.find?_append, List.find?_singleton]
  simp [endAt]

/-- **The significant tokens of joined texts** are those of both, if both have them. Otherwise the
error is that of the first text, or else that of the second one, further on. -/
theorem significant_append_delimiter (a b : String) {d : Char} (hd : IsDelimiter d)
    (hlegal : Kind.ofChar d ≠ .illegal) :
    significant (a ++ String.singleton d ++ b) = (do
      let us ← significant a
      let vs ← (significant b).mapError (EvalError.move (· + (a.length + 1)))
      return us.dropLast ++ ⟨Kind.ofChar d, String.singleton d, a.length⟩ ::
        vs.map (shift (a.length + 1))) := by
  have hfind : ((all (a ++ String.singleton d ++ b)).find? fun t => t.kind == .illegal) =
      ((pieces 0 a.toList).find? fun t => t.kind == .illegal).or
        (((all b).find? fun t => t.kind == .illegal).map (shift (a.length + 1))) := by
    rw [all_append_delimiter a b hd, List.find?_append,
      List.find?_cons_of_neg (by simpa using hlegal), List.find?_map]
    rfl
  have hfilter : ((all (a ++ String.singleton d ++ b)).filter fun t => t.kind != .space) =
      (((all a).filter fun t => t.kind != .space).dropLast) ++
        ⟨Kind.ofChar d, String.singleton d, a.length⟩ ::
          ((all b).filter fun t => t.kind != .space).map (shift (a.length + 1)) := by
    rw [all_append_delimiter a b hd, List.filter_append,
      List.filter_cons_of_pos (by simpa using ofChar_ne_space d), List.filter_map,
      filter_space_all a, List.dropLast_concat]
    rfl
  unfold significant
  rw [hfind, find?_illegal_all a, hfilter]
  -- the delimiter is legal, so the first illegal token is in one of the two texts
  cases (pieces 0 a.toList).find? fun t => t.kind == .illegal with
  | some t => rfl
  | none =>
      cases (all b).find? fun t => t.kind == .illegal with
      | some t => rfl
      | none => rfl

/-- **A text is split at its delimiters.** A character that is no blank, digit, point or star is a
token alone. The tokens before it are those of the text before it, but the end, and the tokens after
it are those of the text after it, as far on as that starts. If the character is a parenthesis or an
operator, the significant tokens are put together in the same way. There are such tokens exactly if
both texts have them; otherwise the error is that of the first text, or else that of the second one,
as far on as this starts. -/
theorem splits_at_delimiter (a b : String) {d : Char} (hd : IsDelimiter d) :
    (∃ us, all a = us ++ [endAt a.length] ∧
      all (a ++ String.singleton d ++ b) =
        us ++ ⟨Kind.ofChar d, String.singleton d, a.length⟩ ::
          (all b).map (shift (a.length + 1))) ∧
    (d ∈ ['(', ')', '+', '-', '/', '%'] →
      significant (a ++ String.singleton d ++ b) = (do
        let us ← significant a
        let vs ← (significant b).mapError (EvalError.move (· + (a.length + 1)))
        return us.dropLast ++ ⟨Kind.ofChar d, String.singleton d, a.length⟩ ::
          vs.map (shift (a.length + 1)))) := by
  refine ⟨⟨pieces 0 a.toList, all_eq_pieces a, all_append_delimiter a b hd⟩, fun hmem => ?_⟩
  have hlegal : Kind.ofChar d ≠ .illegal := by
    simp only [List.mem_cons, List.not_mem_nil, or_false] at hmem
    rcases hmem with rfl | rfl | rfl | rfl | rfl | rfl <;> decide
  exact significant_append_delimiter a b hd hlegal

/-- A parenthesis keeps two stars apart. The illegal piece after it is three characters further on
than in the second text by itself. -/
theorem splits_at_delimiter_parenthesis : IsDelimiter '(' ∧
    (∃ us, all "2*" = us ++ [endAt 2] ∧
      all "2*(*3." = us ++ [⟨.leftParen, "(", 2⟩, ⟨.star, "*", 3⟩, ⟨.illegal, "3.", 4⟩, endAt 6]) ∧
    significant "2*(*3." = .error (.illegalToken "3." 4) := by
  have htext : "2*" ++ String.singleton '(' ++ "*3." = "2*(*3." := by decide
  have hafter : (all "*3.").map (shift 3) =
      [⟨.star, "*", 3⟩, ⟨.illegal, "3.", 4⟩, endAt 6] := by
    decide +kernel
  obtain ⟨⟨us, hbefore, hall⟩, hsignificant⟩ :=
    splits_at_delimiter "2*" "*3." isDelimiter_leftParen
  rw [htext] at hall hsignificant
  refine ⟨isDelimiter_leftParen, ⟨us, hbefore, ?_⟩, ?_⟩
  · rw [← hafter]
    exact hall
  · exact (hsignificant (by decide)).trans (by decide +kernel)

end RatExpr.Token
