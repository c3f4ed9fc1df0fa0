import RatExpr.Proofs.Expression.Derivation
import RatExpr.Proofs.Number.Decimal
import RatExpr.Proofs.Token.Pieces

set_option autoImplicit false

/-! # Canonical texts are read back

The canonical text of a rational is an expression, and its value is that rational. Its
derivation is written down (`Canonical.tree`): a number, perhaps with a sign before it, and
perhaps divided by another number. The scanner hands out the tokens of that tree
(`Canonical.all_render`), and the tree is worth the rational (`Canonical.value_tree`) unless
there is no room for the sign.

Which texts are canonical is said without rendering anything (`Canonical.IsForm`). The main
statement, `Canonical.render_round_trip`, puts both directions together.
-/

namespace RatExpr

namespace Canonical

/-! ## The derivation of a canonical text -/

/-- The derivation of an integer at the start of a text. -/
def integerTree (n : Int) : Tree .unary :=
  if n < 0 then
    .signed ⟨.minus, "-", 0⟩ .negative (.unsigned (.number ⟨.number, n.natAbs.repr, 1⟩ rfl)) rfl
  else .unsigned (.number ⟨.number, n.natAbs.repr, 0⟩ rfl)

/-- The derivation of the canonical text of a rational. -/
def tree (v : Rat) : Tree .expression :=
  let numerator : Tree .term := .factor (.unraised (integerTree v.num))
  let slash := (integer v.num).length
  if v.den = 1 then .summand numerator
  else .summand (.product numerator ⟨.slash, "/", slash⟩ .div
    (.unraised (.unsigned (.number ⟨.number, v.den.repr, slash + 1⟩ rfl))) rfl)

theorem toList_integer (n : Int) :
    (integer n).toList = (if n < 0 then ['-'] else []) ++ Nat.toDigits 10 n.natAbs := by
  unfold integer
  split <;> simp

theorem toList_render (v : Rat) :
    (render v).toList = (integer v.num).toList ++
      if v.den = 1 then [] else '/' :: Nat.toDigits 10 v.den := by
  unfold render
  split <;> simp

/-- The digits of a number are handed out as one number. -/
theorem toList_toDigits (pos n : Nat) {rest : List Char} (hrest : Token.NumberOver rest) :
    (Scanner.reading pos (Nat.toDigits 10 n ++ rest)).toList =
      ⟨.number, n.repr, pos⟩ ::
        (Scanner.reading (pos + (Nat.toDigits 10 n).length) rest).toList :=
  Scanner.toList_digits pos Nat.toDigits_ne_nil
    (fun _ hc => Decimal.isDigit_of_mem_toDigits hc) hrest

/-- The tokens of an integer at the start of a text. -/
theorem toList_reading_integer (n : Int) {rest : List Char} (hrest : Token.NumberOver rest) :
    (Scanner.reading 0 ((integer n).toList ++ rest)).toList =
      (integerTree n).tokens ++ (Scanner.reading (integer n).length rest).toList := by
  rw [← String.length_toList, toList_integer, integerTree]
  by_cases hn : n < 0
  · simp only [hn, if_true, List.cons_append, List.nil_append, Tree.tokens, List.length_cons]
    rw [Scanner.toList_single 0 _ (by decide) (by decide) (by decide) (by decide),
      toList_toDigits _ _ hrest, Nat.zero_add, Nat.add_comm]
    rfl
  · simp only [hn, if_false, List.nil_append, Tree.tokens, List.cons_append]
    rw [toList_toDigits _ _ hrest, Nat.zero_add]

/-- **The tokens of a canonical text are those of its derivation.** -/
theorem all_render (v : Rat) :
    Token.all (render v) = (tree v).tokens ++ [.endAt (render v).length] := by
  rw [Token.all, Scanner.ofString, ← String.length_toList, toList_render, tree]
  by_cases hden : v.den = 1
  · simp only [hden, if_true]
    rw [toList_reading_integer _ Token.numberOver_nil, List.append_nil, String.length_toList]
    rw [Scanner.toList_reading_nil]
    rfl
  · -- the numerator ends before the slash, the denominator at the end
    simp only [hden, if_false]
    rw [toList_reading_integer _ (Token.numberOver_cons.2 ⟨by decide, by decide⟩),
      Scanner.toList_single _ _ (by decide) (by decide) (by decide) (by decide)]
    have hdigits := toList_toDigits ((integer v.num).length + 1) v.den Token.numberOver_nil
    rw [List.append_nil] at hdigits
    rw [hdigits, Scanner.toList_reading_nil, List.length_append, List.length_cons,
      String.length_toList]
    have hend : (integer v.num).length + 1 + (Nat.toDigits 10 v.den).length =
        (integer v.num).length + ((Nat.toDigits 10 v.den).length + 1) := by omega
    simp only [Tree.tokens, List.append_assoc, List.cons_append, List.nil_append, hend]
    rfl

/-! ## The value of a canonical text -/

theorem natCast_natAbs_of_nonneg {n : Int} (hn : ¬ n < 0) : (n.natAbs : Rat) = (n : Rat) := by
  rw [← Rat.intCast_natCast, Int.natAbs_of_nonneg (by omega)]

theorem neg_natCast_natAbs_of_neg {n : Int} (hn : n < 0) : -(n.natAbs : Rat) = (n : Rat) := by
  rw [← Rat.intCast_natCast, ← Rat.intCast_neg, Int.ofNat_natAbs_of_nonpos (by omega), Int.neg_neg]

theorem value_integerTree (limits : Limits) (room : Nat) (n : Int) :
    (integerTree n).value limits room =
      if n < 0 ∧ room = 0 then .error (.tooDeep limits.maxDepth 0) else .ok (n : Rat) := by
  unfold integerTree
  by_cases hn : n < 0
  · cases room with
    | zero => simp [hn, Tree.value, Tree.nestedValue]
    | succ room =>
        simp only [hn, if_true, Tree.value, Tree.nestedValue, Literal.evaluate_repr,
          Nat.add_one_ne_zero, and_false, if_false]
        exact congrArg Except.ok (neg_natCast_natAbs_of_neg hn)
  · simp only [hn, if_false, Tree.value, Literal.evaluate_repr, false_and]
    exact congrArg Except.ok (natCast_natAbs_of_nonneg hn)

/-- **The derivation of a canonical text is worth the rational,** if there is room for its
sign. -/
theorem value_tree (limits : Limits) (room : Nat) (v : Rat) :
    (tree v).value limits room =
      if v.num < 0 ∧ room = 0 then .error (.tooDeep limits.maxDepth 0) else .ok v := by
  unfold tree
  by_cases hden : v.den = 1
  · have hv : (v.num : Rat) = v := Rat.ext rfl hden.symm
    simp only [hden, if_true, Tree.value, value_integerTree, hv]
  · have hv : (v.num : Rat) / (v.den : Rat) = v := by rw [← Rat.mkRat_eq_div, Rat.mkRat_self]
    have hne : (v.den : Rat) ≠ 0 := fun h => v.den_nz (Rat.natCast_eq_zero_iff.1 h)
    simp only [hden, if_false, Tree.value, value_integerTree, Literal.evaluate_repr]
    by_cases hroom : v.num < 0 ∧ room = 0
    · simp only [if_pos hroom]
    · simp only [if_neg hroom, BinaryOp.combine, BinaryOp.apply, if_neg hne, hv]

/-- **A canonical text is read back.** -/
theorem evaluate_render (limits : Limits) (v : Rat) :
    Expression.evaluate limits (render v) =
      if v.num < 0 ∧ limits.maxDepth = 0 then .error (.tooDeep 0 0) else .ok v := by
  rw [Expression.evaluate_of_cut limits (Tree.cut_of_all (all_render v)), value_tree]
  by_cases hroom : v.num < 0 ∧ limits.maxDepth = 0
  · rw [if_pos hroom, if_pos hroom, hroom.2]
  · rw [if_neg hroom, if_neg hroom]

/-- There is room for the sign if any nesting is allowed, and a rational that is not negative needs
none. -/
theorem evaluate_render_of_room {limits : Limits} {v : Rat} (h : 1 ≤ limits.maxDepth ∨ 0 ≤ v) :
    Expression.evaluate limits (render v) = .ok v := by
  have hroom : ¬ (v.num < 0 ∧ limits.maxDepth = 0) := by
    rintro ⟨hneg, hdepth⟩
    rcases h with hdepth' | hnonneg
    · omega
    · have hnum := Rat.num_nonneg.2 hnonneg
      omega
  rw [evaluate_render, if_neg hroom]

/-! ## Which texts are canonical -/

/-- The canonical texts: zero, and decimal integers and fractions in lowest terms, without
leading zeros. -/
def IsForm (cs : List Char) : Prop :=
  cs = ['0'] ∨ ∃ sign num, (sign = [] ∨ sign = ['-']) ∧ Decimal.IsPositive num ∧
    (cs = sign ++ num ∨ ∃ den, cs = sign ++ num ++ '/' :: den ∧ Decimal.IsPositive den ∧
      2 ≤ Nat.ofDigitChars 10 den 0 ∧
      (Nat.ofDigitChars 10 num 0).Coprime (Nat.ofDigitChars 10 den 0))

theorem isForm_render (v : Rat) : IsForm (render v).toList := by
  rw [toList_render, toList_integer]
  by_cases hzero : v.num = 0
  · have hden : v.den = 1 := by
      have hreduced := v.reduced
      rw [hzero] at hreduced
      simpa using hreduced
    simp [hzero, hden, IsForm]
  · refine Or.inr ⟨if v.num < 0 then ['-'] else [], Nat.toDigits 10 v.num.natAbs, ?_,
      Decimal.isPositive_toDigits (by omega), ?_⟩
    · by_cases hneg : v.num < 0
      · simp [hneg]
      · simp [hneg]
    · by_cases hden : v.den = 1
      · exact Or.inl (by simp [hden])
      · have hpos := v.den_nz
        refine Or.inr ⟨Nat.toDigits 10 v.den, by simp [hden],
          Decimal.isPositive_toDigits (by omega), ?_, ?_⟩
        · rw [Nat.ofDigitChars_ten_toDigits]
          omega
        · rw [Nat.ofDigitChars_ten_toDigits, Nat.ofDigitChars_ten_toDigits]
          exact v.reduced

/-- A sign and digits without a leading zero are the text of an integer. -/
theorem exists_toList_integer {sign num : List Char} (hsign : sign = [] ∨ sign = ['-'])
    (hnum : Decimal.IsPositive num) :
    ∃ n : Int, (integer n).toList = sign ++ num ∧ n.natAbs = Nat.ofDigitChars 10 num 0 := by
  have hpos := Decimal.ofDigitChars_pos hnum
  rcases hsign with rfl | rfl
  · refine ⟨(Nat.ofDigitChars 10 num 0 : Nat), ?_, Int.natAbs_natCast _⟩
    rw [toList_integer, Int.natAbs_natCast, Decimal.toDigits_ofDigitChars hnum,
      if_neg (by omega)]
  · refine ⟨-(Nat.ofDigitChars 10 num 0 : Nat), ?_, by rw [Int.natAbs_neg, Int.natAbs_natCast]⟩
    rw [toList_integer, Int.natAbs_neg, Int.natAbs_natCast, Decimal.toDigits_ofDigitChars hnum,
      if_pos (by omega)]

theorem exists_render_of_isForm {s : String} (h : IsForm s.toList) : ∃ v, render v = s := by
  rcases h with hzero | ⟨sign, num, hsign, hnum, hs | ⟨den, hs, hden, htwo, hcoprime⟩⟩
  · refine ⟨0, String.toList_inj.1 ?_⟩
    rw [hzero]
    decide
  · obtain ⟨n, hn, -⟩ := exists_toList_integer hsign hnum
    refine ⟨(n : Rat), String.toList_inj.1 ?_⟩
    rw [render_intCast, hn, hs]
  · obtain ⟨n, hn, habs⟩ := exists_toList_integer hsign hnum
    refine ⟨⟨n, Nat.ofDigitChars 10 den 0, by omega, habs ▸ hcoprime⟩, String.toList_inj.1 ?_⟩
    rw [toList_render, hs]
    simp only [hn, Decimal.toDigits_ofDigitChars hden]
    rw [if_neg (by omega)]

/-- **Canonical texts and rationals are the same.** A canonical text is worth the rational it
was rendered from, under any limits if that is not negative, and otherwise under those with
room for a sign. The canonical texts are those of the form described, and each of them is the
text of its own value. -/
theorem render_round_trip :
    (∀ (v : Rat) (limits : Limits), 1 ≤ limits.maxDepth ∨ 0 ≤ v →
      Expression.evaluate limits (render v) = .ok v) ∧
    (∀ (v : Rat) (limits : Limits), limits.maxDepth = 0 → v < 0 →
      Expression.evaluate limits (render v) = .error (.tooDeep 0 0)) ∧
    (∀ s : String, (∃ v, render v = s) ↔ IsForm s.toList) ∧
    (∀ s : String, IsForm s.toList → ∃ v, Expression.evaluate {} s = .ok v ∧ render v = s) := by
  refine ⟨?_, ?_, ?_, ?_⟩
  · intro v limits h
    have hroom : ¬ (v.num < 0 ∧ limits.maxDepth = 0) := by
      rintro ⟨hneg, hdepth⟩
      rcases h with hdepth' | hnonneg
      · omega
      · have := Rat.num_nonneg.2 hnonneg
        omega
    rw [evaluate_render, if_neg hroom]
  · intro v limits hdepth hv
    have hneg : v.num < 0 := by
      rw [← Int.not_le, Rat.num_nonneg, Rat.not_le]
      exact hv
    rw [evaluate_render, if_pos ⟨hneg, hdepth⟩]
  · intro s
    constructor
    · rintro ⟨v, rfl⟩
      exact isForm_render v
    · exact exists_render_of_isForm
  · intro s hs
    obtain ⟨v, rfl⟩ := exists_render_of_isForm hs
    have hdepth : ¬ (v.num < 0 ∧ ({} : Limits).maxDepth = 0) := fun h => absurd h.2 (by decide)
    exact ⟨v, by rw [evaluate_render, if_neg hdepth], rfl⟩

end Canonical

end RatExpr
