import RatExpr.Number.Literal

set_option autoImplicit false

/-! # Decimal digits

A positive number has one decimal text without a leading zero. `isPositive_toDigits` says that
its digits are such a text, `toDigits_ofDigitChars` that every such text is made of the digits
of the number that it is read as. A text of digits is also a number token, with that value
(`Literal.evaluate_digits`).
-/

namespace RatExpr

namespace Decimal

/-- Decimal digits of which the first is not zero. -/
def IsPositive (ds : List Char) : Prop :=
  (∀ c ∈ ds, c.isDigit = true) ∧ ∃ d rest, ds = d :: rest ∧ d ≠ '0'

/-- A digit is the digit of its value. -/
theorem digitChar_of_isDigit {c : Char} (hc : c.isDigit = true) :
    c.toNat - '0'.toNat < 10 ∧ Nat.digitChar (c.toNat - '0'.toNat) = c := by
  have hrange : 48 ≤ c.toNat ∧ c.toNat ≤ 57 := Char.isDigit_iff_toNat.1 hc
  have hzero : '0'.toNat = 48 := rfl
  have hall : ∀ k < 10, Nat.digitChar k = Char.ofNat (48 + k) := by decide
  refine ⟨by omega, ?_⟩
  rw [hall _ (by omega), hzero, show 48 + (c.toNat - 48) = c.toNat by omega, Char.ofNat_toNat]

/-- Digits read after a positive number are written after its digits. -/
theorem toDigits_ofDigitChars_of_pos {n : Nat} (hn : 0 < n) {ds : List Char}
    (hds : ∀ c ∈ ds, c.isDigit = true) :
    Nat.toDigits 10 (Nat.ofDigitChars 10 ds n) = Nat.toDigits 10 n ++ ds := by
  induction ds generalizing n with
  | nil => simp
  | cons c cs ih =>
      obtain ⟨hlt, hchar⟩ := digitChar_of_isDigit (hds c (by simp))
      calc Nat.toDigits 10 (Nat.ofDigitChars 10 (c :: cs) n)
          = Nat.toDigits 10 (Nat.ofDigitChars 10 cs (10 * n + (c.toNat - '0'.toNat))) := by
            rw [Nat.ofDigitChars_cons]
        _ = Nat.toDigits 10 (10 * n + (c.toNat - '0'.toNat)) ++ cs :=
            ih (by omega) (fun d hd => hds d (by simp [hd]))
        _ = Nat.toDigits 10 n ++ Nat.toDigits 10 (c.toNat - '0'.toNat) ++ cs := by
            rw [Nat.toDigits_append_toDigits (by decide) hn hlt]
        _ = Nat.toDigits 10 n ++ c :: cs := by
            rw [Nat.toDigits_of_lt_base hlt, hchar, List.append_assoc]
            rfl

/-- **A text without a leading zero is made of the digits of its number.** -/
theorem toDigits_ofDigitChars {ds : List Char} (h : IsPositive ds) :
    Nat.toDigits 10 (Nat.ofDigitChars 10 ds 0) = ds := by
  obtain ⟨hds, d, rest, rfl, hd⟩ := h
  obtain ⟨hlt, hchar⟩ := digitChar_of_isDigit (hds d (by simp))
  have hpos : 0 < d.toNat - '0'.toNat := by
    rcases Nat.eq_zero_or_pos (d.toNat - '0'.toNat) with hzero | hpos
    · rw [hzero] at hchar
      exact absurd hchar.symm hd
    · exact hpos
  rw [Nat.ofDigitChars_cons, Nat.mul_zero, Nat.zero_add,
    toDigits_ofDigitChars_of_pos hpos (fun c hc => hds c (by simp [hc])),
    Nat.toDigits_of_lt_base hlt, hchar]
  rfl

/-- The number of a text without a leading zero is positive. -/
theorem ofDigitChars_pos {ds : List Char} (h : IsPositive ds) : 0 < Nat.ofDigitChars 10 ds 0 := by
  rcases Nat.eq_zero_or_pos (Nat.ofDigitChars 10 ds 0) with hzero | hpos
  · have hds := toDigits_ofDigitChars h
    obtain ⟨-, d, rest, rfl, hd⟩ := h
    rw [hzero, Nat.toDigits_zero, List.cons.injEq] at hds
    exact absurd hds.1.symm hd
  · exact hpos

theorem isDigit_of_mem_toDigits {n : Nat} {c : Char} (hc : c ∈ Nat.toDigits 10 n) :
    c.isDigit = true :=
  Nat.isDigit_of_mem_toDigits (by decide) (by decide) hc

/-- **The digits of a positive number have no leading zero.** -/
theorem isPositive_toDigits {n : Nat} (hn : 0 < n) : IsPositive (Nat.toDigits 10 n) := by
  refine ⟨fun c hc => isDigit_of_mem_toDigits hc, ?_⟩
  induction n using Nat.strongRecOn with
  | _ n ih =>
      by_cases hlt : n < 10
      · refine ⟨Nat.digitChar n, [], Nat.toDigits_of_lt_base hlt, ?_⟩
        have hall : ∀ k < 10, 0 < k → Nat.digitChar k ≠ '0' := by decide
        exact hall n hlt hn
      · obtain ⟨d, rest, hdigits, hd⟩ := ih (n / 10) (by omega) (by omega)
        refine ⟨d, rest ++ [Nat.digitChar (n % 10)], ?_, hd⟩
        rw [Nat.toDigits_of_base_le (by decide) (by omega), hdigits]
        rfl

end Decimal

namespace Literal

/-- A digit is no sign. -/
theorem integer?_cons_of_isDigit {d : Char} (hd : d.isDigit = true) {ds : List Char} {n : Nat}
    (hn : natural? (d :: ds) = some n) : integer? (d :: ds) = some (n : Int) := by
  unfold integer?
  split
  · rename_i hsign
    rw [(List.cons.inj hsign).1] at hd
    exact absurd hd (by decide)
  · rename_i hsign
    rw [(List.cons.inj hsign).1] at hd
    exact absurd hd (by decide)
  · rw [hn]
    rfl

/-- Digits are an integer. -/
theorem integer?_of_digits {ds : List Char} (hne : ds ≠ []) (hds : ∀ c ∈ ds, c.isDigit = true) :
    integer? ds = some (Nat.ofDigitChars 10 ds 0 : Int) := by
  cases ds with
  | nil => exact absurd rfl hne
  | cons d ds => exact integer?_cons_of_isDigit (hds d (by simp)) (natural?_of_digits hds)

/-- **A number token of digits is worth the number that they write.** -/
theorem evaluate_digits {ds : List Char} (hne : ds ≠ []) (hds : ∀ c ∈ ds, c.isDigit = true)
    (pos : Nat) :
    evaluate (String.ofList ds) pos = .ok ((Nat.ofDigitChars 10 ds 0 : Nat) : Rat) := by
  have hpoint : '.' ∉ ds := fun hmem => absurd (hds '.' hmem) (by decide)
  have hvalue : value? (String.ofList ds) = some ((Nat.ofDigitChars 10 ds 0 : Nat) : Rat) := by
    simp only [value?, String.toList_ofList, splitPoint_of_not_mem hpoint, List.append_nil,
      integer?_of_digits hne hds, List.length_nil, Nat.zero_le, if_true]
    exact congrArg some (Rat.mkRat_self (Nat.ofDigitChars 10 ds 0 : Rat))
  simp only [evaluate, hvalue]

theorem evaluate_repr (n pos : Nat) : evaluate n.repr pos = .ok (n : Rat) := by
  rw [Nat.repr_eq_ofList_toDigits, evaluate_digits Nat.toDigits_ne_nil
    (fun c hc => Decimal.isDigit_of_mem_toDigits hc), Nat.ofDigitChars_ten_toDigits]

end Literal

end RatExpr
