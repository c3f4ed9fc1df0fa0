import Mathlib.Algebra.BigOperators.Fin
import Mathlib.Algebra.Field.Rat

set_option autoImplicit false

/-! # Digits by their places

The value of decimal digits as a sum: each digit counts as often as its place says, and each place
is worth a tenth of the one before it (`positional`). The places before a point go down to one, and
those after it start with a tenth. Reading digits one after the other comes to the same
(`natCast_ofDigitChars`), also where a point is left out and made up for by a division
(`ofDigitChars_div_pow`). Zeros count nothing at any place, so that they can stand before the first
digit and after the last one (`wholeValue_zeros_append`, `fractionValue_append_zeros`).
-/

namespace RatExpr.Decimal

/-- What a digit counts. -/
def digit (c : Char) : Nat := c.toNat - '0'.toNat

/-- The digits at their places, of which the first is worth `10 ^ top`. -/
def positional (top : Int) (ds : List Char) : Rat :=
  ∑ k : Fin ds.length, (digit ds[k] : Rat) * (10 : Rat) ^ (top - (k : Nat))

/-- The value of the digits before a point: the last of them counts ones. -/
def wholeValue (ds : List Char) : Rat := positional (ds.length - 1) ds

/-- The value of the digits after a point: the first of them counts tenths. -/
def fractionValue (ds : List Char) : Rat := positional (-1) ds

/-! ## Places -/

@[simp] theorem positional_nil (top : Int) : positional top [] = 0 := Fin.sum_univ_zero _

/-- After the first digit, the places start with the next one. -/
theorem positional_cons (top : Int) (d : Char) (ds : List Char) :
    positional top (d :: ds) = digit d * (10 : Rat) ^ top + positional (top - 1) ds := by
  show ∑ k : Fin (ds.length + 1), (digit (d :: ds)[k] : Rat) * (10 : Rat) ^ (top - (k : Nat)) = _
  rw [Fin.sum_univ_succ]
  have hplace : ∀ k : Nat, top - (k + 1 : Nat) = top - 1 - (k : Nat) := by
    intro k
    omega
  simp only [Fin.getElem_fin, Fin.val_zero, List.getElem_cons_zero, Nat.cast_zero, sub_zero,
    Fin.val_succ, List.getElem_cons_succ, hplace]
  rfl

/-- Digits go on at the place after the digits before them. -/
theorem positional_append (top : Int) (ds es : List Char) :
    positional top (ds ++ es) = positional top ds + positional (top - ds.length) es := by
  induction ds generalizing top with
  | nil => simp
  | cons d ds ih =>
      have hplace : top - 1 - (ds.length : Int) = top - ((d :: ds).length : Int) := by
        rw [List.length_cons, Nat.cast_add, Nat.cast_one]
        omega
      rw [List.cons_append, positional_cons, positional_cons, ih, hplace, add_assoc]

/-- At places that are all `k` higher, digits are worth `10 ^ k` times as much. -/
theorem positional_add (top : Int) (k : Nat) (ds : List Char) :
    positional (top + k) ds = positional top ds * 10 ^ k := by
  induction ds generalizing top with
  | nil => simp
  | cons d ds ih =>
      have hten : (10 : Rat) ≠ 0 := by decide
      have hplace : top + k - 1 = top - 1 + k := by omega
      calc positional (top + k) (d :: ds)
          = digit d * (10 : Rat) ^ (top + k) + positional (top - 1 + k) ds := by
            rw [positional_cons, hplace]
        _ = digit d * ((10 : Rat) ^ top * 10 ^ k) + positional (top - 1) ds * 10 ^ k := by
            rw [zpow_add₀ hten, zpow_natCast, ih]
        _ = positional top (d :: ds) * 10 ^ k := by
            rw [positional_cons, add_mul, mul_assoc]

/-- **Zeros count nothing,** at whatever places. -/
theorem positional_zeros (top : Int) (n : Nat) : positional top (List.replicate n '0') = 0 := by
  induction n generalizing top with
  | zero => exact positional_nil top
  | succ n ih =>
      have hzero : digit '0' = 0 := rfl
      rw [List.replicate_succ, positional_cons, ih, hzero, Nat.cast_zero, zero_mul, add_zero]

/-! ## Zeros -/

theorem wholeValue_zeros_append (n : Nat) (ds : List Char) :
    wholeValue (List.replicate n '0' ++ ds) = wholeValue ds := by
  have hplace : ((List.replicate n '0' ++ ds).length : Int) - 1 - (List.replicate n '0').length =
      ds.length - 1 := by
    rw [List.length_append, Nat.cast_add]
    omega
  rw [wholeValue, positional_append, positional_zeros, hplace, zero_add]
  rfl

theorem fractionValue_append_zeros (ds : List Char) (n : Nat) :
    fractionValue (ds ++ List.replicate n '0') = fractionValue ds := by
  rw [fractionValue, positional_append, positional_zeros, add_zero]
  rfl

/-! ## Reading digits -/

/-- **Digits are read as the sum of what they count.** -/
theorem natCast_ofDigitChars (ds : List Char) :
    ((Nat.ofDigitChars 10 ds 0 : Nat) : Rat) = wholeValue ds := by
  induction ds with
  | nil => rfl
  | cons d ds ih =>
      have hplace : ((d :: ds).length : Int) - 1 = (ds.length : Nat) := by
        rw [List.length_cons, Nat.cast_add, Nat.cast_one]
        omega
      have hfirst : Nat.ofDigitChars 10 (d :: ds) 0 =
          10 ^ ds.length * digit d + Nat.ofDigitChars 10 ds 0 := by
        rw [Nat.ofDigitChars_cons, Nat.ofDigitChars_eq_ofDigitChars_zero, Nat.mul_zero,
          Nat.zero_add]
        rfl
      rw [hfirst, wholeValue, hplace, positional_cons, zpow_natCast]
      push_cast
      rw [ih, mul_comm]
      rfl

/-- **Digits around a point** are read as one number, which is then divided by ten for each place
after the point. -/
theorem ofDigitChars_div_pow (whole fraction : List Char) :
    ((Nat.ofDigitChars 10 (whole ++ fraction) 0 : Nat) : Rat) / 10 ^ fraction.length =
      wholeValue whole + fractionValue fraction := by
  have hten : (10 : Rat) ^ fraction.length ≠ 0 := pow_ne_zero _ (by decide)
  have hplace : ((whole ++ fraction).length : Int) - 1 =
      (whole.length - 1 : Int) + (fraction.length : Nat) := by
    rw [List.length_append, Nat.cast_add]
    omega
  have hpoint : (whole.length - 1 : Int) - whole.length = -1 := by omega
  rw [natCast_ofDigitChars, wholeValue, hplace, positional_add, mul_div_assoc, div_self hten,
    mul_one, positional_append, hpoint]
  rfl

example : wholeValue "12".toList + fractionValue "50".toList = 25 / 2 := by decide +kernel

end RatExpr.Decimal
