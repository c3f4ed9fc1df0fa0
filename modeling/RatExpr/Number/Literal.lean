import RatExpr.Error

set_option autoImplicit false

/-! # Decimal numbers

The exact value of a number as it is written: an integer part and, after the first point,
the digits of a fraction. The two parts without the point have to be an integer, which may
have a sign before its first digit and underscores after it; the value is that integer
divided by ten for each character of the fraction.
-/

namespace RatExpr.Literal

/-- The text before the first point and the text after it. -/
def splitPoint (cs : List Char) : List Char × List Char :=
  (cs.takeWhile (· != '.'), (cs.dropWhile (· != '.')).drop 1)

/-- A natural number: a digit, then digits and underscores. -/
def natural? : List Char → Option Nat
  | [] => none
  | d :: cs =>
      if d.isDigit && cs.all fun c => c.isDigit || c == '_' then
        some (Nat.ofDigitChars 10 ((d :: cs).filter Char.isDigit) 0)
      else none

/-- An integer: a natural number that may have a sign. -/
def integer? : List Char → Option Int
  | '-' :: cs => (natural? cs).map fun n => -(n : Int)
  | '+' :: cs => (natural? cs).map fun n => (n : Int)
  | cs => (natural? cs).map fun n => (n : Int)

/-- The longest fraction, in characters, that is read. -/
def maxFraction : Nat := 0xFFFFFFFF

/-- The value of a written number; none if the text is no number. -/
def value? (text : String) : Option Rat :=
  let (whole, fraction) := splitPoint text.toList
  match integer? (whole ++ fraction) with
  | some n =>
      if fraction.length ≤ maxFraction then some (mkRat n (Nat.pow 10 fraction.length)) else none
  | none => none

/-- The value of the number written at `pos`. -/
def evaluate (text : String) (pos : Nat) : Except EvalError Rat :=
  match value? text with
  | some v => .ok v
  | none => .error (.invalidNumber text pos)

/-- A text without a point is all before the point. -/
theorem splitPoint_of_not_mem {cs : List Char} (h : '.' ∉ cs) : splitPoint cs = (cs, []) := by
  have hall : ∀ c ∈ cs, (c != '.') = true := by
    intro c hc
    simp only [bne_iff_ne, ne_eq]
    exact fun hdot => h (hdot ▸ hc)
  have ht : (cs ++ []).takeWhile (· != '.') = cs ++ ([] : List Char).takeWhile (· != '.') :=
    List.takeWhile_append_of_pos hall
  have hd : (cs ++ []).dropWhile (· != '.') = ([] : List Char).dropWhile (· != '.') :=
    List.dropWhile_append_of_pos hall
  simp only [List.append_nil] at ht hd
  simp [splitPoint, ht, hd]

/-- The first point parts a text. -/
theorem splitPoint_append {whole fraction : List Char} (h : '.' ∉ whole) :
    splitPoint (whole ++ '.' :: fraction) = (whole, fraction) := by
  have hall : ∀ c ∈ whole, (c != '.') = true := by
    intro c hc
    simp only [bne_iff_ne, ne_eq]
    exact fun hdot => h (hdot ▸ hc)
  simp [splitPoint, List.takeWhile_append_of_pos hall, List.dropWhile_append_of_pos hall]

/-- **Digits are read in base ten.** -/
theorem natural?_of_digits {d : Char} {cs : List Char} (h : ∀ c ∈ d :: cs, c.isDigit = true) :
    natural? (d :: cs) = some (Nat.ofDigitChars 10 (d :: cs) 0) := by
  have hd : d.isDigit = true := h d (by simp)
  have hcs : ∀ c ∈ cs, c.isDigit = true := fun c hc => h c (by simp [hc])
  have hall : (cs.all fun c => c.isDigit || c == '_') = true := by
    simp only [List.all_eq_true]
    exact fun c hc => by simp [hcs c hc]
  simp only [natural?, hd, hall, Bool.and_self, if_true]
  rw [List.filter_eq_self.2 h]

example : splitPoint "1.2.3".toList = ("1".toList, "2.3".toList) := by decide

example : integer? "-1_0".toList = some (-10) := by decide

example : integer? "_10".toList = none := by decide

end RatExpr.Literal
