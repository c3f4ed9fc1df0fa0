import RatExpr.Proofs.Number.Decimal
import RatExpr.Proofs.Number.Fault
import RatExpr.Proofs.Number.Positional

set_option autoImplicit false

/-! # Written numbers

Which texts are worth a number, and which number, said without reading them. A text is parted at
its first point (`Parts`); its parts without the point have to write an integer (`Writes`), which
has a sign or none, a digit, and then digits and underscores; and every byte after the point stands
for a tenth (`Denotes`). That is what the value of a text is (`value?_eq_some_iff`). If there are
only digits around the point, it is the sum of what the digits count at their places
(`IsDecimal.denotes`).
-/

namespace RatExpr.Literal

open Decimal (wholeValue fractionValue ofDigitChars_div_pow natCast_ofDigitChars)

/-! ## The point -/

/-- The text before the first point and the text after it; nothing is after a point that is
missing. -/
inductive Parts : List Char → List Char → List Char → Prop
  | pointed {whole fraction : List Char} (h : '.' ∉ whole) :
      Parts (whole ++ '.' :: fraction) whole fraction
  | plain {whole : List Char} (h : '.' ∉ whole) : Parts whole whole []

theorem splitPoint_eq_iff {cs whole fraction : List Char} :
    splitPoint cs = (whole, fraction) ↔ Parts cs whole fraction := by
  constructor
  · intro h
    by_cases hpoint : '.' ∈ cs
    · obtain ⟨before, after, rfl, hbefore⟩ := List.eq_append_cons_of_mem hpoint
      rw [splitPoint_append hbefore] at h
      obtain ⟨rfl, rfl⟩ := Prod.mk.inj h
      exact .pointed hbefore
    · rw [splitPoint_of_not_mem hpoint] at h
      obtain ⟨rfl, rfl⟩ := Prod.mk.inj h
      exact .plain hpoint
  · rintro (h | h)
    · exact splitPoint_append h
    · exact splitPoint_of_not_mem h

/-! ## Integers -/

/-- A digit, then digits and underscores. -/
def IsNatural (cs : List Char) : Prop :=
  ∃ d ds, cs = d :: ds ∧ d.isDigit = true ∧ ∀ c ∈ ds, c.isDigit = true ∨ c = '_'

/-- The value of digits with underscores between them, which count nothing. -/
def naturalValue (cs : List Char) : Rat := wholeValue (cs.filter (· != '_'))

/-- The texts of integers, with their values. -/
inductive Writes : List Char → Rat → Prop
  | unsigned {cs : List Char} (h : IsNatural cs) : Writes cs (naturalValue cs)
  | plus {cs : List Char} (h : IsNatural cs) : Writes ('+' :: cs) (naturalValue cs)
  | minus {cs : List Char} (h : IsNatural cs) : Writes ('-' :: cs) (-naturalValue cs)

theorem ne_underscore_of_isDigit {c : Char} (hc : c.isDigit = true) : c ≠ '_' := by
  rintro rfl
  exact absurd hc (by decide)

theorem IsNatural.digit_or_underscore {cs : List Char} (h : IsNatural cs) :
    ∀ c ∈ cs, c.isDigit = true ∨ c = '_' := by
  obtain ⟨d, ds, rfl, hd, hds⟩ := h
  exact List.forall_mem_cons.2 ⟨Or.inl hd, hds⟩

theorem isNatural_of_digits {cs : List Char} (hne : cs ≠ []) (hcs : ∀ c ∈ cs, c.isDigit = true) :
    IsNatural cs := by
  obtain ⟨d, ds, rfl⟩ := List.exists_cons_of_ne_nil hne
  obtain ⟨hd, hds⟩ := List.forall_mem_cons.1 hcs
  exact ⟨d, ds, rfl, hd, fun c hc => Or.inl (hds c hc)⟩

/-- Leaving out the underscores leaves the digits. -/
theorem IsNatural.filter_isDigit {cs : List Char} (h : IsNatural cs) :
    cs.filter Char.isDigit = cs.filter (· != '_') := by
  refine List.filter_congr fun c hc => ?_
  rcases h.digit_or_underscore c hc with hdigit | rfl
  · rw [hdigit, eq_comm, bne_iff_ne]
    exact ne_underscore_of_isDigit hdigit
  · rfl

/-- **Natural numbers are read as they are written.** -/
theorem IsNatural.exists_natural? {cs : List Char} (h : IsNatural cs) :
    ∃ n : Nat, natural? cs = some n ∧ (n : Rat) = naturalValue cs := by
  refine ⟨Nat.ofDigitChars 10 (cs.filter (· != '_')) 0, ?_, natCast_ofDigitChars _⟩
  rw [← h.filter_isDigit]
  obtain ⟨d, ds, rfl, hd, hds⟩ := h
  have hall : (ds.all fun c => c.isDigit || c == '_') = true := by
    simpa only [List.all_eq_true, Bool.or_eq_true, beq_iff_eq] using hds
  simp only [natural?, hd, hall, Bool.and_self, if_true]

/-- Nothing else is read as a natural number. -/
theorem isNatural_of_natural? {cs : List Char} {n : Nat} (h : natural? cs = some n) :
    IsNatural cs := by
  cases cs with
  | nil => simp [natural?] at h
  | cons d ds =>
      simp only [natural?, Option.ite_none_right_eq_some, Bool.and_eq_true, List.all_eq_true,
        Bool.or_eq_true, beq_iff_eq] at h
      exact ⟨d, ds, rfl, h.1⟩

/-- **Integers are read as they are written.** -/
theorem writes_iff {cs : List Char} {v : Rat} :
    Writes cs v ↔ ∃ n : Int, integer? cs = some n ∧ (n : Rat) = v := by
  constructor
  · intro h
    cases h with
    | unsigned h =>
        obtain ⟨n, hn, hvalue⟩ := h.exists_natural?
        obtain ⟨d, ds, rfl, hd, -⟩ := h
        exact ⟨n, integer?_cons_of_isDigit hd hn, hvalue⟩
    | plus h =>
        obtain ⟨n, hn, hvalue⟩ := h.exists_natural?
        exact ⟨n, by simp [integer?, hn], hvalue⟩
    | minus h =>
        obtain ⟨n, hn, hvalue⟩ := h.exists_natural?
        exact ⟨-n, by simp [integer?, hn], by rw [Int.cast_neg, Int.cast_natCast, hvalue]⟩
  · rintro ⟨n, hn, rfl⟩
    unfold integer? at hn
    split at hn
    all_goals
      obtain ⟨i, hi, rfl⟩ := Option.map_eq_some_iff.1 hn
      obtain ⟨k, hk, hcast⟩ := Option.bind_eq_some_iff.1 hi
      obtain rfl := Option.some.inj hcast
      have hcs := isNatural_of_natural? hk
      obtain ⟨k', hk', hvalue⟩ := hcs.exists_natural?
      obtain rfl := Option.some.inj (hk.symm.trans hk')
    · rw [Int.cast_neg, Int.cast_natCast, hvalue]
      exact .minus hcs
    · rw [Int.cast_natCast, hvalue]
      exact .plus hcs
    · rw [Int.cast_natCast, hvalue]
      exact .unsigned hcs

/-! ## Bytes -/

/-- The bytes that characters take. -/
def bytes (cs : List Char) : Nat := (String.ofList cs).utf8ByteSize

/-- Characters of one byte each take as many bytes as there are of them. -/
theorem bytes_eq_length {cs : List Char} (h : ∀ c ∈ cs, c.utf8Size = 1) :
    bytes cs = cs.length := by
  induction cs with
  | nil => rfl
  | cons c cs ih =>
      obtain ⟨hc, hcs⟩ := List.forall_mem_cons.1 h
      calc bytes (c :: cs)
          = c.utf8Size + bytes cs := by
            rw [bytes, String.ofList_cons, String.utf8ByteSize_append,
              String.utf8ByteSize_singleton]
            rfl
        _ = (c :: cs).length := by rw [hc, ih hcs, List.length_cons, Nat.add_comm]

theorem utf8Size_of_isDigit {c : Char} (hc : c.isDigit = true) : c.utf8Size = 1 := by
  have hrange : 48 ≤ c.toNat ∧ c.toNat ≤ 57 := Char.isDigit_iff_toNat.1 hc
  have hval : c.val.toNat ≤ 57 := hrange.2
  rw [Char.utf8Size_eq_one_iff, UInt32.le_iff_toNat_le]
  exact Nat.le_trans hval (by decide)

/-- Integers are written in characters of one byte. -/
theorem Writes.utf8Size_eq_one {cs : List Char} {v : Rat} (h : Writes cs v) :
    ∀ c ∈ cs, c.utf8Size = 1 := by
  have hnatural : ∀ {cs : List Char}, IsNatural cs → ∀ c ∈ cs, c.utf8Size = 1 := by
    intro cs hcs c hc
    rcases hcs.digit_or_underscore c hc with hdigit | rfl
    · exact utf8Size_of_isDigit hdigit
    · rfl
  cases h with
  | unsigned h => exact hnatural h
  | plus h => exact List.forall_mem_cons.2 ⟨rfl, hnatural h⟩
  | minus h => exact List.forall_mem_cons.2 ⟨rfl, hnatural h⟩

/-- The fraction of a number takes a byte for each of its digits. -/
theorem Writes.bytes_fraction {whole fraction : List Char} {v : Rat}
    (h : Writes (whole ++ fraction) v) : bytes fraction = fraction.length :=
  bytes_eq_length fun c hc => h.utf8Size_eq_one c (List.mem_append_right whole hc)

/-! ## Numbers -/

/-- A text is worth the integer that its parts write without the point, divided by ten for each
byte after the point. -/
def Denotes (text : String) (v : Rat) : Prop :=
  ∃ whole fraction n, Parts text.toList whole fraction ∧ Writes (whole ++ fraction) n ∧
    bytes fraction < 2 ^ 32 ∧ v = n / 10 ^ bytes fraction

theorem mkRat_pow_ten (n : Int) (k : Nat) : mkRat n (Nat.pow 10 k) = n / 10 ^ k := by
  calc mkRat n (Nat.pow 10 k)
      = n / (Nat.pow 10 k : Nat) := Rat.mkRat_eq_div n _
    _ = n / 10 ^ k := congrArg _ (Nat.cast_pow 10 k)

/-- The value of a text, from its parts. -/
theorem value?_of_parts {text : String} {whole fraction : List Char}
    (h : Parts text.toList whole fraction) (v : Rat) :
    value? text = some v ↔ ∃ n : Int, integer? (whole ++ fraction) = some n ∧
      fraction.length < 2 ^ 32 ∧ v = n / 10 ^ fraction.length := by
  have hmax : fraction.length ≤ maxFraction ↔ fraction.length < 2 ^ 32 := by
    unfold maxFraction
    omega
  simp only [value?, splitPoint_eq_iff.2 h, hmax, mkRat_pow_ten]
  cases integer? (whole ++ fraction) with
  | none => simp
  | some n => simp [eq_comm]

/-- **A text has the value that it denotes.** -/
theorem value?_eq_some_iff {text : String} {v : Rat} : value? text = some v ↔ Denotes text v := by
  constructor
  · intro h
    obtain ⟨⟨whole, fraction⟩, hsplit⟩ : ∃ parts, splitPoint text.toList = parts := ⟨_, rfl⟩
    have hparts := splitPoint_eq_iff.1 hsplit
    obtain ⟨n, hn, hlt, rfl⟩ := (value?_of_parts hparts v).1 h
    have hwrites : Writes (whole ++ fraction) n := writes_iff.2 ⟨n, hn, rfl⟩
    rw [← hwrites.bytes_fraction] at hlt ⊢
    exact ⟨whole, fraction, n, hparts, hwrites, hlt, rfl⟩
  · rintro ⟨whole, fraction, n, hparts, hwrites, hlt, rfl⟩
    rw [hwrites.bytes_fraction] at hlt ⊢
    obtain ⟨k, hk, rfl⟩ := writes_iff.1 hwrites
    exact (value?_of_parts hparts _).2 ⟨k, hk, hlt, rfl⟩

-- the second point is no digit, and an underscore cannot come first
example : value? "-1_0.5" = some (-21 / 2) ∧ value? "1.2.3" = none ∧ value? "._1" = none := by
  decide +kernel

theorem evaluate_eq_ok_iff {text : String} {pos : Nat} {v : Rat} :
    evaluate text pos = .ok v ↔ Denotes text v := by
  rw [← value?_eq_some_iff, evaluate]
  cases value? text with
  | none => simp
  | some w => simp

/-- **A text that denotes nothing is the error.** -/
theorem evaluate_of_not_denotes {text : String} (h : ∀ v, ¬ Denotes text v) (pos : Nat) :
    evaluate text pos = .error (.invalidNumber text pos) := by
  cases hvalue : evaluate text pos with
  | error e => rw [evaluate_error hvalue]
  | ok v => exact absurd (evaluate_eq_ok_iff.1 hvalue) (h v)

/-! ## Digits -/

/-- The text of a decimal number: digits before the first point, and digits after it. -/
structure IsDecimal (text : String) (whole fraction : List Char) : Prop where
  parts : Parts text.toList whole fraction
  ne_nil : whole ++ fraction ≠ []
  digits : ∀ c ∈ whole ++ fraction, c.isDigit = true

namespace IsDecimal

variable {text : String} {whole fraction : List Char}

/-- Digits write an integer. -/
theorem writes (h : IsDecimal text whole fraction) :
    Writes (whole ++ fraction) (wholeValue (whole ++ fraction)) := by
  have hfilter : (whole ++ fraction).filter (· != '_') = whole ++ fraction := by
    refine List.filter_eq_self.2 fun c hc => ?_
    rw [bne_iff_ne]
    exact ne_underscore_of_isDigit (h.digits c hc)
  have hwrites := Writes.unsigned (isNatural_of_digits h.ne_nil h.digits)
  rwa [naturalValue, hfilter] at hwrites

/-- **Digits are worth what they count at their places** before the point and after it. -/
theorem denotes (h : IsDecimal text whole fraction) (hlt : fraction.length < 2 ^ 32) :
    Denotes text (wholeValue whole + fractionValue fraction) := by
  have hbytes := h.writes.bytes_fraction
  refine ⟨whole, fraction, _, h.parts, h.writes, ?_, ?_⟩
  · rw [hbytes]
    exact hlt
  · calc wholeValue whole + fractionValue fraction
        = (Nat.ofDigitChars 10 (whole ++ fraction) 0 : Nat) / 10 ^ fraction.length :=
          (ofDigitChars_div_pow whole fraction).symm
      _ = wholeValue (whole ++ fraction) / 10 ^ bytes fraction := by
          rw [natCast_ofDigitChars, hbytes]

/-- Zeros may stand before the digits and after them. -/
theorem padded (h : IsDecimal text whole fraction) {padded : String} {m n : Nat}
    (hparts : Parts padded.toList (List.replicate m '0' ++ whole)
      (fraction ++ List.replicate n '0')) :
    IsDecimal padded (List.replicate m '0' ++ whole) (fraction ++ List.replicate n '0') := by
  have hmem : ∀ c ∈ List.replicate m '0' ++ whole ++ (fraction ++ List.replicate n '0'),
      c = '0' ∨ c ∈ whole ++ fraction := by
    intro c hc
    simp only [List.mem_append, List.mem_replicate] at hc ⊢
    tauto
  refine ⟨hparts, ?_, ?_⟩
  · intro hnil
    simp only [List.append_eq_nil_iff] at hnil
    exact h.ne_nil (by rw [hnil.1.2, hnil.2.1, List.append_nil])
  · intro c hc
    rcases hmem c hc with rfl | hc
    · rfl
    · exact h.digits c hc

end IsDecimal

end RatExpr.Literal
