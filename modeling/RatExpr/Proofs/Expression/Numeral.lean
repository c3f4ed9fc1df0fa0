import RatExpr.Proofs.Expression.Outline
import RatExpr.Proofs.Number.Written

set_option autoImplicit false

/-! # The numbers of a text

A number token is read as the number that its text denotes, whatever its text is. The number tokens
of a text all have texts of digits around a point (`Token.exists_isDecimal`), so that they denote
what the digits count at their places; unless a fraction is longer than can be read, no evaluation
comes to the error of an invalid number (`Expression.invalidNumber_not_mem`). The main statement is
`Literal.read_exactly`.
-/

namespace RatExpr

namespace Token

/-- **The number tokens of a text are digits,** with a point before them, between them or none. -/
theorem exists_isDecimal {text : String} {t : Token} (ht : t ∈ all text)
    (hkind : t.kind = .number) : ∃ whole fraction, Literal.IsDecimal t.text whole fraction := by
  have hspells := spells_of_mem_all ht
  rw [hkind] at hspells
  rcases hspells with ⟨hne, hdigits⟩ | ⟨whole, fraction, htext, hwhole, hne, hfraction⟩
  · -- no point: all the digits stand before it
    refine ⟨t.text.toList, [], .plain (point_not_mem_of_digits hdigits), ?_, ?_⟩
    · rwa [List.append_nil]
    · rwa [List.append_nil]
  · refine ⟨whole, fraction, ?_, ?_, ?_⟩
    · rw [htext]
      exact .pointed (point_not_mem_of_digits hwhole)
    · exact List.append_ne_nil_of_right_ne_nil whole hne
    · exact List.forall_mem_append.2 ⟨hwhole, hfraction⟩

/-- No number of the text has a fraction that is too long to be read. -/
def FractionsFit (text : String) : Prop :=
  ∀ t ∈ all text, t.kind = .number →
    ∀ whole fraction, Literal.Parts t.text.toList whole fraction → fraction.length < 2 ^ 32

/-- A number with a fraction that is not too long has a value. -/
theorem FractionsFit.value?_ne_none {text : String} {t : Token} (h : FractionsFit text)
    (ht : t ∈ all text) (hkind : t.kind = .number) : Literal.value? t.text ≠ none := by
  obtain ⟨whole, fraction, hdecimal⟩ := exists_isDecimal ht hkind
  have hvalue := Literal.value?_eq_some_iff.2
    (hdecimal.denotes (h t ht hkind whole fraction hdecimal.parts))
  rw [hvalue]
  exact Option.some_ne_none _

end Token

/-- **No invalid numbers.** They are neither the error of a text nor among its causes. -/
theorem Expression.invalidNumber_not_mem {limits : Limits} {text : String} {e : EvalError}
    (hfit : Token.FractionsFit text) (h : evaluate limits text = .error e) (number : String)
    (pos : Nat) : .invalidNumber number pos ∉ e :: e.causes := by
  intro hmem
  rcases error_cases h with ⟨t, -, -, rfl⟩ | rfl | ⟨t, -, -, rfl⟩ | ⟨ts, hsub, -, habout⟩
  · exact nomatch List.mem_singleton.1 hmem
  · exact nomatch List.mem_singleton.1 hmem
  · exact nomatch List.mem_singleton.1 hmem
  · -- the error would be about a number token of the text that has no value
    obtain ⟨t, ht, hkind, rfl, -, hnone⟩ := habout.pointsInto _ hmem
    rcases ht with ht | rfl
    · exact hfit.value?_ne_none (hsub ht) hkind hnone
    · exact nomatch hkind

/-- The same for a pair of texts. -/
theorem Pair.invalidNumber_not_mem {limits : Limits} {p : Pair} {e : EvalError}
    (hfit : ∀ side, Token.FractionsFit (p.text side)) (h : p.evaluate limits = .error e)
    (number : String) (pos : Nat) : .invalidNumber number pos ∉ e :: e.causes := by
  intro hmem
  rcases error_cases h with rfl | rfl | ⟨side, cause, hcause, rfl⟩
  · exact nomatch List.mem_singleton.1 hmem
  · exact nomatch List.mem_singleton.1 hmem
  · rcases List.mem_cons.1 hmem with heq | hmem
    · exact nomatch heq
    · exact Expression.invalidNumber_not_mem (hfit side) hcause number pos hmem

/-- **Numbers are read exactly.** A number token, of any text and before any tokens, is worth the
number that its text denotes; if it denotes none, the token is the error. The number tokens of a
text always write an integer without their point, and are worth what their digits count at their
places, whatever zeros are put before the digits or after those of the fraction. So, unless a
fraction is too long, no text and no pair of texts is evaluated to an invalid number. -/
theorem Literal.read_exactly :
    (∀ (ctx : Context) (room : Nat) (text : String) (pos : Nat) (rest : List Token),
      (∀ v, (Level.readAt ctx room .atom).run (⟨.number, text, pos⟩ :: rest) = ⟨.ok v, rest⟩ ↔
        Denotes text v) ∧
      ((∀ v, ¬ Denotes text v) →
        (Level.readAt ctx room .atom).run (⟨.number, text, pos⟩ :: rest) =
          ⟨.error (.invalidNumber text pos), rest⟩)) ∧
    (∀ text, ∀ t ∈ Token.all text, t.kind = .number →
      ∃ whole fraction, IsDecimal t.text whole fraction ∧
        Writes (whole ++ fraction) (Decimal.wholeValue (whole ++ fraction)) ∧
        (fraction.length < 2 ^ 32 → evaluate t.text t.pos =
          .ok (Decimal.wholeValue whole + Decimal.fractionValue fraction)) ∧
        ∀ (padded : String) (m n pos : Nat),
          Parts padded.toList (List.replicate m '0' ++ whole)
            (fraction ++ List.replicate n '0') →
          fraction.length + n < 2 ^ 32 → evaluate padded pos =
            .ok (Decimal.wholeValue whole + Decimal.fractionValue fraction)) ∧
    (∀ limits text e, Token.FractionsFit text → Expression.evaluate limits text = .error e →
      ∀ number pos, .invalidNumber number pos ∉ e :: e.causes) ∧
    ∀ limits (p : Pair) e, (∀ side, Token.FractionsFit (p.text side)) →
      p.evaluate limits = .error e → ∀ number pos, .invalidNumber number pos ∉ e :: e.causes := by
  refine ⟨fun ctx room text pos rest => ?_, fun text t ht hkind => ?_,
    fun limits text e hfit h => Expression.invalidNumber_not_mem hfit h,
    fun limits p e hfit h => Pair.invalidNumber_not_mem hfit h⟩
  · have hrun : (Level.readAt ctx room .atom).run (⟨.number, text, pos⟩ :: rest) =
        ⟨evaluate text pos, rest⟩ := rfl
    rw [hrun]
    constructor
    · intro v
      rw [Reading.mk.injEq, evaluate_eq_ok_iff, and_iff_left rfl]
    · intro hnone
      rw [evaluate_of_not_denotes hnone]
  · obtain ⟨whole, fraction, hdecimal⟩ := Token.exists_isDecimal ht hkind
    refine ⟨whole, fraction, hdecimal, hdecimal.writes, fun hlt => ?_, ?_⟩
    · exact evaluate_eq_ok_iff.2 (hdecimal.denotes hlt)
    · intro padded m n pos hparts hlt
      have hdenotes := (hdecimal.padded hparts).denotes (by
        rw [List.length_append, List.length_replicate]
        exact hlt)
      rw [Decimal.wholeValue_zeros_append, Decimal.fractionValue_append_zeros] at hdenotes
      exact evaluate_eq_ok_iff.2 hdenotes

end RatExpr
