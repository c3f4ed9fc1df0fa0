import RatExpr.Number.Arithmetic
import RatExpr.Number.Literal

set_option autoImplicit false

/-! # The errors of operators

Which errors an operator raises by itself, once both operands have a value
(`BinaryOp.fault_of_apply`). None of them has a cause. A power of a rational is never a
quotient by zero: zero is caught before, and no other rational has a power that is zero.
-/

namespace RatExpr

/-- The errors that an operator at `pos` raises by itself. -/
inductive BinaryOp.Fault (limits : Limits) (pos : Nat) : BinaryOp → EvalError → Prop
  | divisionByZero : Fault limits pos .div (.divisionByZero pos)
  | moduloNotInteger : Fault limits pos .mod (.moduloNotInteger pos)
  | moduloByZero : Fault limits pos .mod (.moduloByZero pos)
  | exponentNotInteger : Fault limits pos .pow .exponentNotInteger
  | zeroToNegative : Fault limits pos .pow .zeroToNegative
  | exponentTooLarge : Fault limits pos .pow (.exponentTooLarge limits.maxExponent)

namespace Fraction

theorem quotient?_ne_none {num den : Int} (hden : den ≠ 0) : quotient? num den ≠ none := by
  simp [quotient?, hden]

/-- A fraction of two numbers other than zero can be multiplied out. -/
theorem multiplyOut?_ne_none {base : Fraction} (hnum : base.num ≠ 0) (hden : base.den ≠ 0)
    (exponent : Int) : base.multiplyOut? exponent ≠ none := by
  by_cases he : 0 < exponent
  · rw [multiplyOut?, if_pos he]
    exact quotient?_ne_none (Int.pow_ne_zero hden)
  · rw [multiplyOut?, if_neg he]
    exact quotient?_ne_none (Int.pow_ne_zero hnum)

/-- The errors of a power. -/
theorem fault_of_power {limits : Limits} {base : Fraction} {exponent : Rat} {e : EvalError}
    (hden : base.den ≠ 0) (pos : Nat) (h : base.power limits exponent = .error e) :
    BinaryOp.Fault limits pos .pow e := by
  simp only [power] at h
  split at h
  · rw [← Except.error.inj h]; exact .exponentNotInteger
  split at h
  · rw [← Except.error.inj h]; exact .zeroToNegative
  split at h
  · simp at h
  split at h
  · simp at h
  rename_i hnum
  split at h
  · simp at h
  split at h
  · rw [← Except.error.inj h]; exact .exponentTooLarge
  split at h
  · simp at h
  · -- a zero base has been answered before, so nothing is divided by zero
    rename_i hnone
    exact absurd hnone (multiplyOut?_ne_none hnum hden _)

end Fraction

/-- The errors of a remainder. -/
theorem fault_of_modulo {limits : Limits} {pos : Nat} {a b : Rat} {e : EvalError}
    (h : modulo pos a b = .error e) : BinaryOp.Fault limits pos .mod e := by
  unfold modulo at h
  split at h
  · rw [← Except.error.inj h]; exact .moduloNotInteger
  split at h
  · rw [← Except.error.inj h]; exact .moduloByZero
  · simp at h

/-- **An operator raises no errors but its own.** -/
theorem BinaryOp.fault_of_apply {limits : Limits} {op : BinaryOp} {pos : Nat} {a b : Rat}
    {e : EvalError} (h : op.apply limits pos a b = .error e) : Fault limits pos op e := by
  cases op with
  | add => simp [apply] at h
  | sub => simp [apply] at h
  | mul => simp [apply] at h
  | div =>
      simp only [apply] at h
      split at h
      · rw [← Except.error.inj h]; exact .divisionByZero
      · simp at h
  | mod => exact fault_of_modulo h
  | pow => exact Fraction.fault_of_power (Fraction.den_ofRat_ne_zero a) pos h

/-- The only error of a number is that it is none. -/
theorem Literal.evaluate_error {text : String} {pos : Nat} {e : EvalError}
    (h : evaluate text pos = .error e) : e = .invalidNumber text pos := by
  unfold evaluate at h
  split at h
  · simp at h
  · exact (Except.error.inj h).symm

/-- A number without a value is none. -/
theorem Literal.value?_of_error {text : String} {pos : Nat} {e : EvalError}
    (h : evaluate text pos = .error e) : value? text = none := by
  unfold evaluate at h
  split at h
  · simp at h
  · assumption

end RatExpr
