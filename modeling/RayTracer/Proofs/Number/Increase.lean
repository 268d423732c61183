import RayTracer.Proofs.Number.Power

/-! # Sums and products that do not fall

Whether one number is below another, where a NaN is below nothing and nothing is below it. Sums and
products from zero up do not fall when a part of them grows. A NaN that comes up on the way stays to
the end, so the statements need no hypothesis that there is none.
-/

namespace RayTracer.Number

variable {x y a : Float32}

theorem not_lt_iff : ¬x < y ↔ (IsNumber x → IsNumber y → value y ≤ value x) := by
  rw [lt_iff, not_and, forall_congr' fun _ => not_and]
  simp only [not_lt]

theorem not_lt_zero_iff : ¬x < 0 ↔ (IsNumber x → 0 ≤ value x) := by
  have zero : IsNumber 0 ∧ value 0 = 0 := ⟨rfl, rfl⟩
  rw [not_lt_iff, zero.2]
  exact forall_congr' fun _ => forall_prop_of_true zero.1

theorem not_lt_self (x : Float32) : ¬x < x := not_lt_iff.mpr fun _ _ => le_rfl

theorem not_lt_zero_of_zero_le (h : 0 ≤ x) : ¬x < 0 :=
  not_lt_zero_iff.mpr fun _ => (zero_le_iff.mp h).2

theorem value_eq_rounded (x : Float32) : rounded (value x) = value x :=
  rounded_partsValue (stored_parts x)

/-! ## Sums -/

theorem not_add_lt_add_left (a : Float32) (h : ¬y < x) : ¬a + y < a + x := by
  rw [not_lt_iff] at h ⊢
  intro numberY numberX
  rw [value_add numberX, value_add numberY]
  obtain ⟨-, hy, -⟩ := add_isNumber_iff.mp numberY
  obtain ⟨-, hx, -⟩ := add_isNumber_iff.mp numberX
  exact rounded_mono (add_le_add_right (h hy hx) _)

theorem not_add_lt (h : ¬x < a) (hy : ¬y < 0) : ¬x + y < a := by
  rw [not_lt_zero_iff] at hy
  rw [not_lt_iff] at h ⊢
  intro sum bound
  obtain ⟨numberX, numberY, -⟩ := add_isNumber_iff.mp sum
  rw [value_add sum]
  calc value a ≤ value x := h numberX bound
    _ = rounded (value x) := (value_eq_rounded x).symm
    _ ≤ rounded (value x + value y) := rounded_mono (le_add_of_nonneg_right (hy numberY))

/-! ## Products -/

theorem not_mul_lt_zero (hx : ¬x < 0) (hy : ¬y < 0) : ¬x * y < 0 := by
  rw [not_lt_zero_iff] at *
  intro product
  obtain ⟨numberX, numberY, -⟩ := mul_isNumber_iff.mp product
  rw [value_mul product]
  exact rounded_nonneg (EReal.mul_nonneg (hx numberX) (hy numberY))

theorem not_mul_lt_mul_left (ha : ¬a < 0) (h : ¬y < x) : ¬a * y < a * x := by
  rw [not_lt_zero_iff] at ha
  rw [not_lt_iff] at h ⊢
  intro productY productX
  obtain ⟨number, numberY, -⟩ := mul_isNumber_iff.mp productY
  obtain ⟨-, numberX, -⟩ := mul_isNumber_iff.mp productX
  rw [value_mul productX, value_mul productY]
  exact rounded_mono (mul_le_mul_of_nonneg_left (h numberY numberX) (ha number))

/-! ## Powers -/

/-- A base from zero up has no power below zero, whatever the exponent. -/
theorem not_pow_lt_zero (hx : 0 ≤ x) (positive : isNegative x = false) (y : Float32) :
    ¬pow x y < 0 := by
  obtain number | nan := isNumber_or_isNaN y
  · exact not_lt_zero_of_zero_le (zero_le_pow hx positive number)
  · unfold pow
    split_ifs with one undefined
    · exact not_lt_zero_of_zero_le zero_le_one
    · decide
    · rw [nan, Bool.or_true] at undefined
      exact absurd rfl undefined
    · rw [nan, Bool.or_true] at undefined
      exact absurd rfl undefined

end RayTracer.Number
