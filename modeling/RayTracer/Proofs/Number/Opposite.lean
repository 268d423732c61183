import RayTracer.Proofs.Number.Operations

/-! # Opposite numbers

Rounding has no direction, so the arithmetic of opposites is the opposite arithmetic, up to the sign
of a zero and with NaN in the same places. `Opposite` is kept by sums and by products with a common
factor.
-/

namespace RayTracer.Number

variable {x y z u v : Float32}

/-! ## Rounding -/

theorem overflow_neg (x : ℝ) : overflow (-x) = -overflow x := by
  unfold overflow
  obtain large | large := le_or_gt (2 ^ 128) x
  · rw [if_neg (by linarith), if_pos (by linarith), if_pos large, EReal.neg_top]
  · rw [if_neg (not_le.mpr large)]
    obtain low | low := le_or_gt x (-2 ^ 128)
    · rw [if_pos (by linarith), if_pos low, EReal.neg_bot]
    · rw [if_neg (by linarith), if_neg (by linarith), if_neg (not_le.mpr low), EReal.coe_neg]

theorem rounded_neg (x : EReal) : rounded (-x) = -rounded x := by
  induction x with
  | bot => rfl
  | top => rfl
  | coe x => rw [← EReal.coe_neg, rounded_coe, rounded_coe, roundReal_neg, overflow_neg]

/-! ## Where results are numbers -/

/-- A sum is NaN if a summand is, or if the summands are opposite infinities. -/
theorem add_isNumber_iff : IsNumber (x + y) ↔ IsNumber x ∧ IsNumber y ∧
    ¬(value x = ⊤ ∧ value y = ⊥) ∧ ¬(value x = ⊥ ∧ value y = ⊤) := by
  rw [isNumber_add_iff, isNumber_iff x, isNumber_iff y]
  rfl

/-- A difference is NaN if a part of it is, or if both are the same infinity. -/
theorem sub_isNumber_iff : IsNumber (x - y) ↔ IsNumber x ∧ IsNumber y ∧
    ¬(value x = ⊤ ∧ value y = ⊤) ∧ ¬(value x = ⊥ ∧ value y = ⊥) := by
  rw [isNumber_iff, sub_eq_add_neg, ← isNumber_iff, add_isNumber_iff, isNumber_neg_iff, value_neg,
    EReal.neg_eq_bot_iff, EReal.neg_eq_top_iff]

/-- A product is NaN if a factor is, or if the factors are a zero and an infinity. -/
theorem mul_isNumber_iff : IsNumber (x * y) ↔ IsNumber x ∧ IsNumber y ∧
    ¬(value x = 0 ∧ (value y = ⊤ ∨ value y = ⊥)) ∧
    ¬((value x = ⊤ ∨ value x = ⊥) ∧ value y = 0) := by
  rw [isNumber_mul_iff, isNumber_iff x, isNumber_iff y]
  rfl

/-! ## Opposites -/

/-- Two numbers of opposite values, or NaN twice. -/
def Opposite (x y : Float32) : Prop := (IsNumber x ↔ IsNumber y) ∧ value x = -value y

theorem opposite_neg (x : Float32) : Opposite (-x) x := ⟨isNumber_neg_iff, value_neg x⟩

theorem value_of_not_isNumber (h : ¬IsNumber x) : value x = 0 := by
  rw [isNumber_iff, not_not] at h
  rw [value, h]
  rfl

theorem opposite_of_values (same : IsNumber x ↔ IsNumber y)
    (values : IsNumber x → value x = -value y) :
    Opposite x y := by
  refine ⟨same, ?_⟩
  by_cases number : IsNumber x
  · exact values number
  · rw [value_of_not_isNumber number, value_of_not_isNumber fun h => number (same.mpr h), neg_zero]

theorem Opposite.eq_zero_iff (h : Opposite x y) : value x = 0 ↔ value y = 0 := by
  rw [h.2, EReal.neg_eq_zero_iff]

theorem Opposite.eq_top_iff (h : Opposite x y) : value x = ⊤ ↔ value y = ⊥ := by
  rw [h.2, EReal.neg_eq_top_iff]

theorem Opposite.eq_bot_iff (h : Opposite x y) : value x = ⊥ ↔ value y = ⊤ := by
  rw [h.2, EReal.neg_eq_bot_iff]

theorem Opposite.infinite_iff (h : Opposite x y) :
    (value x = ⊤ ∨ value x = ⊥) ↔ (value y = ⊤ ∨ value y = ⊥) := by
  rw [h.eq_top_iff, h.eq_bot_iff, or_comm]

theorem Opposite.add (left : Opposite x y) (right : Opposite u v) : Opposite (x + u) (y + v) := by
  have same : IsNumber (x + u) ↔ IsNumber (y + v) := by
    rw [add_isNumber_iff, add_isNumber_iff, left.1, right.1, left.eq_top_iff, left.eq_bot_iff,
      right.eq_top_iff, right.eq_bot_iff]
    tauto
  refine opposite_of_values same fun number => ?_
  obtain ⟨-, -, notTop, notBot⟩ := add_isNumber_iff.mp (same.mp number)
  rw [value_add number, value_add (same.mp number), left.2, right.2, ← rounded_neg,
    EReal.neg_add (not_and_or.mp notBot) (not_and_or.mp notTop)]
  rfl

theorem Opposite.mul_left (x : Float32) (h : Opposite y z) : Opposite (x * y) (x * z) := by
  have same : IsNumber (x * y) ↔ IsNumber (x * z) := by
    rw [mul_isNumber_iff, mul_isNumber_iff, h.1, h.infinite_iff, h.eq_zero_iff]
  refine opposite_of_values same fun number => ?_
  rw [value_mul number, value_mul (same.mp number), h.2, mul_neg, rounded_neg]

theorem Opposite.mul_right (h : Opposite x y) (z : Float32) : Opposite (x * z) (y * z) := by
  have same : IsNumber (x * z) ↔ IsNumber (y * z) := by
    rw [mul_isNumber_iff, mul_isNumber_iff, h.1, h.infinite_iff, h.eq_zero_iff]
  refine opposite_of_values same fun number => ?_
  rw [value_mul number, value_mul (same.mp number), h.2, neg_mul, rounded_neg]

/-- Where one of the two is below zero the other one is above it. -/
theorem Opposite.pos_iff (h : Opposite x y) : 0 < x ↔ y < 0 := by
  have zero : value 0 = 0 := rfl
  rw [lt_iff, lt_iff, h.1, h.2, zero, EReal.neg_pos]
  tauto

end RayTracer.Number
