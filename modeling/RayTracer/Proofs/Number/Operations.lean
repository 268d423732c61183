import RayTracer.Proofs.Number.Quotient

/-! # Operations on binary32 numbers

What the arithmetic of parts says of numbers: where an operation has a result, and its value.

* `value_add` and its companions: the value of a result is the rounded exact one.
* `div_mono`: division by a number without a minus sign is monotone. A minus sign matters even on a
  zero, so `sign_add` and `sign_mul_self` say where there is none.
* `lowValue_mul_mono`, `highValue_mul_mono`: a product with a fixed number is monotone also where it
  is read as the end of a range and some of the products are NaN.
-/

namespace RayTracer.Number

open Float.Model (Format UnpackedFloat)

variable {x y z : Float32}

/-! ## Sums and differences -/

theorem add_computes_value (x y : Float32) :
    Computes (UnpackedFloat.add .binary32 (parts x) (parts y)) (Addable (parts x) (parts y))
      (value x + value y) :=
  add_computes (stored_parts x) (stored_parts y)

theorem isNumber_add_iff : IsNumber (x + y) ↔ Addable (parts x) (parts y) :=
  (isNumber_iff _).trans (add_computes_value x y).isNumber

theorem value_add (h : IsNumber (x + y)) : value (x + y) = rounded (value x + value y) :=
  (add_computes_value x y).value (isNumber_add_iff.mp h)

theorem parts_neg (x : Float32) : parts (-x) = (parts x).neg :=
  stored_of_stored (stored_neg (stored_parts x))

theorem value_neg (x : Float32) : value (-x) = -value x := by
  rw [value, parts_neg, partsValue_opposite, value]

theorem isNumber_neg_iff : IsNumber (-x) ↔ IsNumber x := by
  rw [isNumber_iff, isNumber_iff, parts_neg, neg_ne_notANumber]

theorem sub_eq_add_neg (x y : Float32) : parts (x - y) = parts (x + -y) := by
  show stored (UnpackedFloat.sub .binary32 (parts x) (parts y)) =
    stored (UnpackedFloat.add .binary32 (parts x) (parts (-y)))
  rw [sub_eq_add_opposite, parts_neg]

theorem isNumber_sub_iff : IsNumber (x - y) ↔ Addable (parts x) (parts (-y)) := by
  rw [isNumber_iff, sub_eq_add_neg, ← isNumber_iff, isNumber_add_iff]

theorem value_sub (h : IsNumber (x - y)) : value (x - y) = rounded (value x - value y) := by
  have sum : IsNumber (x + -y) := isNumber_add_iff.mpr (isNumber_sub_iff.mp h)
  rw [value, sub_eq_add_neg, ← value, value_add sum, value_neg]
  rfl

theorem isNumber_of_sub (h : IsNumber (x - y)) : IsNumber x ∧ IsNumber y := by
  obtain ⟨hx, hy, -⟩ := isNumber_sub_iff.mp h
  exact ⟨(isNumber_iff x).mpr hx, isNumber_neg_iff.mp ((isNumber_iff (-y)).mpr hy)⟩

/-! ## Products -/

theorem mul_computes_value (x y : Float32) :
    Computes (UnpackedFloat.mul .binary32 (parts x) (parts y)) (Multipliable (parts x) (parts y))
      (value x * value y) :=
  mul_computes (stored_parts x) (stored_parts y)

theorem isNumber_mul_iff : IsNumber (x * y) ↔ Multipliable (parts x) (parts y) :=
  (isNumber_iff _).trans (mul_computes_value x y).isNumber

theorem value_mul (h : IsNumber (x * y)) : value (x * y) = rounded (value x * value y) :=
  (mul_computes_value x y).value (isNumber_mul_iff.mp h)

/-- A product with a nonzero number is NaN only if that number is infinite and the other one
zero. -/
theorem eq_zero_of_mul (hx : IsNumber x) (hz : IsNumber z) (nonzero : value z ≠ 0)
    (h : ¬IsNumber (x * z)) : value x = 0 ∧ (value z = ⊤ ∨ value z = ⊥) := by
  rw [isNumber_mul_iff] at h
  by_contra other
  exact h ⟨(isNumber_iff x).mp hx, (isNumber_iff z).mp hz, other,
    fun infinite => nonzero infinite.2⟩

/-- Where a product with an infinity is a number, it is an infinity. -/
theorem value_mul_infinite (h : IsNumber (x * z)) (infinite : value z = ⊤ ∨ value z = ⊥) :
    value (x * z) = if 0 < value x * value z then ⊤ else ⊥ := by
  obtain ⟨-, -, notZero, -⟩ := isNumber_mul_iff.mp h
  have nonzero : value x ≠ 0 := fun zero => notZero ⟨zero, infinite⟩
  rw [value_mul h]
  obtain below | above := lt_or_gt_of_ne nonzero
  · obtain top | bot := infinite
    · rw [top, EReal.mul_top_of_neg below]
      simp
    · rw [bot, EReal.mul_bot_of_neg below]
      simp
  · obtain top | bot := infinite
    · rw [top, EReal.mul_top_of_pos above]
      simp
    · rw [bot, EReal.mul_bot_of_pos above]
      simp

theorem lowValue_mul_mono (hy : IsNumber y) (hz : IsNumber z) (nonzero : value z ≠ 0)
    (h : value x * value z ≤ value y * value z) : lowValue (x * z) ≤ lowValue (y * z) := by
  by_cases left : IsNumber (x * z)
  · by_cases right : IsNumber (y * z)
    · rw [lowValue_eq left, lowValue_eq right, value_mul left, value_mul right]
      exact rounded_mono h
    · -- the right product is a zero times an infinity, so the left one is the lower infinity
      obtain ⟨zero, infinite⟩ := eq_zero_of_mul hy hz nonzero right
      rw [zero, zero_mul] at h
      rw [lowValue_eq left, value_mul_infinite left infinite, if_neg (not_lt.mpr h)]
      exact bot_le
  · rw [lowValue, if_neg left]
    exact bot_le

theorem highValue_mul_mono (hx : IsNumber x) (hz : IsNumber z) (nonzero : value z ≠ 0)
    (h : value x * value z ≤ value y * value z) : highValue (x * z) ≤ highValue (y * z) := by
  by_cases right : IsNumber (y * z)
  · by_cases left : IsNumber (x * z)
    · rw [highValue_eq left, highValue_eq right, value_mul left, value_mul right]
      exact rounded_mono h
    · -- the left product is a zero times an infinity, so the right one is the upper infinity
      obtain ⟨zero, infinite⟩ := eq_zero_of_mul hx hz nonzero left
      obtain ⟨-, -, notZero, -⟩ := isNumber_mul_iff.mp right
      have positive : 0 < value y * value z := by
        rw [zero, zero_mul] at h
        refine h.lt_of_ne fun product => ?_
        obtain none | none := mul_eq_zero.mp product.symm
        · exact notZero ⟨none, infinite⟩
        · exact nonzero none
      rw [highValue_eq right, value_mul_infinite right infinite, if_pos positive]
      exact le_top
  · refine le_top.trans_eq ?_
    rw [highValue, if_neg right]

/-! ## Quotients and square roots -/

/-- What a division by a number multiplies by: for a zero the infinity of its sign. -/
noncomputable def inverse (x : Float32) : EReal := partsInverse (parts x)

theorem div_computes_value (x y : Float32) :
    Computes (UnpackedFloat.div .binary32 (parts x) (parts y)) (Dividable (parts x) (parts y))
      (value x * inverse y) :=
  div_computes (stored_parts x) (stored_parts y)

theorem isNumber_div_iff : IsNumber (x / y) ↔ Dividable (parts x) (parts y) :=
  (isNumber_iff _).trans (div_computes_value x y).isNumber

theorem value_div (h : IsNumber (x / y)) : value (x / y) = rounded (value x * inverse y) :=
  (div_computes_value x y).value (isNumber_div_iff.mp h)

theorem isNumber_of_div (h : IsNumber (x / y)) : IsNumber x ∧ IsNumber y := by
  obtain ⟨hx, hy, -⟩ := isNumber_div_iff.mp h
  exact ⟨(isNumber_iff x).mpr hx, (isNumber_iff y).mpr hy⟩

theorem inverse_nonneg (h : sign x = .positive) : 0 ≤ inverse x := partsInverse_nonneg h

theorem div_mono (hx : IsNumber (x / z)) (hy : IsNumber (y / z)) (h : sign z = .positive)
    (le : value x ≤ value y) : value (x / z) ≤ value (y / z) := by
  rw [value_div hx, value_div hy]
  exact rounded_mono (mul_le_mul_of_nonneg_right le (inverse_nonneg h))

theorem sqrt_computes_value (x : Float32) :
    Computes (UnpackedFloat.sqrt .binary32 (parts x)) (parts x ≠ .notANumber ∧ 0 ≤ value x)
      (root (value x)) :=
  sqrt_computes (stored_parts x)

theorem isNumber_sqrt_iff : IsNumber x.sqrt ↔ parts x ≠ .notANumber ∧ 0 ≤ value x :=
  (isNumber_iff _).trans (sqrt_computes_value x).isNumber

theorem value_sqrt (h : IsNumber x.sqrt) : value x.sqrt = rounded (root (value x)) :=
  (sqrt_computes_value x).value (isNumber_sqrt_iff.mp h)

theorem value_sqrt_nonneg (h : IsNumber x.sqrt) : 0 ≤ value x.sqrt := by
  rw [value_sqrt h, ← rounded_zero]
  exact rounded_mono (root_nonneg _)

/-! ## Signs -/

theorem sign_add (hx : sign x = .positive) (hy : sign y = .positive) : sign (x + y) = .positive :=
  partsSign_add_positive (stored_parts x) (stored_parts y) hx hy

theorem sign_mul_self (x : Float32) : sign (x * x) = .positive :=
  partsSign_mul_self (stored_parts x)

/-! ## Finite numbers -/

theorem isNumber_of_isFinite (h : x.isFinite = true) : IsNumber x := by
  rw [isNumber_iff]
  intro nan
  have finite : (parts x).isFinite = true := h
  rw [nan] at finite
  cases finite

theorem value_ne_infinity (h : x.isFinite = true) : value x ≠ ⊤ ∧ value x ≠ ⊥ :=
  partsValue_ne_infinity h

theorem isNumber_sub_of_isFinite (hx : IsNumber x) (hy : y.isFinite = true) : IsNumber (x - y) := by
  obtain ⟨notTop, notBot⟩ := value_ne_infinity (x := y) hy
  refine isNumber_sub_iff.mpr ⟨(isNumber_iff x).mp hx, ?_, ?_, ?_⟩
  · exact (isNumber_iff _).mp (isNumber_neg_iff.mpr (isNumber_of_isFinite hy))
  · rintro ⟨-, bot⟩
    rw [← value, value_neg, EReal.neg_eq_bot_iff] at bot
    exact notTop bot
  · rintro ⟨-, top⟩
    rw [← value, value_neg, EReal.neg_eq_top_iff] at top
    exact notBot top

/-! ## Reciprocals -/

theorem value_one : value 1 = 1 := by
  show (((2 ^ 23 : ℕ) * 2 ^ (-23 : ℤ) : ℝ) : EReal) = 1
  norm_num

theorem isNumber_one_div (h : IsNumber x) : IsNumber (1 / x) := by
  have one : partsValue (parts 1) = 1 := value_one
  refine isNumber_div_iff.mpr ⟨(isNumber_iff 1).mp rfl, (isNumber_iff x).mp h, ?_, ?_⟩
  · rw [one]
    exact fun zeros => one_ne_zero zeros.1
  · rw [one]
    exact fun infinities => infinities.1.elim (EReal.coe_ne_top 1) (EReal.coe_ne_bot 1)

/-- Even the largest number has a reciprocal above zero. -/
theorem value_one_div_ne_zero (h : x.isFinite = true) : value (1 / x) ≠ 0 := by
  rw [value_div (isNumber_one_div (isNumber_of_isFinite h)), value_one, one_mul]
  exact rounded_partsInverse_ne_zero (stored_parts x) h

end RayTracer.Number
