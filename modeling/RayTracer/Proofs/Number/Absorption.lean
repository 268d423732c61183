import RayTracer.Proofs.Number.Bounds

/-! # Additions that rounding takes back

A fixed amount moves a number only where the last place is fine enough for it.

* `Stays.roundReal_eq_self`: beyond a power of two, an amount below half of the last place there is
  lost, whether it is added or subtracted.
* `Stays.roundReal_sub_lt_add_iff`: an amount of more than a quarter of that last place moves every
  number up to the power, at least to one of the two sides.

The power itself is the non-trivial case. Below it the places are half as wide as above it, so there
the amount counts when it is subtracted and is lost when it is added.
-/

namespace RayTracer.Number

variable {r p x : ℝ} {k e : ℤ}

/-! ## Numbers close to a grid -/

theorem roundEven_eq_of_near {n : ℤ} (near : |x - n| < 1 / 2) : roundEven x = n := by
  have apart : |(roundEven x : ℝ) - n| < 1 := by
    calc |(roundEven x : ℝ) - n| ≤ |roundEven x - x| + |x - n| := abs_sub_le _ _ _
      _ < 1 / 2 + 1 / 2 := add_lt_add_of_le_of_lt (abs_roundEven_sub_le x) near
      _ = 1 := by norm_num
  have whole : |roundEven x - n| < 1 := by exact_mod_cast apart
  exact sub_eq_zero.mp (Int.abs_lt_one_iff.mp whole)

theorem roundReal_eq_of_near {n : ℤ} (near : |x - n * 2 ^ lastPlace x| < 2 ^ lastPlace x / 2) :
    roundReal x = n * 2 ^ lastPlace x := by
  have unit : (0 : ℝ) < 2 ^ lastPlace x := by positivity
  have quotient : |x / 2 ^ lastPlace x - n| < 1 / 2 := by
    rw [← mul_lt_mul_iff_left₀ unit, ← abs_of_pos unit, ← abs_mul, abs_of_pos unit, sub_mul,
      div_mul_cancel₀ _ unit.ne']
    linarith
  rw [roundReal, roundEven_eq_of_near quotient]

theorem le_lastPlace (large : 2 ^ k ≤ r) : k - 23 ≤ lastPlace r := by
  have pos : 0 < r := lt_of_lt_of_le (by positivity) large
  have first := (le_log_iff pos k).mpr large
  rw [lastPlace, abs_of_pos pos]
  omega

theorem abs_roundReal_sub_le_of_lt (least : -149 ≤ e) (small : |x| < 2 ^ (e + 24)) :
    |roundReal x - x| ≤ 2 ^ e / 2 := by
  obtain rfl | nonzero := eq_or_ne x 0
  · rw [roundReal_zero, sub_zero, abs_zero]
    positivity
  · have first := (log_lt_iff (abs_pos.mpr nonzero) _).mpr small
    have place : lastPlace x ≤ e := by
      unfold lastPlace
      omega
    refine (abs_roundReal_sub_le_lastPlace x).trans ?_
    gcongr
    exact one_le_two

/-! ## Amounts that are lost, and amounts that count -/

/-- Beyond a power of two, less than half of the last place there is lost. -/
theorem Stays.roundReal_eq_self (h : Stays r) (large : 2 ^ k < r) (nonneg : 0 ≤ p)
    (small : p < 2 ^ (k - 24)) :
    roundReal (r - p) = r ∧ roundReal (r + p) = r := by
  have power : (0 : ℝ) < 2 ^ k := by positivity
  have half : (2 : ℝ) ^ (k - 24) = 2 ^ (k - 23) / 2 := by
    rw [show k - 24 = k - 23 - 1 by ring, zpow_sub_one₀ two_ne_zero, div_eq_mul_inv]
  have coarse {x : ℝ} (above : 2 ^ k ≤ x) : p < 2 ^ lastPlace x / 2 := by
    rw [half] at small
    refine small.trans_le ?_
    gcongr
    · exact one_le_two
    · exact le_lastPlace above
  have pos : 0 < r := power.trans large
  constructor
  · -- the next number after the power is a whole last place away, so the difference is not below
    -- the power
    have above : 2 ^ k ≤ r - p := by
      obtain ⟨n, whole⟩ := h.exists_multiple (le_lastPlace large.le)
      have unit : (0 : ℝ) < 2 ^ (k - 23) := by positivity
      have digits : (2 : ℝ) ^ k = (2 ^ 23 : ℤ) * 2 ^ (k - 23) := by
        rw [zpow_sub₀ two_ne_zero]
        norm_num
        ring
      rw [whole, digits, mul_lt_mul_iff_left₀ unit, Int.cast_lt] at large
      have next : ((2 ^ 23 : ℤ) + 1 : ℝ) ≤ n := by exact_mod_cast large
      have least := mul_le_mul_of_nonneg_right next unit.le
      rw [add_mul, ← digits, ← whole] at least
      linarith
    obtain ⟨n, whole⟩ :=
      h.exists_multiple (lastPlace_mono (power.trans_le above) (sub_le_self r nonneg))
    have near : |r - p - n * 2 ^ lastPlace (r - p)| < 2 ^ lastPlace (r - p) / 2 := by
      rw [← whole, sub_sub_cancel_left, abs_neg, abs_of_nonneg nonneg]
      exact coarse above
    rw [roundReal_eq_of_near near, ← whole]
  · have below := h.roundReal_le pos (add_lt_add_right (coarse large.le) r)
    exact below.antisymm (h.le_roundReal (le_add_of_nonneg_right nonneg))

/-- An amount of between a quarter and half of the last place beyond a power of two moves a number
apart exactly up to that power. -/
theorem Stays.roundReal_sub_lt_add_iff (h : Stays r) (normal : -125 ≤ k) (low : 2 ^ (k - 25) < p)
    (high : p < 2 ^ (k - 24)) : roundReal (r - p) < roundReal (r + p) ↔ |r| ≤ 2 ^ k := by
  have pos : 0 < p := lt_trans (by positivity) low
  have below : roundReal (r - p) ≤ r :=
    (roundReal_mono (sub_le_self r pos.le)).trans_eq h.roundReal_eq
  have above : r ≤ roundReal (r + p) := h.le_roundReal (le_add_of_nonneg_right pos.le)
  constructor
  · intro apart
    by_contra large
    obtain right | left := lt_abs.mp (not_le.mp large)
    · obtain ⟨lower, upper⟩ := h.roundReal_eq_self right pos.le high
      exact (lower.trans upper.symm).not_lt apart
    · obtain ⟨lower, upper⟩ := h.neg.roundReal_eq_self left pos.le high
      rw [← neg_add', roundReal_neg, neg_inj] at lower
      rw [neg_add_eq_sub, ← neg_sub, roundReal_neg, neg_inj] at upper
      exact (upper.trans lower.symm).not_lt apart
  · intro small
    obtain ⟨least, most⟩ := abs_le.mp small
    have amount : p < 2 ^ k := high.trans (zpow_lt_zpow_right₀ one_lt_two (by omega))
    have quarter : (2 : ℝ) ^ (k - 25) = 2 ^ (k - 24) / 2 := by
      rw [show k - 25 = k - 24 - 1 by ring, zpow_sub_one₀ two_ne_zero, div_eq_mul_inv]
    have moved {x : ℝ} (inside : |x| < 2 ^ k) : |roundReal x - x| < p := by
      rw [← sub_add_cancel k 24] at inside
      refine (abs_roundReal_sub_le_of_lt (by omega) inside).trans_lt ?_
      rwa [← quarter]
    -- towards zero the places are fine enough
    obtain nonneg | nonpos := le_total 0 r
    · have error := abs_lt.mp (moved (x := r - p) (abs_lt.mpr ⟨by linarith, by linarith⟩))
      linarith [error.2]
    · have error := abs_lt.mp (moved (x := r + p) (abs_lt.mpr ⟨by linarith, by linarith⟩))
      linarith [error.1]

end RayTracer.Number
