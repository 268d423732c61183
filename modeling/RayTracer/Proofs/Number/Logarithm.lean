import RayTracer.Proofs.Number.Meaning

/-! # Logarithms

The fixed-point logarithm that `pow` is made from, bounded by the real one.

* `Series.artanh_le`, `Series.exp_le`: the series are bounded by geometric ones.
* `Dyadic.root_eq`: square roots on one side and doubling on the other leave a power alone.
* `Dyadic.ln_le`: the logarithm comes out at most 7/4 as large as it is. The factor needs no error
  analysis, and costs the powers near `2 ^ 128`.
-/

namespace RayTracer.Number

theorem twoPow_eq (n : ℕ) : twoPow n = 2 ^ n := rfl

/-! ## Series -/

namespace Series

variable {one : ℕ} {s z r : ℤ}

theorem mul_nonneg (hs : 0 ≤ s) (hz : 0 ≤ z) : 0 ≤ mul one s z :=
  Int.tdiv_nonneg (Int.mul_nonneg hs hz) (Int.natCast_nonneg one)

/-- A fixed-point product is not above the exact one. -/
theorem mul_mul_le (pos : 0 < one) (hs : 0 ≤ s) (hz : 0 ≤ z) : mul one s z * one ≤ s * z := by
  rw [mul, Int.tdiv_eq_ediv_of_nonneg (Int.mul_nonneg hs hz)]
  exact Int.ediv_mul_le _ (by omega)

theorem tdiv_le_self (hz : 0 ≤ z) (n : ℕ) : z.tdiv n ≤ z := by
  rw [Int.tdiv_eq_ediv_of_nonneg hz]
  exact Int.ediv_le_self _ hz

theorem tdiv_nonpos (hz : z ≤ 0) (n : ℕ) : z.tdiv n ≤ 0 := by
  have opposite : 0 ≤ (-z).tdiv n := Int.tdiv_nonneg (by omega) (Int.natCast_nonneg n)
  rw [Int.neg_tdiv] at opposite
  omega

/-- Each term is at most a 25th of the one before, so the sum is at most 25/24 of the first term. -/
theorem sumOdd_le (pos : 0 < one) (nonneg : 0 ≤ s) (small : 25 * s ≤ one) (terms : ℕ) :
    ∀ (k : ℕ) {power : ℤ}, 0 ≤ power → 24 * sumOdd one s terms k power ≤ 25 * power := by
  induction terms with
  | zero =>
    intro k power powerNonneg
    rw [sumOdd]
    omega
  | succ terms ih =>
    intro k power powerNonneg
    rw [sumOdd]
    split_ifs with zero
    · omega
    · have next : 0 ≤ mul one power s := mul_nonneg powerNonneg nonneg
      have first : power.tdiv (2 * k + 1) ≤ power := tdiv_le_self powerNonneg (2 * k + 1)
      have rest := ih (k + 1) next
      have ratio : 25 * mul one power s ≤ power := by
        have exact := mul_mul_le pos powerNonneg nonneg
        have unit : (0 : ℤ) < one := mod_cast pos
        nlinarith
      omega

theorem sumOdd_nonpos (nonneg : 0 ≤ s) (terms : ℕ) :
    ∀ (k : ℕ) {power : ℤ}, power ≤ 0 → sumOdd one s terms k power ≤ 0 := by
  induction terms with
  | zero =>
    intro k power _
    exact le_rfl
  | succ terms ih =>
    intro k power nonpos
    rw [sumOdd]
    split_ifs with zero
    · exact le_rfl
    · have first : power.tdiv (2 * k + 1) ≤ 0 := tdiv_nonpos nonpos (2 * k + 1)
      have next : mul one power s ≤ 0 :=
        tdiv_nonpos (Int.mul_nonpos_of_nonpos_of_nonneg nonpos nonneg) one
      have rest := ih (k + 1) next
      omega

/-- Each term is at most 7/10 of the one before. -/
theorem sumFactorial_le (pos : 0 < one) (nonneg : 0 ≤ s) (small : 10 * s ≤ 7 * one) (terms : ℕ) :
    ∀ (k : ℕ) {term : ℤ}, 0 ≤ term → 3 * sumFactorial one s (· + 1) terms k term ≤ 10 * term := by
  induction terms with
  | zero =>
    intro k term termNonneg
    rw [sumFactorial]
    omega
  | succ terms ih =>
    intro k term termNonneg
    rw [sumFactorial]
    split_ifs with zero
    · omega
    · have product : 0 ≤ mul one term s := mul_nonneg termNonneg nonneg
      have next : 0 ≤ (mul one term s).tdiv (k + 1 : ℕ) :=
        Int.tdiv_nonneg product (Int.natCast_nonneg _)
      have divided := tdiv_le_self product (k + 1)
      have rest := ih (k + 1) next
      -- each term is at most 7/10 of the one before, so the sum is at most geometric
      have ratio : 10 * mul one term s ≤ 7 * term := by
        have exact := mul_mul_le pos termNonneg nonneg
        have unit : (0 : ℤ) < one := mod_cast pos
        nlinarith
      omega

theorem artanh_le (pos : 0 < one) (nonneg : 0 ≤ z) (small : 5 * z ≤ one) :
    24 * artanh one z ≤ 25 * z := by
  refine sumOdd_le pos (mul_nonneg nonneg nonneg) ?_ maxTerms 0 nonneg
  have exact := mul_mul_le pos nonneg nonneg
  have unit : (0 : ℤ) < one := mod_cast pos
  nlinarith

theorem artanh_nonpos (nonpos : z ≤ 0) : artanh one z ≤ 0 :=
  sumOdd_nonpos (Int.tdiv_nonneg (Int.mul_nonneg_of_nonpos_of_nonpos nonpos nonpos)
    (Int.natCast_nonneg one)) maxTerms 0 nonpos

theorem exp_le (pos : 0 < one) (nonneg : 0 ≤ r) (small : 10 * r ≤ 7 * one) :
    3 * exp one r ≤ 10 * one :=
  sumFactorial_le pos nonneg small maxTerms 0 (Int.natCast_nonneg one)

end Series

/-! ## Dyadic rationals -/

namespace Dyadic

theorem toReal_pos {d : Dyadic} (pos : 0 < d.odd) : 0 < d.toReal :=
  mul_pos (mod_cast pos) (by positivity)

theorem strip_eq (fuel : ℕ) :
    ∀ {d : Dyadic}, 0 < d.odd → 0 < (strip fuel d).odd ∧ (strip fuel d).toReal = d.toReal := by
  induction fuel with
  | zero => exact fun pos => ⟨pos, rfl⟩
  | succ fuel ih =>
    intro d pos
    rw [strip]
    split_ifs with even
    · obtain ⟨posHalf, same⟩ := ih (d := ⟨d.odd / 2, d.exp + 1⟩) (show 0 < d.odd / 2 by omega)
      refine ⟨posHalf, same.trans ?_⟩
      have half : (d.odd : ℝ) = 2 * (d.odd / 2 : ℕ) := by
        have : d.odd = 2 * (d.odd / 2) := by omega
        exact_mod_cast this
      rw [toReal, toReal, zpow_add_one₀ two_ne_zero, half]
      ring
    · exact ⟨pos, rfl⟩

theorem sqrt?_eq {d r : Dyadic} (pos : 0 < d.odd) (h : d.sqrt? = some r) :
    0 < r.odd ∧ r.toReal ^ 2 = d.toReal := by
  unfold sqrt? at h
  dsimp only at h
  split_ifs at h with square
  obtain ⟨even, product⟩ := square
  cases h
  generalize sqrtBits d.odd 12 0 = m at *
  refine ⟨Nat.pos_of_ne_zero fun zero => ?_, ?_⟩
  · subst zero
    omega
  · have halves : d.exp = d.exp / 2 + d.exp / 2 := by omega
    rw [toReal, toReal, ← product]
    conv_rhs => rw [halves, zpow_add₀ two_ne_zero]
    push_cast
    ring

/-- Square roots on one side and doubling on the other leave the power alone. -/
theorem root_eq (halvings : ℕ) : ∀ {x y : Dyadic}, 0 < x.odd →
    0 < (root halvings x y).1.odd ∧ (root halvings x y).2.odd = y.odd ∧
      (root halvings x y).2.toReal * Real.log (root halvings x y).1.toReal =
        y.toReal * Real.log x.toReal := by
  induction halvings with
  | zero => exact fun pos => ⟨pos, rfl, rfl⟩
  | succ halvings ih =>
    intro x y pos
    rw [root]
    split
    · rename_i r isRoot
      obtain ⟨posRoot, square⟩ := sqrt?_eq pos isRoot
      obtain ⟨posAll, odd, same⟩ := ih (x := r) (y := ⟨y.odd, y.exp + 1⟩) posRoot
      have doubled : toReal ⟨y.odd, y.exp + 1⟩ = 2 * y.toReal := by
        rw [toReal, toReal, zpow_add_one₀ two_ne_zero]
        ring
      refine ⟨posAll, odd, same.trans ?_⟩
      rw [← square, Real.log_pow, doubled]
      push_cast
      ring
    · exact ⟨pos, rfl, rfl⟩

/-! ## Logarithms -/

theorem ln2_bounds : 693147 * (scale : ℤ) ≤ 1000000 * Series.ln2 scale ∧
    1000000 * Series.ln2 scale ≤ 693148 * scale := by
  decide +kernel

theorem scale_pos : 0 < scale := by decide +kernel

/-- The argument of the series, for a significand at or above a power of two. -/
theorem quotient_bounds {n p : ℕ} (posP : 0 < p) (least : p ≤ n) (most : 2 * n ≤ 3 * p) :
    let z := (((n : ℤ) - p) * scale).tdiv (n + p)
    0 ≤ z ∧ 5 * z ≤ scale ∧ (z : ℝ) ≤ scale * ((n / p - 1) / (n / p + 1)) := by
  intro z
  have numerator : 0 ≤ ((n : ℤ) - p) * scale := Int.mul_nonneg (by omega) (Int.natCast_nonneg scale)
  have nonneg : 0 ≤ z := Int.tdiv_nonneg numerator (by omega)
  have exact : z * (n + p) ≤ (n - p) * scale := by
    show (((n : ℤ) - p) * scale).tdiv (n + p) * (n + p) ≤ (n - p) * scale
    rw [Int.tdiv_eq_ediv_of_nonneg numerator]
    exact Int.ediv_mul_le _ (by omega)
  refine ⟨nonneg, ?_, ?_⟩
  · have unit : (0 : ℤ) ≤ scale := Int.natCast_nonneg scale
    have total : (0 : ℤ) < n + p := by omega
    have few : 5 * ((n : ℤ) - p) ≤ n + p := by omega
    nlinarith
  · have place : (0 : ℝ) < p := mod_cast posP
    have ratio : ((n : ℝ) / p - 1) / (n / p + 1) = (n - p) / (n + p) := by
      field_simp
    rw [ratio, ← mul_div_assoc, le_div_iff₀ (by positivity), mul_comm (scale : ℝ)]
    exact_mod_cast exact

/-- The logarithm starts from a number around 1 times a power of two. Up to 3/2 the rest of it is
bounded by the series, and below 1 by zero. -/
theorem ln_cases {x : Dyadic} (pos : 0 < x.odd) : ∃ (e : ℤ) (m : ℝ), x.toReal = m * 2 ^ e ∧
    (1 ≤ m ∧ m ≤ 3 / 2 ∧
      (x.ln : ℝ) ≤ e * Series.ln2 scale + 25 / 12 * (scale * ((m - 1) / (m + 1))) ∨
      3 / 4 ≤ m ∧ m < 1 ∧ (x.ln : ℝ) ≤ e * Series.ln2 scale) := by
  have least : 2 ^ x.odd.log2 ≤ x.odd := Nat.log2_self_le pos.ne'
  have most : x.odd < 2 ^ (x.odd.log2 + 1) := Nat.lt_log2_self
  have power (k : ℕ) : twoPow k = 2 ^ k := rfl
  have split (k : ℕ) : x.toReal = x.odd / 2 ^ k * 2 ^ (x.exp + k) := by
    rw [toReal, zpow_add₀ two_ne_zero, zpow_natCast]
    field_simp
  unfold ln
  simp only [power]
  -- the power of two is the next one up or the next one down, whichever is nearer
  split_ifs with upper
  · refine ⟨_, _, split (x.odd.log2 + 1), .inr ⟨?_, ?_, ?_⟩⟩
    · have : 3 * (2 : ℝ) ^ x.odd.log2 < 2 * x.odd := mod_cast upper
      rw [le_div_iff₀ (by positivity), pow_succ]
      linarith
    · rw [div_lt_one (by positivity)]
      exact_mod_cast most
    · have below : (((x.odd : ℤ) - (2 ^ (x.odd.log2 + 1) : ℕ)) * scale) ≤ 0 :=
        Int.mul_nonpos_of_nonpos_of_nonneg (by omega) (Int.natCast_nonneg scale)
      have rest : Series.artanh scale _ ≤ 0 :=
        Series.artanh_nonpos (Series.tdiv_nonpos below (x.odd + 2 ^ (x.odd.log2 + 1)))
      rw [Nat.cast_add] at rest
      have rest : (_ : ℝ) ≤ 0 := Int.cast_nonpos.mpr rest
      push_cast at rest ⊢
      linarith
  · obtain ⟨nonneg, small, bound⟩ :=
      quotient_bounds (Nat.two_pow_pos x.odd.log2) least (not_lt.mp upper)
    refine ⟨_, _, split x.odd.log2, .inl ⟨?_, ?_, ?_⟩⟩
    · rw [one_le_div (by positivity)]
      exact_mod_cast least
    · have : 2 * (x.odd : ℝ) ≤ 3 * 2 ^ x.odd.log2 := mod_cast not_lt.mp upper
      rw [div_le_iff₀ (by positivity)]
      linarith
    · have rest := Series.artanh_le scale_pos nonneg small
      generalize (((x.odd : ℤ) - (2 ^ x.odd.log2 : ℕ)) * scale).tdiv
        (x.odd + (2 ^ x.odd.log2 : ℕ)) = z at *
      have rest : 24 * (Series.artanh scale z : ℝ) ≤ 25 * z := mod_cast rest
      push_cast at bound ⊢
      linarith

theorem ln2_le : (Series.ln2 scale : ℝ) ≤ 1.00001 * Real.log 2 * scale := by
  have upper : 1000000 * (Series.ln2 scale : ℝ) ≤ 693148 * scale := mod_cast ln2_bounds.2
  have unit : (0 : ℝ) < scale := mod_cast scale_pos
  nlinarith [Real.log_two_gt_d9]

theorem le_ln2 : 0.693147 * (scale : ℝ) ≤ Series.ln2 scale := by
  have lower : 693147 * (scale : ℝ) ≤ 1000000 * Series.ln2 scale := mod_cast ln2_bounds.1
  linarith

theorem log_three_quarters : -(5 / 12) * Real.log 2 ≤ Real.log (3 / 4) := by
  have powers : Real.log ((4 / 3) ^ 12) ≤ Real.log (2 ^ 5) :=
    Real.log_le_log (by positivity) (by norm_num)
  have inverse : Real.log (3 / 4) = -Real.log (4 / 3) := by
    rw [← Real.log_inv]
    norm_num
  rw [Real.log_pow, Real.log_pow] at powers
  push_cast at powers
  linarith

/-- What the series adds, from the tangent of the logarithm. -/
theorem rest_le_log {m : ℝ} (low : 1 ≤ m) (high : m ≤ 3 / 2) :
    25 / 12 * ((m - 1) / (m + 1)) ≤ 5 / 4 * Real.log m := by
  have pos : 0 < m := by linarith
  have fraction : 1 / (m + 1) ≤ 3 / 5 * m⁻¹ := by
    rw [← div_eq_mul_inv, div_le_div_iff₀ (by linarith) pos]
    linarith
  have scaled := mul_le_mul_of_nonneg_left fraction (sub_nonneg.mpr low)
  have inverse : m * m⁻¹ = 1 := mul_inv_cancel₀ pos.ne'
  have tangent := Real.one_sub_inv_le_log_of_pos pos
  rw [mul_one_div] at scaled
  linarith

/-- The fixed-point logarithm is at most 7/4 of the real one, and not above zero for numbers up to
1. -/
theorem ln_le {x : Dyadic} (pos : 0 < x.odd) :
    (x.ln : ℝ) ≤ 7 / 4 * (scale * max 0 (Real.log x.toReal)) := by
  obtain ⟨e, m, split, cases⟩ := ln_cases pos
  have unit : (0 : ℝ) < scale := mod_cast scale_pos
  have upper := ln2_le
  have lower := le_ln2
  have two := Real.log_two_gt_d9
  have zero := le_max_left 0 (Real.log x.toReal)
  have log := le_max_right 0 (Real.log x.toReal)
  generalize max 0 (Real.log x.toReal) = bound at zero log ⊢
  have nonneg : 0 ≤ scale * bound := mul_nonneg unit.le zero
  have posM : 0 < m := by
    obtain ⟨low, -⟩ | ⟨low, -⟩ := cases <;> linarith
  rw [split, Real.log_mul posM.ne' (by positivity), Real.log_zpow] at log
  obtain ⟨low, high, series⟩ | ⟨low, high, series⟩ := cases
  · obtain negative | nonnegative := lt_or_ge e 0
    · -- the rest is less than the logarithm of 2
      have rest : (m - 1) / (m + 1) ≤ 1 / 5 := by
        rw [div_le_div_iff₀ (by linarith) (by norm_num)]
        linarith
      have share := mul_le_mul_of_nonneg_left rest unit.le
      have whole : (e : ℝ) ≤ -1 := mod_cast Int.le_sub_one_of_lt negative
      nlinarith
    · have share := mul_le_mul_of_nonneg_left (rest_le_log low high) unit.le
      have logM : 0 ≤ Real.log m := Real.log_nonneg low
      have whole : (0 : ℝ) ≤ e := mod_cast nonnegative
      have first : e * (Series.ln2 scale : ℝ) ≤ e * (1.00001 * Real.log 2 * scale) :=
        mul_le_mul_of_nonneg_left upper whole
      have all := mul_le_mul_of_nonneg_left log unit.le
      have logs : 0 ≤ e * Real.log 2 * scale := by positivity
      have logs' : 0 ≤ Real.log m * scale := by positivity
      linarith
  · obtain nonpositive | positive := le_or_gt e 0
    · have whole : (e : ℝ) ≤ 0 := mod_cast nonpositive
      have first : e * (Series.ln2 scale : ℝ) ≤ 0 :=
        mul_nonpos_of_nonpos_of_nonneg whole
          (by linarith [mul_pos (by norm_num : (0 : ℝ) < 0.693147) unit])
      linarith
    · have whole : (1 : ℝ) ≤ e := mod_cast positive
      have first : e * (Series.ln2 scale : ℝ) ≤ e * (1.00001 * Real.log 2 * scale) :=
        mul_le_mul_of_nonneg_left upper (by linarith)
      -- below 1 the significand takes at most 5/12 of a power of two back
      have start : Real.log (3 / 4) ≤ Real.log m := Real.log_le_log (by norm_num) low
      have quarters := log_three_quarters
      have enough : 1.00001 * (e * Real.log 2) ≤ 7 / 4 * bound := by nlinarith
      have all := mul_le_mul_of_nonneg_left enough unit.le
      linarith

end Dyadic

end RayTracer.Number
