import RayTracer.Proofs.Number.Logarithm
import RayTracer.Proofs.Number.Nearest

/-! # Powers

What `pow` gives for a base without a minus sign.

* `zero_le_pow`: a power is a number from zero up, possibly infinite.
* `isFinite_pow`: a power that is at most `2 ^ 72` does not come out infinite. The exact path rounds
  the power itself; the path through logarithms has `Dyadic.ln_le` to bound its exponent.
-/

namespace RayTracer.Number

/-! ## Powers of dyadic rationals -/

namespace Dyadic

/-- Moving the point of a fixed-point number cuts off what it cannot hold. -/
theorem shifted_le {p : ℤ} {c : ℝ} (nonneg : 0 ≤ c) (e : ℤ) (h : p * 2 ^ e ≤ c) :
    ((if 0 ≤ e then p * twoPow e.toNat else p.tdiv (twoPow (-e).toNat) : ℤ) : ℝ) ≤ c := by
  rw [twoPow_eq, twoPow_eq]
  split_ifs with up
  · refine le_of_eq_of_le ?_ h
    conv_rhs => rw [← Int.toNat_of_nonneg up, zpow_natCast]
    push_cast
    rfl
  · obtain negative | positive := lt_or_ge p 0
    · exact (Int.cast_nonpos.mpr (Series.tdiv_nonpos negative.le _)).trans nonneg
    · refine le_trans ?_ h
      have down : e = -((-e).toNat : ℤ) := by omega
      have exact : p.tdiv (2 ^ (-e).toNat : ℕ) * (2 ^ (-e).toNat : ℕ) ≤ p := by
        rw [Int.tdiv_eq_ediv_of_nonneg positive]
        exact Int.ediv_mul_le _ (by positivity)
      have exact : (p.tdiv (2 ^ (-e).toNat : ℕ) : ℝ) * 2 ^ (-e).toNat ≤ p := mod_cast exact
      conv_rhs => rw [down, zpow_neg, zpow_natCast, ← div_eq_mul_inv]
      rwa [le_div_iff₀ (by positivity)]

end Dyadic

theorem zero_le_nearest (num : ℕ) {den : ℕ} (pos : 0 < den) (e : ℤ) : 0 ≤ nearest num den e := by
  obtain ⟨number, value, -⟩ := value_nearest num pos e
  refine zero_le_iff.mpr ⟨number, ?_⟩
  rw [value]
  exact rounded_nonneg (EReal.coe_nonneg.mpr (by positivity))

theorem isFinite_nearest {num den : ℕ} (pos : 0 < den) {e : ℤ}
    (h : (num : ℝ) / den * 2 ^ e ≤ 7 * 2 ^ 125) :
    (nearest num den e).isFinite = true := by
  obtain ⟨number, value, -⟩ := value_nearest num pos e
  have stays : Stays (7 * 2 ^ 125) := by
    have := stays_natCast_mul (n := 7 * 2 ^ 21) (e := 104) (by norm_num) (by norm_num) (by norm_num)
    norm_num at this ⊢
    exact this
  have size : (0 : ℝ) ≤ num / den * 2 ^ e := by positivity
  obtain ⟨r, reads, -⟩ := Bounded.of_rounded number value ((abs_of_nonneg size).trans_le h) stays
  exact exists_reads_iff.mp ⟨r, reads⟩

namespace Dyadic

/-- The product of exponent and logarithm, at the scale of the series. -/
theorem scaled_le {x y : Dyadic} (pos : 0 < x.odd)
    (small : y.toReal * Real.log x.toReal ≤ 72 * Real.log 2) :
    ((if 0 ≤ y.exp then x.ln * y.odd * twoPow y.exp.toNat
      else (x.ln * y.odd).tdiv (twoPow (-y.exp).toNat) : ℤ) : ℝ) ≤ 126 * (Real.log 2 * scale) := by
  have unit : (0 : ℝ) < scale := mod_cast scale_pos
  have log2 : 0 < Real.log 2 := Real.log_pos one_lt_two
  refine shifted_le (by positivity) y.exp ?_
  have nonneg : 0 ≤ y.toReal := by
    unfold toReal
    positivity
  have most : y.toReal * max 0 (Real.log x.toReal) ≤ 72 * Real.log 2 := by
    rw [mul_max_of_nonneg _ _ nonneg, mul_zero]
    exact max_le (by positivity) small
  calc ((x.ln * y.odd : ℤ) : ℝ) * 2 ^ y.exp = x.ln * y.toReal := by
        rw [toReal]
        push_cast
        ring
    _ ≤ 7 / 4 * (scale * max 0 (Real.log x.toReal)) * y.toReal :=
        mul_le_mul_of_nonneg_right (ln_le pos) nonneg
    _ = 7 / 4 * scale * (y.toReal * max 0 (Real.log x.toReal)) := by ring
    _ ≤ 7 / 4 * scale * (72 * Real.log 2) := mul_le_mul_of_nonneg_left most (by positivity)
    _ = 126 * (Real.log 2 * scale) := by ring

theorem ln2_pos : 0 < Series.ln2 scale := by decide +kernel

/-- The power of two that is taken out of the exponential. -/
theorem div_ln2_le {l : ℤ} (h : (l : ℝ) ≤ 126 * (Real.log 2 * scale)) :
    l / Series.ln2 scale ≤ 126 := by
  have unit : (0 : ℝ) < scale := mod_cast scale_pos
  have below : (l : ℝ) < 127 * Series.ln2 scale := by
    have lower := le_ln2
    have upper := Real.log_two_lt_d9
    nlinarith
  have below : l < 127 * Series.ln2 scale := mod_cast below
  have := Int.ediv_lt_of_lt_mul ln2_pos below
  omega

theorem isFinite_series {x y : Dyadic} (pos : 0 < x.odd)
    (small : y.toReal * Real.log x.toReal ≤ 72 * Real.log 2) :
    (x.series false y).isFinite = true := by
  have unit : (0 : ℝ) < scale := mod_cast scale_pos
  have logarithm := scaled_le pos small
  unfold series
  simp only [Bool.false_eq_true, if_false]
  generalize (if 0 ≤ y.exp then x.ln * y.odd * twoPow y.exp.toNat
      else (x.ln * y.odd).tdiv (twoPow (-y.exp).toNat) : ℤ) = l at *
  have exponent := div_ln2_le logarithm
  -- what is left of the logarithm goes into the series
  have rest : l - l / Series.ln2 scale * Series.ln2 scale = l % Series.ln2 scale := by
    have whole := Int.emod_add_mul_ediv l (Series.ln2 scale)
    linarith
  have low := Int.emod_nonneg l ln2_pos.ne'
  have high := Int.emod_lt_of_pos l ln2_pos
  rw [rest]
  generalize l / Series.ln2 scale = k at *
  generalize l % Series.ln2 scale = r at *
  have series := Series.exp_le scale_pos low (by have := ln2_bounds.2; omega)
  have total : 3 * ((Series.exp scale r).toNat : ℝ) ≤ 10 * scale := by
    have : 3 * ((Series.exp scale r).toNat : ℤ) ≤ 10 * scale := by omega
    exact_mod_cast this
  have share : ((Series.exp scale r).toNat : ℝ) / scale ≤ 10 / 3 := by
    rw [div_le_iff₀ unit]
    linarith
  refine isFinite_nearest scale_pos ?_
  calc ((Series.exp scale r).toNat : ℝ) / scale * 2 ^ k ≤ 10 / 3 * 2 ^ (126 : ℤ) :=
        mul_le_mul share (zpow_le_zpow_right₀ one_le_two exponent) (by positivity) (by norm_num)
    _ ≤ 7 * 2 ^ 125 := by norm_num

theorem isFinite_pow {x y : Dyadic} (pos : 0 < x.odd)
    (small : y.toReal * Real.log x.toReal ≤ 72 * Real.log 2) :
    (x.pow false y).isFinite = true := by
  obtain ⟨posRoot, -, same⟩ := root_eq (-y.exp).toNat (x := x) (y := y) pos
  unfold pow
  simp only [Bool.false_eq_true, if_false, one_mul]
  generalize root (-y.exp).toNat x y = pair at *
  obtain ⟨x', y'⟩ := pair
  dsimp only at *
  rw [← same] at small
  split_ifs with fraction one exact
  · exact isFinite_series posRoot small
  -- no halving is left, so the exponent is whole
  all_goals
    have whole : y'.toReal = (y'.odd * twoPow y'.exp.toNat : ℕ) := by
      have point : y'.exp = (y'.exp.toNat : ℤ) := by omega
      rw [toReal, point, zpow_natCast, Int.toNat_natCast, twoPow_eq]
      push_cast
      rfl
    rw [whole] at small
    generalize y'.odd * twoPow y'.exp.toNat = n at *
    have power : x'.toReal ^ n ≤ 2 ^ 72 := by
      rw [← Real.log_le_log_iff (pow_pos (toReal_pos posRoot) n) (by positivity), Real.log_pow,
        Real.log_pow]
      exact_mod_cast small
    have scaled : (2 : ℝ) ^ (x'.exp * n) = (2 ^ x'.exp) ^ n := by rw [zpow_mul, zpow_natCast]
    rw [toReal, mul_pow, ← scaled] at power
  · refine isFinite_nearest one_pos ?_
    rw [one, Nat.cast_one, one_pow, one_mul] at power
    rw [Nat.cast_one, div_one, one_mul]
    exact power.trans (by norm_num)
  · refine isFinite_nearest one_pos ?_
    have raised : ((x'.odd.pow n : ℕ) : ℝ) = x'.odd ^ n := Nat.cast_pow x'.odd n
    rw [Nat.cast_one, div_one, raised]
    exact power.trans (by norm_num)
  · refine isFinite_series posRoot ?_
    rw [whole]
    exact small

theorem zero_le_series (x : Dyadic) (negative : Bool) (y : Dyadic) : 0 ≤ x.series negative y := by
  unfold series
  exact zero_le_nearest _ scale_pos _

theorem zero_le_pow {x : Dyadic} (negative : Bool) (y : Dyadic) (pos : 0 < x.odd) :
    0 ≤ x.pow negative y := by
  obtain ⟨posRoot, -, -⟩ := root_eq (-y.exp).toNat (x := x) (y := y) pos
  unfold pow
  generalize root (-y.exp).toNat x y = pair at *
  obtain ⟨x', y'⟩ := pair
  dsimp only at *
  generalize (if negative = true then -1 else 1 : ℤ) = sign
  split_ifs
  · exact zero_le_series _ _ _
  · exact zero_le_nearest _ one_pos _
  · exact zero_le_nearest _ (Nat.pow_pos posRoot) _
  · exact zero_le_nearest _ one_pos _
  · exact zero_le_series _ _ _

end Dyadic

/-! ## Powers of binary32 numbers -/

variable {x y : Float32} {r s : ℝ}

theorem isNegative_of_pos (h : 0 < x) : isNegative x = false := by
  obtain ⟨number, above⟩ := zero_lt_iff.mp h
  by_contra set
  have negative : sign x = .negative := by
    rw [sign_eq_signOf number, signOf, if_pos (by simpa using set)]
  unfold sign at negative
  unfold value at above
  cases parts : parts x with
  | notANumber => exact (isNumber_iff x).mp number parts
  | infinity s =>
    rw [parts] at negative above
    obtain rfl : s = .negative := negative
    exact not_lt_bot above
  | zero s =>
    rw [parts] at above
    exact lt_irrefl _ above
  | finite s m e pos =>
    rw [parts] at negative above
    obtain rfl : s = .negative := negative
    exact (partsValue_neg pos e).not_gt above

theorem abs_eq_self (number : IsNumber x) (h : isNegative x = false) : x.abs = x := by
  have positive : sign x = .positive := by
    rw [sign_eq_signOf number, signOf, if_neg (by simp [h])]
  have same : (parts x).abs = parts x := by
    unfold sign at positive
    cases parts : parts x with
    | notANumber => rfl
    | infinity s | zero s | finite s =>
      rw [parts] at positive
      obtain rfl : s = .positive := positive
      rfl
  calc x.abs = Float32.ofModel (Float32.Model.pack (parts x).abs) := rfl
    _ = Float32.ofBits x.toBits := by
        rw [same]
        rfl
    _ = x := Float32.ofBits_toBits x

/-- A positive finite number as a dyadic rational. -/
theorem toReal_ofFloat32 (reads : Reads x r) (pos : 0 < r) :
    0 < (Dyadic.ofFloat32 x).odd ∧ (Dyadic.ofFloat32 x).toReal = r := by
  have above : 0 < x :=
    zero_lt_iff.mpr ⟨reads.number, by rw [reads.value]; exact EReal.coe_pos.mpr pos⟩
  have field : exponentField x < 255 :=
    (encodes_parts x).field_lt (exists_reads_iff.mp ⟨r, reads⟩)
  have fields := reads_of_field field
  rw [signOf, isNegative_of_pos above, if_neg Bool.false_ne_true] at fields
  have same : significand x * 2 ^ exponent x = r := fields.unique reads
  have some : 0 < significand x := by
    refine Nat.pos_of_ne_zero fun zero => pos.ne ?_
    rw [← same, zero, Nat.cast_zero, zero_mul]
  obtain ⟨odd, strip⟩ := Dyadic.strip_eq 23 (d := ⟨significand x, exponent x⟩) some
  exact ⟨odd, strip.trans same⟩

theorem zero_le_zero : (0 : Float32) ≤ 0 := by decide

theorem zero_le_one : (0 : Float32) ≤ 1 := by decide

theorem zero_le_infinity : 0 ≤ infinity := by decide

/-- A base from zero up without a minus sign leaves only the magnitude to be raised. -/
theorem pow_eq (hx : IsNumber x) (positive : isNegative x = false) (hy : IsNumber y) :
    pow x y = if y == 0 || x == 1 then 1 else powMagnitude x y := by
  unfold pow
  have numberX : x.isNaN = false := hx
  have numberY : y.isNaN = false := hy
  simp only [numberX, numberY, positive, abs_eq_self hx positive, withSign, Bool.or_self,
    Bool.false_and, Bool.false_eq_true, if_false]

theorem exists_reads_pos (hx : 0 ≤ x) (finite : x.isFinite = true) (nonzero : ¬(x == 0) = true) :
    ∃ r, Reads x r ∧ 0 < r := by
  obtain ⟨number, nonneg⟩ := zero_le_iff.mp hx
  obtain ⟨r, reads⟩ := exists_reads_iff.mpr finite
  have zero : value 0 = 0 := rfl
  rw [beq_iff, zero] at nonzero
  refine ⟨r, reads, EReal.coe_pos.mp ?_⟩
  rw [← reads.value]
  exact nonneg.lt_of_ne fun equal => nonzero ⟨number, rfl, equal.symm⟩

theorem zero_le_powMagnitude (hx : 0 ≤ x) (y : Float32) : 0 ≤ powMagnitude x y := by
  unfold powMagnitude
  dsimp only
  split_ifs with one zero negative finite
  · exact zero_le_one
  · exact zero_le_infinity
  · exact zero_le_zero
  · exact zero_le_zero
  · exact zero_le_infinity
  · simp only [Bool.or_eq_true, not_or, Bool.not_eq_true', Bool.not_eq_false] at zero finite
    obtain ⟨r, reads, pos⟩ := exists_reads_pos hx finite.1 zero.1
    exact Dyadic.zero_le_pow _ _ (toReal_ofFloat32 reads pos).1

/-- A power of a base from zero up is a number from zero up, infinity included. -/
theorem zero_le_pow (hx : 0 ≤ x) (positive : isNegative x = false) (hy : IsNumber y) :
    0 ≤ pow x y := by
  rw [pow_eq (zero_le_iff.mp hx).1 positive hy]
  split_ifs
  · exact zero_le_one
  · exact zero_le_powMagnitude hx y

/-- A power that is at most `2 ^ 72` is finite. -/
theorem isFinite_pow (hx : Reads x r) (base : 0 ≤ r) (positive : isNegative x = false)
    (hy : Reads y s) (exponent : 0 ≤ s) (small : s * Real.log r ≤ 72 * Real.log 2) :
    (pow x y).isFinite = true := by
  have one : (1 : Float32).isFinite = true := by decide
  have finiteX : x.isFinite = true := exists_reads_iff.mp ⟨r, hx⟩
  have finiteY : y.isFinite = true := exists_reads_iff.mp ⟨s, hy⟩
  have nonnegX : 0 ≤ x := zero_le_iff.mpr ⟨hx.number, hx.value ▸ EReal.coe_nonneg.mpr base⟩
  have nonnegY : 0 ≤ y := zero_le_iff.mpr ⟨hy.number, hy.value ▸ EReal.coe_nonneg.mpr exponent⟩
  rw [pow_eq hx.number positive hy.number]
  split_ifs with trivial
  · exact one
  simp only [Bool.or_eq_true, not_or] at trivial
  obtain ⟨s', readsY, posY⟩ := exists_reads_pos nonnegY finiteY trivial.1
  obtain rfl := readsY.unique hy
  have above : isNegative y = false :=
    isNegative_of_pos (zero_lt_iff.mpr ⟨hy.number, hy.value ▸ EReal.coe_pos.mpr posY⟩)
  -- a zero exponent is done, so the exponent is positive
  unfold powMagnitude
  simp only [above, finiteX, finiteY, Bool.not_true, Bool.false_and, Bool.or_false,
    Bool.false_eq_true, if_false]
  split_ifs with same zero
  · exact one
  · rfl
  · obtain ⟨r', readsX, posX⟩ := exists_reads_pos nonnegX finiteX zero
    obtain rfl := readsX.unique hx
    obtain ⟨oddX, realX⟩ := toReal_ofFloat32 hx posX
    obtain ⟨-, realY⟩ := toReal_ofFloat32 hy posY
    refine Dyadic.isFinite_pow oddX ?_
    rwa [realX, realY]

end RayTracer.Number
