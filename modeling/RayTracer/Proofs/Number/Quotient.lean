import RayTracer.Proofs.Number.Arithmetic

/-! # Quotients and square roots of binary32 numbers

Both shift the mantissa far enough to the left that the whole part of the result has all its digits,
and say of the rest on which side of one half it lies.

* `value_div`: a quotient is the rounded product with the `inverse` of the divisor. The inverse of a
  zero is the infinity of its sign, so a division by zero needs no case of its own.
* `value_sqrt`: a square root is the rounded one, and of a number below zero there is none.
-/

namespace RayTracer.Number

open Float.Model (Format UnpackedFloat totalExponent)
open Float.Model.UnpackedFloat

/-! ## What is left of a quotient and of a root -/

/-- A quotient of whole numbers is its whole part and the place of the remainder. -/
theorem keeps_div (m : ℕ) {n : ℕ} (pos : 0 < n) :
    Keeps ((m : ℝ) / n) (.ofMantissaAndAccuracy (m / n) (accuracyOfFraction (m % n) n)) := by
  have posR : (0 : ℝ) < n := mod_cast pos
  -- the place of the remainder is that of its double in comparison with the divisor
  have quotient : (m : ℝ) / n = (m / n : ℕ) + (m % n : ℕ) / n := by
    have whole : (m : ℝ) = n * (m / n : ℕ) + (m % n : ℕ) := mod_cast (Nat.div_add_mod m n).symm
    rw [div_eq_iff posR.ne', add_mul, div_mul_cancel₀ _ posR.ne', mul_comm _ (n : ℝ)]
    exact whole
  have below : ((m % n : ℕ) : ℝ) < n := mod_cast Nat.mod_lt m pos
  rw [quotient]
  unfold accuracyOfFraction
  split_ifs with none
  · rw [none, Nat.cast_zero, zero_div, add_zero]
    exact keeps_exact _
  · have some : (0 : ℝ) < (m % n : ℕ) := mod_cast Nat.pos_of_ne_zero none
    obtain less | half | more := lt_trichotomy (2 * (m % n)) n
    · rw [compare_lt_iff_lt.mpr less]
      have lessR : 2 * ((m % n : ℕ) : ℝ) < n := mod_cast less
      have fraction : ((m % n : ℕ) : ℝ) / n < 1 / 2 := by
        rw [div_lt_div_iff₀ posR two_pos]
        linarith
      have some' := div_pos some posR
      constructor <;> linarith
    · rw [compare_eq_iff_eq.mpr half]
      have halfR : 2 * ((m % n : ℕ) : ℝ) = n := mod_cast half
      have fraction : ((m % n : ℕ) : ℝ) / n = 1 / 2 := by
        rw [div_eq_div_iff posR.ne' two_ne_zero]
        linarith
      rw [fraction]
      rfl
    · rw [compare_gt_iff_gt.mpr more]
      have moreR : (n : ℝ) < 2 * (m % n : ℕ) := mod_cast more
      have fraction : 1 / 2 < ((m % n : ℕ) : ℝ) / n := by
        rw [div_lt_div_iff₀ two_pos posR]
        linarith
      have below' : ((m % n : ℕ) : ℝ) / n < 1 := (div_lt_one posR).mpr below
      constructor <;> linarith

/-- A root of a whole number is its whole part and the place of the remainder; it never ends on a
half. -/
theorem keeps_sqrt (n : ℕ) :
    Keeps √n (.ofMantissaAndAccuracy n.sqrt
      (if n - n.sqrt * n.sqrt = 0 then .exact
        else .inexact (if n - n.sqrt * n.sqrt ≤ n.sqrt then .lt else .gt))) := by
  have lower : n.sqrt * n.sqrt ≤ n := Nat.sqrt_le n
  have upper : n < (n.sqrt + 1) * (n.sqrt + 1) := Nat.lt_succ_sqrt n
  generalize n.sqrt = root at lower upper ⊢
  have nonneg : (0 : ℝ) ≤ root := Nat.cast_nonneg root
  -- the square of a half more than the root is not whole, so the remainder decides
  split_ifs with exact small
  · have square : n = root * root := by omega
    rw [square, Nat.cast_mul, Real.sqrt_mul_self nonneg]
    exact keeps_exact root
  · have above : root * root + 1 ≤ n := by omega
    have below : n ≤ root * root + root := by omega
    have aboveR : (root : ℝ) * root + 1 ≤ n := mod_cast above
    have belowR : (n : ℝ) ≤ root * root + root := mod_cast below
    constructor
    · exact Real.lt_sqrt_of_sq_lt (by nlinarith only [aboveR])
    · rw [Real.sqrt_lt' (by linarith)]
      nlinarith only [belowR]
  · have above : root * root + root + 1 ≤ n := by omega
    have aboveR : (root : ℝ) * root + root + 1 ≤ n := mod_cast above
    have belowR : (n : ℝ) < (root + 1) * (root + 1) := mod_cast upper
    constructor
    · exact Real.lt_sqrt_of_sq_lt (by nlinarith only [aboveR])
    · rw [Real.sqrt_lt' (by linarith)]
      nlinarith only [belowR]

/-! ## Quotients -/

/-- Parts of two numbers that are not two zeros and not two infinities. -/
def Dividable (u v : UnpackedFloat) : Prop :=
  u ≠ .notANumber ∧ v ≠ .notANumber ∧ ¬(partsValue u = 0 ∧ partsValue v = 0) ∧
    ¬((partsValue u = ⊤ ∨ partsValue u = ⊥) ∧ (partsValue v = ⊤ ∨ partsValue v = ⊥))

/-- What a division by a number multiplies by. -/
noncomputable def partsInverse : UnpackedFloat → EReal
  | .zero s => partsValue (.infinity s)
  | u => (partsValue u)⁻¹

theorem lastPlace_div {m n : ℕ} {e f : ℤ} (posM : 0 < m) (posN : 0 < n) :
    Format.binary32.targetExponent (totalExponent m e - totalExponent n f) ≤
      lastPlace ((m : ℝ) * 2 ^ e / (n * 2 ^ f)) := by
  have left := magnitude_pos posM e
  have right := magnitude_pos posN f
  -- each logarithm is rounded down, so that of the quotient may be one less
  have first : (m.log2 + e) - (n.log2 + f) - 1 ≤ Int.log 2 ((m : ℝ) * 2 ^ e / (n * 2 ^ f)) := by
    rw [le_log_iff (div_pos left right), le_div_iff₀ right]
    calc (2 : ℝ) ^ ((m.log2 + e : ℤ) - (n.log2 + f) - 1) * (n * 2 ^ f)
        ≤ 2 ^ ((m.log2 + e : ℤ) - (n.log2 + f) - 1) * (2 ^ (n.log2 + 1) * 2 ^ f) := by
          gcongr
          linarith [lt_two_pow_log2 n]
      _ = 2 ^ m.log2 * 2 ^ e := by
          rw [← zpow_natCast, ← zpow_natCast, ← zpow_add₀ two_ne_zero, ← zpow_add₀ two_ne_zero,
            ← zpow_add₀ two_ne_zero]
          congr 1
          push_cast
          ring
      _ ≤ m * 2 ^ e := by
          gcongr
          exact two_pow_log2_le posM
  rw [targetExponent_eq, totalExponent, totalExponent, lastPlace, abs_of_pos (div_pos left right)]
  omega

theorem divide_represents (s : Sign) {m n : ℕ} {e f : ℤ} (posM : 0 < m) (posN : 0 < n) :
    Represents s (roundReal ((m : ℝ) * 2 ^ e / (n * 2 ^ f)))
      (roundWithAccuracy .binary32 s (divCore .binary32 m e n f).1 (divCore .binary32 m e n f).2.1
        (divCore .binary32 m e n f).2.2) := by
  unfold divCore
  have fine := (min_le_right (e - f) _).trans (lastPlace_div (e := e) (f := f) posM posN)
  have coarse :=
    min_le_left (e - f) (Format.binary32.targetExponent (totalExponent m e - totalExponent n f))
  -- of the target only this matters: it is no place past the last one of the quotient
  generalize min (e - f) (Format.binary32.targetExponent (totalExponent m e - totalExponent n f)) =
    target at *
  obtain ⟨k, rfl⟩ : ∃ k : ℕ, target = e - f - k := ⟨(e - f - target).toNat, by omega⟩
  have amount : (e - f - (e - f - k)).toNat = k := by omega
  dsimp only
  rw [amount]
  refine roundWithAccuracy_represents s (div_pos (magnitude_pos posM e) (magnitude_pos posN f)) ?_
    fine
  have shifted : (m : ℝ) * 2 ^ e / (n * 2 ^ f) / 2 ^ (e - f - k) = (m <<< k : ℕ) / n := by
    have nonzero : (n : ℝ) ≠ 0 := mod_cast posN.ne'
    rw [Nat.shiftLeft_eq, zpow_sub₀ two_ne_zero, zpow_sub₀ two_ne_zero, zpow_natCast]
    push_cast
    field_simp
  rw [shifted]
  exact keeps_div _ posN

theorem partsInverse_pos {m : ℕ} (pos : 0 < m) (e : ℤ) :
    0 < partsInverse (.finite .positive m e pos) :=
  EReal.coe_pos.mpr (inv_pos.mpr (magnitude_pos pos e))

theorem partsInverse_neg {m : ℕ} (pos : 0 < m) (e : ℤ) :
    partsInverse (.finite .negative m e pos) < 0 :=
  EReal.coe_lt_coe_iff.mpr (inv_lt_zero.mpr (neg_neg_of_pos (magnitude_pos pos e)))

theorem partsInverse_infinity (s : Sign) : partsInverse (.infinity s) = 0 := by
  cases s
  · exact EReal.inv_bot
  · exact EReal.inv_top

theorem div_computes {u v : UnpackedFloat} (hu : Stored u) (hv : Stored v) :
    Computes (UnpackedFloat.div .binary32 u v) (Dividable u v) (partsValue u * partsInverse v) := by
  cases hu with
  | notANumber => exact .undefined _ fun h => h.1 rfl
  | infinity s =>
    cases hv with
    | notANumber => cases s <;> exact .undefined _ fun h => h.2.1 rfl
    | infinity t =>
      refine .undefined _ fun h => h.2.2.2 ?_
      cases s <;> cases t <;> simp [partsValue]
    | zero t =>
      refine .infinity (by cases s <;> simp [Dividable, partsValue]) ?_
      cases s <;> cases t
      · exact EReal.bot_mul_bot.symm
      · exact EReal.bot_mul_top.symm
      · exact EReal.top_mul_bot.symm
      · exact EReal.top_mul_top.symm
    | @finite t n f pos =>
      have defined : Dividable (.infinity s) (.finite t n f pos) :=
        ⟨infinity_ne_notANumber s, finite_ne_notANumber t pos,
          fun h => partsValue_finite_ne_zero t f pos h.2, fun h => by simp [partsValue] at h⟩
      refine .infinity defined ?_
      cases s <;> cases t
      · exact (EReal.bot_mul_of_neg (partsInverse_neg pos _)).symm
      · exact (EReal.bot_mul_of_pos (partsInverse_pos pos _)).symm
      · exact (EReal.top_mul_of_neg (partsInverse_neg pos _)).symm
      · exact (EReal.top_mul_of_pos (partsInverse_pos pos _)).symm
  | zero s =>
    cases hv with
    | notANumber => exact .undefined _ fun h => h.2.1 rfl
    | infinity t =>
      exact .zero (by cases t <;> simp [Dividable, partsValue]) (zero_mul _).symm
    | zero t => exact .undefined _ fun h => h.2.2.1 ⟨rfl, rfl⟩
    | @finite t n f pos =>
      have defined : Dividable (.zero s) (.finite t n f pos) :=
        ⟨zero_ne_notANumber s, finite_ne_notANumber t pos,
          fun h => partsValue_finite_ne_zero t f pos h.2, fun h => by simp [partsValue] at h⟩
      exact .zero defined (zero_mul _).symm
  | @finite s m e pos =>
    cases hv with
    | notANumber => exact .undefined _ fun h => h.2.1 rfl
    | infinity t =>
      refine .zero (by cases t <;> simp [Dividable, partsValue]) ?_
      rw [partsInverse_infinity, mul_zero]
      rfl
    | zero t =>
      have defined : Dividable (.finite s m e pos) (.zero t) :=
        ⟨finite_ne_notANumber s pos, zero_ne_notANumber t,
          fun h => partsValue_finite_ne_zero s e pos h.1, fun h => by simp [partsValue] at h⟩
      refine .infinity defined ?_
      cases s <;> cases t
      · exact (EReal.mul_bot_of_neg (partsValue_neg pos _)).symm
      · exact (EReal.mul_top_of_neg (partsValue_neg pos _)).symm
      · exact (EReal.mul_bot_of_pos (partsValue_pos pos _)).symm
      · exact (EReal.mul_top_of_pos (partsValue_pos pos _)).symm
    | @finite t n f pos' =>
      have defined : Dividable (.finite s m e pos) (.finite t n f pos') :=
        ⟨finite_ne_notANumber s pos, finite_ne_notANumber t pos',
          fun h => partsValue_finite_ne_zero s e pos h.1, fun h => by simp [partsValue] at h⟩
      -- only here is anything rounded
      refine .represents defined (divide_represents (s / t) pos pos') ?_
      rw [signed_div]
      rfl

/-! ## Inverses -/

theorem partsInverse_nonneg {u : UnpackedFloat} (h : partsSign u = .positive) :
    0 ≤ partsInverse u := by
  cases u with
  | notANumber => exact EReal.inv_zero.ge
  | infinity s => exact (partsInverse_infinity s).ge
  | zero s =>
    obtain rfl : s = .positive := h
    exact le_top
  | finite s m e pos =>
    obtain rfl : s = .positive := h
    exact (partsInverse_pos pos e).le

/-- What is at least as large as the least positive number is not rounded to zero. -/
theorem rounded_ne_zero {r : ℝ} (h : 2 ^ (-149 : ℤ) ≤ |r|) : rounded r ≠ 0 := by
  have least : ((1 : ℕ) * 2 ^ (-149 : ℤ) : ℝ) = 2 ^ (-149 : ℤ) := by rw [Nat.cast_one, one_mul]
  -- the least number of each sign is not moved by rounding, so nothing beyond it comes to zero
  obtain above | below := le_abs.mp h
  · have still :=
      rounded_partsValue (.finite .positive one_pos ⟨by norm_num, le_rfl, .inl rfl⟩ (by norm_num))
    refine (lt_of_lt_of_le (partsValue_pos one_pos (-149)) ?_).ne'
    rw [← still]
    exact rounded_mono (EReal.coe_le_coe_iff.mpr (least.trans_le above))
  · have still :=
      rounded_partsValue (.finite .negative one_pos ⟨by norm_num, le_rfl, .inl rfl⟩ (by norm_num))
    refine (lt_of_le_of_lt ?_ (partsValue_neg one_pos (-149))).ne
    rw [← still]
    refine rounded_mono (EReal.coe_le_coe_iff.mpr ?_)
    show r ≤ -((1 : ℕ) * 2 ^ (-149 : ℤ))
    linarith

theorem rounded_inverse_finite_ne_zero (s : Sign) {m : ℕ} {e : ℤ} (pos : 0 < m)
    (place : InPlace m e) (fits : e ≤ 104) : rounded (partsInverse (.finite s m e pos)) ≠ 0 := by
  show rounded ((signed s ((m : ℝ) * 2 ^ e))⁻¹ : ℝ) ≠ 0
  refine rounded_ne_zero ?_
  have magnitude := magnitude_pos pos e
  have size : |(signed s (m * 2 ^ e))⁻¹| = ((m : ℝ) * 2 ^ e)⁻¹ := by
    rw [abs_inv, abs_signed, abs_of_pos magnitude]
  rw [size]
  calc (2 : ℝ) ^ (-149 : ℤ) ≤ (2 ^ 128)⁻¹ := by norm_num
    _ ≤ ((m : ℝ) * 2 ^ e)⁻¹ := inv_anti₀ magnitude (place.lt_of_fits fits).le

theorem rounded_partsInverse_ne_zero {u : UnpackedFloat} (hu : Stored u)
    (finite : u.isFinite = true) :
    rounded (partsInverse u) ≠ 0 := by
  cases hu with
  | notANumber => cases finite
  | infinity s => cases finite
  | zero s =>
    cases s
    · exact EReal.bot_ne_zero
    · exact EReal.top_ne_zero
  | finite s pos place fits => exact rounded_inverse_finite_ne_zero s pos place fits

/-! ## Square roots -/

/-- The square root of a number from zero up. -/
noncomputable def root : EReal → EReal
  | ⊤ => ⊤
  | ⊥ => 0
  | (x : ℝ) => (√x : ℝ)

theorem root_nonneg (x : EReal) : 0 ≤ root x := by
  induction x with
  | bot => exact le_rfl
  | coe x => exact EReal.coe_nonneg.mpr (Real.sqrt_nonneg x)
  | top => exact le_top

theorem lastPlace_sqrt {m : ℕ} (e : ℤ) (pos : 0 < m) :
    Format.binary32.targetExponent ((totalExponent m e + 1) / 2) ≤
      lastPlace √((m : ℝ) * 2 ^ e) := by
  have rootPos := Real.sqrt_pos.mpr (magnitude_pos pos e)
  have first : (m.log2 + e : ℤ) / 2 ≤ Int.log 2 √((m : ℝ) * 2 ^ e) := by
    rw [le_log_iff rootPos]
    refine Real.le_sqrt_of_sq_le ?_
    calc ((2 : ℝ) ^ ((m.log2 + e : ℤ) / 2)) ^ 2 = 2 ^ ((m.log2 + e : ℤ) / 2 * 2) := by
          rw [← zpow_natCast, ← zpow_mul]
          rfl
      _ ≤ 2 ^ (m.log2 + e : ℤ) := zpow_le_zpow_right₀ one_le_two (Int.ediv_mul_le _ two_ne_zero)
      _ = 2 ^ m.log2 * 2 ^ e := by rw [zpow_add₀ two_ne_zero, zpow_natCast]
      _ ≤ m * 2 ^ e := by
          gcongr
          exact two_pow_log2_le pos
  rw [targetExponent_eq, totalExponent, lastPlace, abs_of_pos rootPos]
  omega

theorem sqrt_represents {m : ℕ} (e : ℤ) (pos : 0 < m) :
    Represents .positive (roundReal √((m : ℝ) * 2 ^ e))
      (roundWithAccuracy .binary32 .positive (sqrtCore .binary32 m e).1 (sqrtCore .binary32 m e).2.1
        (sqrtCore .binary32 m e).2.2) := by
  unfold sqrtCore
  have fine :
      min (e.ediv 2) (Format.binary32.targetExponent ((totalExponent m e + 1).ediv 2)) ≤ _ :=
    (min_le_right ..).trans (lastPlace_sqrt e pos)
  have coarse :=
    min_le_left (e.ediv 2) (Format.binary32.targetExponent ((totalExponent m e + 1).ediv 2))
  generalize min (e.ediv 2) (Format.binary32.targetExponent ((totalExponent m e + 1).ediv 2)) =
    target at *
  -- the shift makes the exponent even, so that the root halves it
  have half : e.ediv 2 * 2 ≤ e := Int.ediv_mul_le e two_ne_zero
  obtain ⟨k, place⟩ : ∃ k : ℕ, e = 2 * target + k := ⟨(e - 2 * target).toNat, by omega⟩
  have amount : (e - 2 * target).toNat = k := by omega
  dsimp only
  rw [amount]
  refine roundWithAccuracy_represents .positive (Real.sqrt_pos.mpr (magnitude_pos pos e)) ?_ fine
  have shifted : √((m : ℝ) * 2 ^ e) / 2 ^ target = √(m <<< k : ℕ) := by
    have square : (m : ℝ) * 2 ^ e = (m <<< k : ℕ) * (2 ^ target * 2 ^ target) := by
      rw [Nat.shiftLeft_eq, place, zpow_add₀ two_ne_zero, two_mul, zpow_add₀ two_ne_zero,
        zpow_natCast]
      push_cast
      ring
    have unit : (0 : ℝ) < 2 ^ target := by positivity
    rw [square, Real.sqrt_mul (Nat.cast_nonneg _), Real.sqrt_mul_self unit.le,
      mul_div_cancel_right₀ _ unit.ne']
  rw [shifted]
  exact keeps_sqrt _

theorem sqrt_computes {u : UnpackedFloat} (hu : Stored u) :
    Computes (UnpackedFloat.sqrt .binary32 u) (u ≠ .notANumber ∧ 0 ≤ partsValue u)
      (root (partsValue u)) := by
  cases hu with
  | notANumber => exact .undefined _ fun h => h.1 rfl
  | infinity s =>
    cases s
    · exact .undefined _ fun h => absurd h.2 (not_le.mpr EReal.bot_lt_zero)
    · exact .infinity ⟨infinity_ne_notANumber .positive, le_top⟩ rfl
  | zero s =>
    refine .zero ⟨zero_ne_notANumber s, le_rfl⟩ ?_
    show (0 : EReal) = (√0 : ℝ)
    rw [Real.sqrt_zero, EReal.coe_zero]
  | @finite s m e pos =>
    cases s
    · exact .undefined _ fun h => absurd h.2 (not_le.mpr (partsValue_neg pos e))
    · exact .represents ⟨finite_ne_notANumber .positive pos, (partsValue_pos pos e).le⟩
        (sqrt_represents e pos) rfl

end RayTracer.Number
