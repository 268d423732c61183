import RayTracer.Number.Binary32
import RayTracer.Proofs.Number.Finite

/-! # Numbers made from bits

The encoding read directly, and what `nearest` makes of a quotient.

* `Encodes`: the parts of a number in terms of its fields. So `significand` and `exponent` take a
  finite number apart (`reads_of_field`).
* `value_nearest`: `nearest num den e` is the rounded value of `num / den * 2 ^ e`.

The encoding of a positive number counts the numbers below it. So a significand that is rounded up
to `2 ^ 24` needs no care: it is the encoding of the next power of two, and after the largest number
that of infinity.
-/

namespace RayTracer.Number

open Float.Model (Format UnpackedFloat)
open Float.Model.UnpackedFloat

variable {x : Float32}

/-! ## Fields -/

/-- The parts of a number in terms of its fields. -/
inductive Encodes (x : Float32) (s : Sign) : UnpackedFloat → Prop
  | infinity (highest : exponentField x = 255) (none : fractionField x = 0) :
      Encodes x s (.infinity s)
  | notANumber (highest : exponentField x = 255) (some : fractionField x ≠ 0) :
      Encodes x s .notANumber
  | zero (fits : exponentField x < 255) (none : significand x = 0) : Encodes x s (.zero s)
  | finite (fits : exponentField x < 255) (pos : 0 < significand x) :
      Encodes x s (.finite s (significand x) (exponent x) pos)

/-- The sign that the sign bit stands for. -/
def signOf (x : Float32) : Sign := if isNegative x then .negative else .positive

theorem toNat_unpackExponent (b : UInt32) :
    (@unpackExponent .binary32 b.toBitVec).toNat = b.toNat / 2 ^ 23 % 2 ^ 8 := by
  simp only [unpackExponent, BitVec.toNat_cast, BitVec.extractLsb_toNat, Nat.shiftRight_eq_div_pow]
  rfl

theorem toNat_unpackMantissa (b : UInt32) :
    (@unpackMantissa .binary32 b.toBitVec).toNat = b.toNat % 2 ^ 23 := by
  simp only [unpackMantissa, BitVec.toNat_cast, BitVec.extractLsb_toNat, Nat.shiftRight_eq_div_pow,
    Nat.pow_zero, Nat.div_one]
  rfl

theorem isNegative_iff (x : Float32) : isNegative x = true ↔ 2 ^ 31 ≤ x.toBits.toNat := by
  rw [isNegative, decide_eq_true_iff, UInt32.le_iff_toNat_le]
  rfl

theorem ofBitVec_unpackSign_eq (x : Float32) :
    Sign.ofBitVec (@unpackSign .binary32 x.toBits.toBitVec) = signOf x := by
  have bit : (@unpackSign .binary32 x.toBits.toBitVec).toNat = x.toBits.toNat / 2 ^ 31 % 2 := by
    simp only [unpackSign, BitVec.toNat_cast, BitVec.extractLsb_toNat, Nat.shiftRight_eq_div_pow]
    rfl
  have word : x.toBits.toNat < 2 ^ 32 := x.toBits.toNat_lt
  rw [signOf]
  by_cases negative : isNegative x = true
  · rw [if_pos negative]
    refine if_neg fun zero => ?_
    rw [zero] at bit
    have clear : (0 : ℕ) = x.toBits.toNat / 2 ^ 31 % 2 := bit
    have set := (isNegative_iff x).mp negative
    omega
  · rw [if_neg negative]
    refine if_pos (BitVec.eq_of_toNat_eq ?_)
    rw [isNegative_iff] at negative
    rw [bit, Nat.div_eq_of_lt (not_le.mp negative)]
    rfl

theorem Encodes.of_eq {s : Sign} {m : ℕ} {e : ℤ} (fits : exponentField x < 255) (pos : 0 < m)
    (mantissa : m = significand x) (place : e = exponent x) : Encodes x s (.finite s m e pos) := by
  subst mantissa place
  exact .finite fits pos

theorem encodes_parts (x : Float32) : Encodes x (signOf x) (parts x) := by
  show Encodes x (signOf x) (unpack .binary32 x.toBits.toBitVec)
  have field : _ = exponentField x := toNat_unpackExponent x.toBits
  have fraction : _ = fractionField x := toNat_unpackMantissa x.toBits
  have byte : exponentField x < 2 ^ 8 := Nat.mod_lt _ (Nat.two_pow_pos 8)
  have bias : ((Format.binary32.exponentBias : ℕ) : ℤ) +
      (Format.binary32.mantissaBitsWithoutImplicit : ℕ) = 150 := rfl
  unfold unpack
  dsimp only
  rw [ofBitVec_unpackSign_eq, bias]
  -- infinity, NaN, zero, a subnormal number, a normal one
  split_ifs with special none lowest none
  · exact .infinity (by rw [← field, special]; rfl) (by rw [← fraction, none]; rfl)
  · refine .notANumber (by rw [← field, special]; rfl) fun zero => none (BitVec.eq_of_toNat_eq ?_)
    rw [fraction, zero]
    rfl
  all_goals
    have fits : exponentField x < 255 := by
      have : exponentField x ≠ 255 :=
        fun highest => special (BitVec.eq_of_toNat_eq (field.trans highest))
      omega
  · have zeroField : exponentField x = 0 := by rw [← field, lowest]; rfl
    refine .zero fits ?_
    rw [significand, if_pos zeroField, ← fraction, none]
    rfl
  · have zeroField : exponentField x = 0 := by rw [← field, lowest]; rfl
    refine .of_eq fits _ ?_ ?_
    · rw [significand, if_pos zeroField, fraction]
    · rw [exponent, field, zeroField]
      rfl
  · have someField : exponentField x ≠ 0 :=
      fun zero => lowest (BitVec.eq_of_toNat_eq (field.trans zero))
    refine .of_eq fits _ ?_ ?_
    · rw [significand, if_neg someField, toNat_one_append, fraction]
      rfl
    · rw [exponent, field]
      omega

theorem Encodes.reads {s : Sign} {u : UnpackedFloat} (encodes : Encodes x s u)
    (fits : exponentField x < 255) :
    u ≠ .notANumber ∧ partsValue u = (signed s (significand x * 2 ^ exponent x) : ℝ) := by
  cases encodes with
  | infinity highest | notANumber highest => omega
  | zero _ none =>
    refine ⟨zero_ne_notANumber s, ?_⟩
    rw [none, Nat.cast_zero, zero_mul, signed_zero]
    rfl
  | finite _ pos => exact ⟨finite_ne_notANumber s pos, rfl⟩

/-- A finite number is its significand at its exponent. -/
theorem reads_of_field (fits : exponentField x < 255) :
    Reads x (signed (signOf x) (significand x * 2 ^ exponent x)) := by
  obtain ⟨number, value⟩ := (encodes_parts x).reads fits
  exact ⟨(isNumber_iff x).mpr number, value⟩

/-- A power of two has no digits below the leading one. -/
theorem reads_power {r : ℝ} {k : ℤ}
    (fields : exponentField x < 255 ∧ isNegative x = false ∧ significand x = 2 ^ 23 ∧
      exponent x = k - 23)
    (same : 2 ^ k = r) : Reads x r := by
  obtain ⟨fits, positive, leading, place⟩ := fields
  have reads := reads_of_field fits
  rw [signOf, positive, if_neg Bool.false_ne_true, leading, place] at reads
  have scaled : ((2 ^ 23 : ℕ) : ℝ) * 2 ^ (k - 23) = r := by
    rw [← same, zpow_sub₀ two_ne_zero, Nat.cast_pow, Nat.cast_ofNat, zpow_ofNat]
    exact mul_div_cancel₀ _ (by norm_num)
  rwa [scaled] at reads

theorem Encodes.field_lt {s : Sign} {u : UnpackedFloat} (encodes : Encodes x s u)
    (finite : u.isFinite = true) :
    exponentField x < 255 := by
  cases encodes with
  | infinity | notANumber => cases finite
  | zero fits | finite fits => exact fits

theorem Encodes.partsSign {s : Sign} {u : UnpackedFloat} (encodes : Encodes x s u)
    (number : u ≠ .notANumber) :
    partsSign u = s := by
  cases encodes with
  | notANumber => exact absurd rfl number
  | infinity | zero | finite => rfl

theorem sign_eq_signOf (number : IsNumber x) : sign x = signOf x :=
  (encodes_parts x).partsSign ((isNumber_iff x).mp number)

/-! ## Numbers from bits -/

/-- Up to infinity every word is the encoding of a number without a sign. -/
theorem toBits_ofBits {b : UInt32} (h : b.toNat ≤ 0x7f800000) : (Float32.ofBits b).toBits = b := by
  have valid : Format.binary32.Valid b.toBitVec := by
    refine ⟨fun special some => absurd (BitVec.eq_of_toNat_eq ?_) some⟩
    have field := toNat_unpackExponent b
    rw [special] at field
    have highest : (255 : ℕ) = b.toNat / 2 ^ 23 % 2 ^ 8 := field
    rw [toNat_unpackMantissa]
    show b.toNat % 2 ^ 23 = 0
    omega
  exact UInt32.toBitVec_inj.mp (pack_unpack_of_valid valid)

theorem isNegative_ofBits {b : UInt32} (h : b.toNat ≤ 0x7f800000) :
    isNegative (Float32.ofBits b) = false := by
  rw [Bool.eq_false_iff, ne_eq, isNegative_iff, toBits_ofBits h]
  omega

/-- What is encoded by a significand at a place, carried into the exponent field. -/
theorem fields_of_bits {m : ℕ} {unit : ℤ} (least : -149 ≤ unit) (normal : unit = -149 ∨ 2 ^ 23 ≤ m)
    (bits : x.toBits.toNat = (unit + 149).toNat * 2 ^ 23 + m)
    (fits : m < 2 ^ 24 ∧ unit ≤ 104 ∨ m = 2 ^ 24 ∧ unit < 104) :
    exponentField x < 255 ∧ (significand x : ℝ) * 2 ^ exponent x = m * 2 ^ unit := by
  have field : exponentField x = x.toBits.toNat / 2 ^ 23 % 2 ^ 8 := rfl
  have fraction : fractionField x = x.toBits.toNat % 2 ^ 23 := rfl
  have power : twoPow 23 = 2 ^ 23 := rfl
  rw [bits] at field fraction
  refine ⟨by omega, ?_⟩
  obtain few | many := Nat.lt_or_ge m (2 ^ 23)
  · obtain rfl : unit = -149 := normal.resolve_right (by omega)
    have lowest : exponentField x = 0 := by omega
    have digits : significand x = m := by
      rw [significand, if_pos lowest]
      omega
    rw [digits, exponent, lowest]
    rfl
  · have some : exponentField x ≠ 0 := by omega
    obtain ⟨digits, place⟩ | ⟨full, place⟩ := fits
    · have same : significand x = m := by
        rw [significand, if_neg some]
        omega
      have last : exponent x = unit := by
        rw [exponent]
        omega
      rw [same, last]
    · -- the carry leaves a leading one, one place up
      have same : significand x = 2 ^ 23 := by
        rw [significand, if_neg some]
        omega
      have last : exponent x = unit + 1 := by
        rw [exponent]
        omega
      rw [same, last, full, zpow_add_one₀ two_ne_zero]
      push_cast
      ring

/-- A significand at a place, encoded, is a number of that value, and past the largest number
infinity. -/
theorem value_ofBits {m : ℕ} {unit : ℤ} (digits : m ≤ 2 ^ 24) (least : -149 ≤ unit)
    (most : unit ≤ 104) (normal : unit = -149 ∨ 2 ^ 23 ≤ m) :
    let x := Float32.ofBits (UInt32.ofNat ((unit + 149).toNat * twoPow 23 + m))
    IsNumber x ∧ value x = overflow (m * 2 ^ unit) ∧ isNegative x = false := by
  intro x
  have power : twoPow 23 = 2 ^ 23 := rfl
  have word : (UInt32.ofNat ((unit + 149).toNat * twoPow 23 + m)).toNat =
      (unit + 149).toNat * 2 ^ 23 + m := by
    rw [power, UInt32.toNat_ofNat', Nat.mod_eq_of_lt (by omega)]
  have small : (UInt32.ofNat ((unit + 149).toNat * twoPow 23 + m)).toNat ≤ 0x7f800000 := by
    rw [word]
    omega
  have positive : isNegative x = false := isNegative_ofBits small
  -- one past the largest number has the bits of infinity
  by_cases largest : m = 2 ^ 24 ∧ unit = 104
  · obtain ⟨rfl, rfl⟩ := largest
    have infinite : overflow ((2 ^ 24 : ℕ) * 2 ^ (104 : ℤ)) = ⊤ := if_pos (by norm_num)
    have highest : x = infinity := by decide +kernel
    rw [highest, infinite]
    exact ⟨rfl, rfl, rfl⟩
  · have fits : m < 2 ^ 24 ∧ unit ≤ 104 ∨ m = 2 ^ 24 ∧ unit < 104 := by omega
    have bits : x.toBits.toNat = (unit + 149).toNat * 2 ^ 23 + m := by
      rw [toBits_ofBits small, word]
    obtain ⟨field, magnitude⟩ := fields_of_bits least normal bits fits
    have reads := reads_of_field field
    rw [signOf, positive, if_neg Bool.false_ne_true, magnitude] at reads
    change Reads x (m * 2 ^ unit) at reads
    refine ⟨reads.number, reads.value.trans (overflow_of_abs_lt ?_).symm, positive⟩
    have nonneg : (0 : ℝ) ≤ m * 2 ^ unit := by positivity
    rw [abs_of_nonneg nonneg]
    obtain ⟨few, place⟩ | ⟨rfl, place⟩ := fits
    · calc (m : ℝ) * 2 ^ unit < 2 ^ 24 * 2 ^ unit := by
            gcongr
            exact_mod_cast few
        _ ≤ 2 ^ 24 * 2 ^ (104 : ℤ) := by
            gcongr
            exact one_le_two
        _ = 2 ^ 128 := by norm_num
    · calc ((2 ^ 24 : ℕ) : ℝ) * 2 ^ unit ≤ (2 ^ 24 : ℕ) * 2 ^ (103 : ℤ) := by
            gcongr
            · exact one_le_two
            · omega
        _ < 2 ^ 128 := by norm_num

/-! ## Rounding a quotient -/

/-- Comparing twice the remainder with the divisor is comparing the fraction of the quotient with a
half. -/
theorem roundQuotient_eq (n : ℕ) {d : ℕ} (pos : 0 < d) :
    (roundQuotient n d : ℤ) = roundEven ((n : ℝ) / d) := by
  have divisor : (0 : ℝ) < d := mod_cast pos
  have floor : ⌊(n : ℝ) / d⌋ = (n / d : ℕ) := by
    rw [Int.floor_div_natCast, Int.floor_natCast, Int.natCast_div]
  have fraction : Int.fract ((n : ℝ) / d) = (n % d : ℕ) / d := by
    have whole : (n : ℝ) = d * (n / d : ℕ) + (n % d : ℕ) := mod_cast (Nat.div_add_mod n d).symm
    rw [Int.fract, floor, eq_div_iff divisor.ne', sub_mul, div_mul_cancel₀ _ divisor.ne',
      Int.cast_natCast]
    linarith
  have less : ((n % d : ℕ) : ℝ) / d < 1 / 2 ↔ 2 * (n % d) < d := by
    rw [div_lt_div_iff₀ divisor two_pos, one_mul, mul_comm]
    norm_cast
  have more : 1 / 2 < ((n % d : ℕ) : ℝ) / d ↔ d < 2 * (n % d) := by
    rw [div_lt_div_iff₀ two_pos divisor, one_mul, mul_comm _ (2 : ℝ)]
    norm_cast
  simp only [roundQuotient, roundEven, fraction, floor, less, more]
  obtain below | tie | above := lt_trichotomy (2 * (n % d)) d
  · rw [compare_lt_iff_lt.mpr below, if_pos below]
  · rw [compare_eq_iff_eq.mpr tie, if_neg tie.not_lt, if_neg tie.not_gt]
    push_cast
    rfl
  · rw [compare_gt_iff_gt.mpr above, if_neg above.not_gt, if_pos above]
    rfl

theorem cast_shiftLeft (n k : ℕ) : ((n <<< k : ℕ) : ℝ) = n * 2 ^ (k : ℤ) := by
  rw [Nat.shiftLeft_eq, zpow_natCast]
  push_cast
  rfl

theorem cast_shift_div (num den : ℕ) (s : ℤ) :
    ((num <<< s.toNat : ℕ) : ℝ) / (den <<< (-s).toNat : ℕ) = num / den * 2 ^ s := by
  have split : (2 : ℝ) ^ s = 2 ^ (s.toNat : ℤ) / 2 ^ ((-s).toNat : ℤ) := by
    rw [← zpow_sub₀ two_ne_zero]
    congr 1
    omega
  rw [cast_shiftLeft, cast_shiftLeft, split, mul_div_mul_comm]

theorem log2Quotient_eq {num den : ℕ} (posN : 0 < num) (posD : 0 < den) :
    log2Quotient num den = Int.log 2 ((num : ℝ) / den) := by
  have divisor : (0 : ℝ) < den := mod_cast posD
  have quotient : (0 : ℝ) < num / den := div_pos (mod_cast posN) divisor
  have leastN : (2 : ℝ) ^ (num.log2 : ℤ) ≤ num := mod_cast two_pow_log2_le posN
  have leastD : (2 : ℝ) ^ (den.log2 : ℤ) ≤ den := mod_cast two_pow_log2_le posD
  have mostN : (num : ℝ) < 2 ^ (num.log2 + 1 : ℤ) := by
    have := lt_two_pow_log2 num
    exact_mod_cast (lt_add_one _).trans_le this
  have mostD : (den : ℝ) < 2 ^ (den.log2 + 1 : ℤ) := by
    have := lt_two_pow_log2 den
    exact_mod_cast (lt_add_one _).trans_le this
  have low : (2 : ℝ) ^ ((num.log2 : ℤ) - den.log2 - 1) ≤ num / den := by
    rw [sub_sub, zpow_sub₀ two_ne_zero]
    exact div_le_div₀ (Nat.cast_nonneg num) leastN divisor mostD.le
  have high : (num : ℝ) / den < 2 ^ ((num.log2 : ℤ) - den.log2 + 1) := by
    rw [sub_add_eq_add_sub, zpow_sub₀ two_ne_zero]
    exact div_lt_div₀ mostN leastD (by positivity) (by positivity)
  have above := (le_log_iff quotient _).mpr low
  have below := (log_lt_iff quotient _).mpr high
  -- the test decides between the two exponents that are left
  have test (k : ℤ) : den <<< k.toNat ≤ num <<< (-k).toNat ↔ k ≤ Int.log 2 ((num : ℝ) / den) := by
    have scaled := cast_shift_div num den (-k)
    rw [neg_neg] at scaled
    have place : (0 : ℝ) < (den <<< k.toNat : ℕ) := by
      rw [cast_shiftLeft]
      positivity
    rw [le_log_iff quotient, ← Nat.cast_le (α := ℝ), ← one_le_div place, scaled, zpow_neg,
      ← div_eq_mul_inv, one_le_div (by positivity)]
  unfold log2Quotient
  dsimp only
  split_ifs with reached <;> rw [test] at reached <;> omega

theorem log_mul_zpow {x : ℝ} (pos : 0 < x) (e : ℤ) : Int.log 2 (x * 2 ^ e) = Int.log 2 x + e := by
  have scaled : 0 < x * 2 ^ e := by positivity
  have low : Int.log 2 x + e ≤ Int.log 2 (x * 2 ^ e) := by
    rw [le_log_iff scaled, zpow_add₀ two_ne_zero]
    gcongr
    exact (le_log_iff pos _).mp le_rfl
  have high : Int.log 2 (x * 2 ^ e) < Int.log 2 x + e + 1 := by
    rw [log_lt_iff scaled, add_right_comm, zpow_add₀ two_ne_zero]
    gcongr
    exact (log_lt_iff pos _).mp (lt_add_one _)
  omega

theorem rounded_of_large {x : ℝ} (h : 2 ^ 128 ≤ x) : rounded x = ⊤ := by
  have last : lastPlace (2 ^ 128) = 105 :=
    lastPlace_eq (by positivity) (by norm_num) (by norm_num) (.inr (by norm_num))
  have still : roundReal (2 ^ 128) = 2 ^ 128 := by
    refine roundReal_of_multiple (n := 2 ^ 23) ?_
    rw [last]
    norm_num
  exact if_pos (still.symm.trans_le (roundReal_mono h))

theorem rounded_of_small {x : ℝ} (pos : 0 < x) (h : x < 2 ^ (-150 : ℤ)) : rounded x = 0 := by
  rw [rounded_coe, roundReal_of_small pos h, overflow_of_abs_lt (by norm_num)]
  rfl

/-- `nearest` rounds once: its value is that of the nearest number, and it has no minus sign. -/
theorem value_nearest (num : ℕ) {den : ℕ} (pos : 0 < den) (e : ℤ) :
    IsNumber (nearest num den e) ∧ value (nearest num den e) = rounded (num / den * 2 ^ e : ℝ) ∧
      isNegative (nearest num den e) = false := by
  have divisor : (0 : ℝ) < den := mod_cast pos
  obtain rfl | some := Nat.eq_zero_or_pos num
  · have zero : nearest 0 den e = 0 := by simp [nearest]
    rw [zero, Nat.cast_zero, zero_div, zero_mul, EReal.coe_zero, rounded_zero]
    exact ⟨rfl, rfl, rfl⟩
  have quotient : (0 : ℝ) < num / den := div_pos (mod_cast some) divisor
  have top : log2Quotient num den + e = Int.log 2 ((num : ℝ) / den * 2 ^ e) := by
    rw [log_mul_zpow quotient, log2Quotient_eq some pos]
  have scaled := cast_shift_div num den (e - lastPlace (num / den * 2 ^ e))
  have size : (0 : ℝ) < num / den * 2 ^ e := by positivity
  rw [zpow_sub₀ two_ne_zero, ← mul_div_assoc] at scaled
  unfold nearest
  dsimp only
  rw [if_neg some.ne', top]
  generalize (num : ℝ) / den * 2 ^ e = x at *
  -- beyond the range, below half the least number, or rounded at the last place
  split_ifs with large small
  · rw [rounded_of_large]
    · exact ⟨rfl, rfl, rfl⟩
    · exact_mod_cast (le_log_iff size 128).mp large
  · rw [rounded_of_small size ((log_lt_iff size _).mp small)]
    exact ⟨rfl, rfl, rfl⟩
  · have unit : max (Int.log 2 x - 23) (-149) = lastPlace x := by rw [lastPlace, abs_of_pos size]
    rw [unit]
    have place : (0 : ℕ) < den <<< (-(e - lastPlace x)).toNat := by
      rw [Nat.shiftLeft_eq]
      positivity
    have rounds := roundQuotient_eq (num <<< (e - lastPlace x).toNat) place
    rw [scaled] at rounds
    generalize roundQuotient (num <<< (e - lastPlace x).toNat)
      (den <<< (-(e - lastPlace x)).toNat) = m at *
    have digits : m ≤ 2 ^ 24 := by
      have most := roundEven_lastPlace_le size
      omega
    have normal : lastPlace x = -149 ∨ 2 ^ 23 ≤ m := by
      refine (least_le_lastPlace x).eq_or_lt.imp Eq.symm fun normal => ?_
      have least := le_roundEven_lastPlace size normal
      omega
    have same : (m : ℝ) * 2 ^ lastPlace x = roundReal x := by
      rw [roundReal, ← rounds, Int.cast_natCast]
    have result := value_ofBits digits (least_le_lastPlace x) (by omega) normal
    rwa [same] at result

end RayTracer.Number
