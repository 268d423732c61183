import RayTracer.Proofs.Number.Mantissa

/-! # Numbers and their bits

Results are packed into 32 bits and unpacked again.

* `Stored` is what unpacking yields: the mantissa in place, and an exponent that fits.
* `unpack_pack_finite`: packing and unpacking keep a rounded number, unless it is too large.
* `value_stored` and `sign_stored`: what is read back from a rounded number once it is packed. These
  are all that the arithmetic needs to know about bits.
-/

namespace RayTracer.Number

open Float.Model (Format UnpackedFloat)
open Float.Model.UnpackedFloat

/-! ## Packing -/

/-- What unpacking yields: the mantissa in place, and an exponent that fits. -/
inductive Stored : UnpackedFloat → Prop
  | notANumber : Stored .notANumber
  | infinity (s : Sign) : Stored (.infinity s)
  | zero (s : Sign) : Stored (.zero s)
  | finite (s : Sign) {m : ℕ} {e : ℤ} (pos : 0 < m) (place : InPlace m e) (fits : e ≤ 104) :
      Stored (.finite s m e pos)

theorem toNat_one_append (v : BitVec 23) : (1#1 ++ v).toNat = 2 ^ 23 + v.toNat := by
  rw [BitVec.toNat_append, ← Nat.shiftLeft_add_eq_or_of_lt v.isLt]
  rfl

theorem stored_unpack (b : BitVec Format.binary32.numBits) : Stored (unpack .binary32 b) := by
  have mantissa : (unpackMantissa b).toNat < 2 ^ 23 := (unpackMantissa b).isLt
  have exponent : (unpackExponent b).toNat < 2 ^ 8 := (unpackExponent b).isLt
  have bias : ((Format.binary32.exponentBias : ℕ) : ℤ) +
      (Format.binary32.mantissaBitsWithoutImplicit : ℕ) = 150 := rfl
  unfold unpack
  rw [bias]
  dsimp only
  split_ifs with special fraction lowest none
  · exact .infinity _
  · exact .notANumber
  · exact .zero _
  · -- no leading digit: the lowest exponent
    have field : (unpackExponent b).toNat = 0 := by rw [lowest]; rfl
    exact .finite _ _ ⟨by omega, by omega, by omega⟩ (by omega)
  · -- a leading digit that is not stored
    have notSpecial : (unpackExponent b).toNat ≠ 255 := fun h => special (BitVec.eq_of_toNat_eq h)
    have notLowest : (unpackExponent b).toNat ≠ 0 := fun h => lowest (BitVec.eq_of_toNat_eq h)
    have full := toNat_one_append (unpackMantissa b)
    exact .finite _ _ ⟨by omega, by omega, by omega⟩ (by omega)

theorem getLsbD_append_append (sign : BitVec 1) (exponent : BitVec 8) (mantissa : BitVec 23) :
    (sign ++ exponent ++ mantissa).getLsbD 31 = sign.getLsbD 0 := by
  rw [BitVec.getLsbD_append, if_neg (by decide), BitVec.getLsbD_append, if_neg (by decide)]

theorem ofBitVec_unpackSign (s : Sign) (exponent : BitVec 8) (mantissa : BitVec 23) :
    Sign.ofBitVec (unpackSign (packComponents .binary32 s exponent mantissa)) = s := by
  have bit : unpackSign (packComponents .binary32 s exponent mantissa) = s.toBitVec := by
    ext i inside
    have first : i = 0 := by omega
    subst first
    simp only [unpackSign, packComponents, BitVec.getElem_cast, BitVec.extractLsb,
      BitVec.getElem_extractLsb']
    exact getLsbD_append_append s.toBitVec exponent mantissa
  rw [bit]
  cases s <;> rfl

theorem unpack_packComponents (s : Sign) (exponent : BitVec 8) (mantissa : BitVec 23) :
    unpack .binary32 (packComponents .binary32 s exponent mantissa) =
      if exponent = -1 then
        if mantissa = 0 then .infinity s else .notANumber
      else if exponent = 0 then
        if h : mantissa = 0 then .zero s
        else .finite s mantissa.toNat (exponent.toNat - 150 + 1)
          (Nat.pos_of_ne_zero fun zero => h (BitVec.eq_of_toNat_eq zero))
      else .finite s (1#1 ++ mantissa).toNat (exponent.toNat - 150)
        (by rw [toNat_one_append]; omega) := by
  unfold unpack
  simp only [unpackMantissa_packComponents, unpackExponent_packComponents, ofBitVec_unpackSign]
  rfl

/-- Packing keeps a number with a fitting exponent, and turns any other into an infinity. -/
theorem unpack_pack_finite (s : Sign) {m : ℕ} {e : ℤ} (pos : 0 < m) (place : InPlace m e) :
    unpack .binary32 (pack .binary32 (.finite s m e pos)) =
      if e ≤ 104 then .finite s m e pos else .infinity s := by
  obtain ⟨digits, least, normal⟩ := place
  have biased :
      (e + Format.binary32.exponentBias + Format.binary32.mantissaBitsWithoutImplicit).toNat =
      (e + 150).toNat := by
    show (e + 127 + 23).toNat = _
    omega
  have bits : Format.binary32.mantissaBits = 24 := rfl
  unfold pack
  simp only [biased, bits]
  by_cases fits : e ≤ 104
  · rw [if_pos fits, if_neg (show ¬2 ^ 8 ≤ (e + 150).toNat + 1 by omega)]
    obtain few | full := Nat.lt_or_ge m (2 ^ 23)
    · -- fewer than 24 digits are packed without an exponent
      have short := log2_of_few_digits few
      have field : (BitVec.ofNat 23 m).toNat = m := by
        rw [BitVec.toNat_ofNat, Nat.mod_eq_of_lt few]
      have nonzero : BitVec.ofNat 23 m ≠ 0 := by
        intro zero
        rw [zero] at field
        exact pos.ne field
      rw [if_neg (by omega), unpack_packComponents, if_neg (by decide),
        if_pos (show 0#8 = 0 from rfl), dif_neg nonzero]
      obtain rfl : e = -149 := normal.resolve_right (by omega)
      simp only [field]
      rfl
    · -- the first of 24 digits is left out, and the exponent is neither of the two special ones
      have long := log2_of_digits full digits
      have field : (BitVec.ofNat 8 (e + 150).toNat).toNat = (e + 150).toNat := by
        rw [BitVec.toNat_ofNat, Nat.mod_eq_of_lt (by omega)]
      have notSpecial : BitVec.ofNat 8 (e + 150).toNat ≠ -1 := by
        intro special
        rw [special] at field
        have : (255 : ℕ) = (e + 150).toNat := field
        omega
      have notLowest : BitVec.ofNat 8 (e + 150).toNat ≠ 0 := by
        intro lowest
        rw [lowest] at field
        have : (0 : ℕ) = (e + 150).toNat := field
        omega
      have mantissa : (1#1 ++ BitVec.ofNat 23 m).toNat = m := by
        rw [toNat_one_append, BitVec.toNat_ofNat]
        omega
      have exponent : (((e + 150).toNat : ℕ) : ℤ) - 150 = e := by omega
      rw [if_pos (by omega), unpack_packComponents, if_neg notSpecial, if_neg notLowest]
      simp only [mantissa, field, exponent]
  · rw [if_neg fits, if_pos (show 2 ^ 8 ≤ (e + 150).toNat + 1 by omega)]
    unfold packedInfinity
    rw [unpack_packComponents]
    rfl

/-! ## Values -/

theorem stored_parts (x : Float32) : Stored (parts x) := stored_unpack _

theorem isNumber_iff (x : Float32) : IsNumber x ↔ parts x ≠ .notANumber := by
  show (parts x).isNaN = false ↔ _
  cases parts x <;> simp [UnpackedFloat.isNaN]

theorem infinity_ne_notANumber (s : Sign) : UnpackedFloat.infinity s ≠ .notANumber :=
  UnpackedFloat.noConfusion

theorem zero_ne_notANumber (s : Sign) : UnpackedFloat.zero s ≠ .notANumber :=
  UnpackedFloat.noConfusion

theorem finite_ne_notANumber (s : Sign) {m : ℕ} {e : ℤ} (pos : 0 < m) :
    UnpackedFloat.finite s m e pos ≠ .notANumber :=
  UnpackedFloat.noConfusion

theorem partsValue_ne_infinity {u : UnpackedFloat} (finite : u.isFinite = true) :
    partsValue u ≠ ⊤ ∧ partsValue u ≠ ⊥ := by
  cases u with
  | notANumber => cases finite
  | infinity s => cases finite
  | zero s => exact ⟨EReal.zero_ne_top, EReal.zero_ne_bot⟩
  | finite s m e pos => exact ⟨EReal.coe_ne_top _, EReal.coe_ne_bot _⟩

/-! ## Rounded numbers, once stored -/

/-- What is read back of a result that is packed into bits. -/
def stored (u : UnpackedFloat) : UnpackedFloat := unpack .binary32 (pack .binary32 u)

theorem stored_notANumber : stored .notANumber = .notANumber := rfl

theorem stored_infinity (s : Sign) : stored (.infinity s) = .infinity s := by cases s <;> rfl

theorem stored_zero (s : Sign) : stored (.zero s) = .zero s := by cases s <;> rfl

theorem stored_of_stored {u : UnpackedFloat} (h : Stored u) : stored u = u := by
  cases h with
  | notANumber => exact stored_notANumber
  | infinity s => exact stored_infinity s
  | zero s => exact stored_zero s
  | finite s pos place fits => rw [stored, unpack_pack_finite s pos place, if_pos fits]

theorem InPlace.lt_of_fits {m : ℕ} {e : ℤ} (place : InPlace m e) (fits : e ≤ 104) :
    (m : ℝ) * 2 ^ e < 2 ^ 128 := by
  have digits : (m : ℝ) < 2 ^ 24 := mod_cast place.digits
  calc (m : ℝ) * 2 ^ e < 2 ^ 24 * 2 ^ e := by gcongr
    _ ≤ 2 ^ 24 * 2 ^ (104 : ℤ) := by
        gcongr
        exact one_le_two
    _ = 2 ^ 128 := by norm_num

theorem InPlace.le_of_not_fits {m : ℕ} {e : ℤ} (place : InPlace m e) (large : 104 < e) :
    (2 : ℝ) ^ 128 ≤ m * 2 ^ e := by
  have digits : (2 : ℝ) ^ 23 ≤ m := mod_cast place.normal.resolve_left (by omega)
  calc (2 : ℝ) ^ 128 = 2 ^ 23 * 2 ^ (105 : ℤ) := by norm_num
    _ ≤ 2 ^ 23 * 2 ^ e := by
        gcongr
        · exact one_le_two
        · omega
    _ ≤ m * 2 ^ e := by gcongr

theorem signed_zero (s : Sign) : signed s 0 = 0 := by cases s <;> simp [signed]

theorem abs_signed (s : Sign) (r : ℝ) : |signed s r| = |r| := by cases s <;> simp [signed]

theorem value_stored {s : Sign} {r : ℝ} {u : UnpackedFloat} (h : Represents s r u) :
    partsValue (stored u) = overflow (signed s r) := by
  cases h with
  | zero =>
    rw [stored_zero, signed_zero, overflow_of_abs_lt (by norm_num)]
    rfl
  | @finite m e pos place =>
    have magnitude : (0 : ℝ) ≤ m * 2 ^ e := by positivity
    rw [stored, unpack_pack_finite s pos place]
    split_ifs with fits
    · rw [overflow_of_abs_lt]
      · rfl
      · rw [abs_signed, abs_of_nonneg magnitude]
        exact place.lt_of_fits fits
    · -- what does not fit has all its digits, so it is as large as an overflow
      have large := place.le_of_not_fits (not_le.mp fits)
      cases s with
      | positive => exact (if_pos large).symm
      | negative => rw [overflow, signed, if_neg (by linarith), if_pos (by linarith)]; rfl

theorem sign_stored {s : Sign} {r : ℝ} {u : UnpackedFloat} (h : Represents s r u) :
    partsSign (stored u) = s := by
  cases h with
  | zero => rw [stored_zero]; rfl
  | finite pos place =>
    rw [stored, unpack_pack_finite s pos place]
    split_ifs <;> rfl

theorem stored_ne_notANumber {s : Sign} {r : ℝ} {u : UnpackedFloat} (h : Represents s r u) :
    stored u ≠ .notANumber := by
  cases h with
  | zero => rw [stored_zero]; exact UnpackedFloat.noConfusion
  | finite pos place =>
    rw [stored, unpack_pack_finite s pos place]
    split_ifs <;> exact UnpackedFloat.noConfusion

end RayTracer.Number
