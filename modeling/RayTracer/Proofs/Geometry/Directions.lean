import RayTracer.Proofs.Geometry.Slab
import RayTracer.Proofs.Number.Finite

/-! # Directions

How far from 1 a computed unit vector can be, for any vector whatever: tiny ones whose squares are
lost, huge ones whose squares overflow, NaN.

* `Vec3.Scaled`: the numbers that come up where a vector is not normalised to zero. All of them are
  finite.
* `Vec3.bounded_normalizeOrZero`: no component exceeds 5/4.
* `Vec3.dot_self_normalizeOrZero`: unless it is zero, the square of the length is at least 1/64.
-/

namespace RayTracer

open Number

theorem Axis.forall_iff {p : Axis → Prop} : (∀ axis, p axis) ↔ p .x ∧ p .y ∧ p .z := by
  refine ⟨fun all => ⟨all .x, all .y, all .z⟩, fun ⟨first, second, third⟩ axis => ?_⟩
  cases axis
  · exact first
  · exact second
  · exact third

instance {p : Axis → Prop} [DecidablePred p] : Decidable (∀ axis, p axis) :=
  decidable_of_iff _ Axis.forall_iff.symm

instance (v : Vec3) : Decidable v.IsFinite :=
  inferInstanceAs (Decidable (∀ axis, (v.along axis).isFinite = true))

variable {v w : Vec3} {axis : Axis}

namespace Vec3

@[simp] theorem along_add (v w : Vec3) (axis : Axis) :
    (v + w).along axis = v.along axis + w.along axis := by
  cases axis <;> rfl

@[simp] theorem along_sub (v w : Vec3) (axis : Axis) :
    (v - w).along axis = v.along axis - w.along axis := by
  cases axis <;> rfl

@[simp] theorem along_neg (v : Vec3) (axis : Axis) : (-v).along axis = -v.along axis := by
  cases axis <;> rfl

@[simp] theorem along_mul (v w : Vec3) (axis : Axis) :
    (v * w).along axis = v.along axis * w.along axis := by
  cases axis <;> rfl

@[simp] theorem along_smul (s : Float32) (v : Vec3) (axis : Axis) :
    (s * v).along axis = s * v.along axis := by
  cases axis <;> rfl

@[simp] theorem along_mul_scalar (v : Vec3) (s : Float32) (axis : Axis) :
    (v * s).along axis = v.along axis * s := by
  cases axis <;> rfl

@[simp] theorem along_div (v : Vec3) (s : Float32) (axis : Axis) :
    (v / s).along axis = v.along axis / s := by
  cases axis <;> rfl

@[simp] theorem along_zero (axis : Axis) : zero.along axis = 0 := by
  cases axis <;> rfl

/-! ## Lengths -/

/-- The rounded sum of the squares of three components. -/
noncomputable def squareSum (c : Axis → ℝ) : ℝ :=
  roundReal (roundReal (roundReal (c .x * c .x) + roundReal (c .y * c .y)) +
    roundReal (c .z * c .z))

theorem reads_of_square {x : Float32} {q : ℝ} (h : Reads (x * x) q) :
    ∃ a, Reads x a ∧ roundReal (a * a) = q ∧ 0 ≤ q := by
  obtain ⟨a, b, reads, same, rounds⟩ := reads_of_mul h
  obtain rfl := reads.unique same
  exact ⟨a, reads, rounds, h.nonneg (zero_le_mul_self h.number)⟩

/-- Each square is below the sum, since rounding is monotone and leaves a square alone. -/
theorem reads_of_dot_self {d : ℝ} (h : Reads (v.dot v) d) :
    ∃ c : Axis → ℝ, (∀ axis, Reads (v.along axis) (c axis) ∧ roundReal (c axis * c axis) ≤ d) ∧
      squareSum c = d := by
  obtain ⟨p, q, readsP, readsQ, rfl⟩ := reads_of_add h
  obtain ⟨m, n, readsM, readsN, rfl⟩ := reads_of_add readsP
  obtain ⟨x, componentX, rfl, nonnegX⟩ := reads_of_square readsM
  obtain ⟨y, componentY, rfl, nonnegY⟩ := reads_of_square readsN
  obtain ⟨z, componentZ, rfl, nonnegZ⟩ := reads_of_square readsQ
  have left := readsP.stays.le_roundReal (le_add_of_nonneg_right nonnegZ)
  have belowX := (readsM.stays.le_roundReal (le_add_of_nonneg_right nonnegY)).trans left
  have belowY := (readsN.stays.le_roundReal (le_add_of_nonneg_left nonnegX)).trans left
  have belowZ := readsQ.stays.le_roundReal
    (le_add_of_nonneg_left (roundReal_nonneg (add_nonneg nonnegX nonnegY)))
  refine ⟨@Axis.rec (fun _ => ℝ) x y z, fun axis => ?_, rfl⟩
  cases axis
  · exact ⟨componentX, belowX⟩
  · exact ⟨componentY, belowY⟩
  · exact ⟨componentZ, belowZ⟩

/-- The components `c`, the square `d` of the length, the length `l` and its reciprocal `r`, where
the reciprocal is a positive finite number. -/
structure Scaled (v : Vec3) (c : Axis → ℝ) (d l r : ℝ) : Prop where
  components : ∀ axis, Reads (v.along axis) (c axis) ∧ roundReal (c axis * c axis) ≤ d
  square : squareSum c = d
  stays : Stays d
  positive : 0 < d
  length : roundReal √d = l
  reciprocal : roundReal l⁻¹ = r
  reads : Reads (1 / v.length) r

theorem exists_scaled (finite : (1 / v.length).isFinite = true) (positive : 0 < 1 / v.length) :
    ∃ c d l r, v.Scaled c d l r := by
  obtain ⟨r, reads⟩ := exists_reads_iff.mpr finite
  have posR : 0 < r := by
    have above := (zero_lt_iff.mp positive).2
    rw [reads.value] at above
    exact EReal.coe_pos.mp above
  obtain ⟨l, readsLength, posL, inverse⟩ := reads_of_reciprocal reads posR
  obtain ⟨d, readsSquare, nonneg, root⟩ := reads_of_sqrt readsLength
  have posD : 0 < d := by
    refine nonneg.lt_of_ne fun zero => posL.ne ?_
    rw [← root, ← zero, Real.sqrt_zero, roundReal_zero]
  obtain ⟨c, components, sum⟩ := reads_of_dot_self readsSquare
  exact ⟨c, d, l, r, components, sum, readsSquare.stays, posD, root, inverse, reads⟩

theorem normalizeOrZero_cases (v : Vec3) :
    v.normalizeOrZero = zero ∨ v.normalizeOrZero = v * (1 / v.length) ∧
      ∃ c d l r, v.Scaled c d l r := by
  unfold normalizeOrZero
  dsimp only
  split_ifs with scales
  · simp only [Bool.and_eq_true, decide_eq_true_eq] at scales
    exact .inr ⟨rfl, exists_scaled scales.1 scales.2⟩
  · exact .inl rfl

namespace Scaled

variable {c : Axis → ℝ} {d l r : ℝ}

/-- The length is the root of its square, up to a 1000th. -/
theorem length_bounds (h : v.Scaled c d l r) : 0.999 * √d ≤ l ∧ l ≤ 1.001 * √d := by
  have normal : 2 ^ (-126 : ℤ) ≤ √d := by
    refine Real.le_sqrt_of_sq_le (le_trans ?_ (h.stays.least h.positive))
    norm_num
  obtain ⟨low, high⟩ := abs_le.mp (abs_roundReal_sub_le_of_normal normal)
  rw [h.length] at low high
  have root := Real.sqrt_nonneg d
  constructor <;> linarith

theorem reciprocal_bounds (h : v.Scaled c d l r) : 0 < l ∧ 0.999 ≤ l * r ∧ l * r ≤ 1.001 := by
  obtain ⟨least, most⟩ := h.length_bounds
  have root : 0 < √d := Real.sqrt_pos.mpr h.positive
  have pos : 0 < l := lt_of_lt_of_le (by positivity) least
  have small : √d < 2 ^ 64 := by
    rw [Real.sqrt_lt' (by positivity), ← pow_mul]
    exact h.stays.lt
  have normal : 2 ^ (-126 : ℤ) ≤ l⁻¹ := by
    calc (2 : ℝ) ^ (-126 : ℤ) ≤ (2 ^ 65)⁻¹ := by norm_num
      _ ≤ l⁻¹ := inv_anti₀ pos (by linarith)
  obtain ⟨low, high⟩ := abs_le.mp (abs_roundReal_sub_le_of_normal normal)
  rw [h.reciprocal] at low high
  have one : l * l⁻¹ = 1 := mul_inv_cancel₀ pos.ne'
  have scaledLow := mul_le_mul_of_nonneg_left low pos.le
  have scaledHigh := mul_le_mul_of_nonneg_left high pos.le
  refine ⟨pos, ?_, ?_⟩ <;> linarith

/-- No more than half of a square is lost. -/
theorem square_le (h : v.Scaled c d l r) (axis : Axis) : c axis * c axis ≤ 1.5 * d := by
  have below := (h.components axis).2
  have nonneg : 0 ≤ c axis * c axis := mul_self_nonneg _
  have least := h.stays.least h.positive
  obtain ⟨low, -⟩ := abs_le.mp (abs_roundReal_sub_le (c axis * c axis))
  rw [abs_of_nonneg nonneg] at low
  -- where the place is lost, the sum is at least twice that
  obtain part | place := max_choice (c axis * c axis / 2 ^ 24) (2 ^ (-150 : ℤ))
  · rw [part] at low
    linarith
  · have half : (2 : ℝ) ^ (-150 : ℤ) ≤ d / 2 := by
      calc (2 : ℝ) ^ (-150 : ℤ) = 2 ^ (-149 : ℤ) / 2 := by norm_num
        _ ≤ d / 2 := by gcongr
    rw [place] at low
    generalize (2 : ℝ) ^ (-150 : ℤ) = place at *
    linarith

theorem le_squares (h : v.Scaled c d l r) : d ≤ 8 * (c .x * c .x + c .y * c .y + c .z * c .z) := by
  have nonneg (axis : Axis) : 0 ≤ c axis * c axis := mul_self_nonneg _
  have square (axis : Axis) : roundReal (c axis * c axis) ≤ 2 * (c axis * c axis) :=
    roundReal_le_two_mul (nonneg axis)
  have rounds (axis : Axis) : 0 ≤ roundReal (c axis * c axis) := roundReal_nonneg (nonneg axis)
  have first := roundReal_le_two_mul (add_nonneg (rounds .x) (rounds .y))
  have second :=
    roundReal_le_two_mul (add_nonneg (roundReal_nonneg (add_nonneg (rounds .x) (rounds .y)))
      (rounds .z))
  rw [← h.square, squareSum]
  linarith [square .x, square .y, square .z, nonneg .z]

theorem abs_mul_le (h : v.Scaled c d l r) (axis : Axis) : |c axis * r| ≤ 5 / 4 := by
  obtain ⟨pos, low, high⟩ := h.reciprocal_bounds
  have square := h.square_le axis
  have root := h.length_bounds.1
  have exact : √d * √d = d := Real.mul_self_sqrt h.positive.le
  have length : 0.998 * d ≤ l * l := by nlinarith [Real.sqrt_nonneg d]
  refine abs_le_of_sq_le_sq ?_ (by norm_num)
  have scale : 0 ≤ r * r := mul_self_nonneg r
  have first : c axis * c axis * (r * r) ≤ 1.5 * d * (r * r) :=
    mul_le_mul_of_nonneg_right square scale
  have second : 0.998 * d * (r * r) ≤ l * l * (r * r) := mul_le_mul_of_nonneg_right length scale
  have third : l * r * (l * r) ≤ 1.001 * 1.001 := mul_le_mul high high (by linarith) (by norm_num)
  linarith

/-- A length close to 1 has a component that is not small. -/
theorem exists_le_abs_mul (h : v.Scaled c d l r) : ∃ axis, 1 / 8 ≤ |c axis * r| := by
  -- three small components do not add up to the length
  by_contra all
  simp only [not_exists, not_le] at all
  obtain ⟨pos, low, -⟩ := h.reciprocal_bounds
  have root := h.length_bounds.2
  have exact : √d * √d = d := Real.mul_self_sqrt h.positive.le
  have length : l * l ≤ 1.003 * d := by nlinarith [Real.sqrt_nonneg d]
  have small (axis : Axis) : c axis * c axis * (r * r) ≤ 1 / 64 := by
    have square : (c axis * r) ^ 2 ≤ (1 / 8) ^ 2 :=
      sq_le_sq' (abs_lt.mp (all axis)).1.le (abs_lt.mp (all axis)).2.le
    linarith
  have scale : 0 ≤ r * r := mul_self_nonneg r
  have first : l * l * (r * r) ≤ 1.003 * d * (r * r) := mul_le_mul_of_nonneg_right length scale
  have second := mul_le_mul_of_nonneg_right h.le_squares scale
  have third : 0.999 * 0.999 ≤ l * r * (l * r) := mul_le_mul low low (by norm_num) (by linarith)
  linarith [small .x, small .y, small .z]

end Scaled

/-! ## Unit vectors -/

theorem stays_five_quarters : Stays (5 / 4) := by
  have := stays_natCast_mul (n := 5) (e := -2) (by norm_num) (by norm_num) (by norm_num)
  norm_num at this
  exact this

theorem bounded_normalizeOrZero (v : Vec3) (axis : Axis) :
    Bounded (5 / 4) (v.normalizeOrZero.along axis) := by
  obtain zero | ⟨product, c, d, l, r, scaled⟩ := v.normalizeOrZero_cases
  · rw [zero, along_zero]
    exact bounded_zero (by norm_num)
  · obtain ⟨number, value⟩ := (scaled.components axis).1.mul scaled.reads
    rw [product, along_mul_scalar]
    exact .of_rounded number value (scaled.abs_mul_le axis) stays_five_quarters

/-- A direction that is not zero comes from a vector whose length is finite. -/
theorem isFinite_length (nonzero : v.normalizeOrZero ≠ zero) : v.length.isFinite = true := by
  obtain zero | ⟨-, c, d, l, r, scaled⟩ := v.normalizeOrZero_cases
  · exact absurd zero nonzero
  · obtain ⟨pos, low, -⟩ := scaled.reciprocal_bounds
    obtain ⟨l', reads, -, -⟩ := reads_of_reciprocal scaled.reads (by nlinarith)
    exact exists_reads_iff.mp ⟨l', reads⟩

/-- A vector that has a direction has finite components. -/
theorem normalizeOrZero_eq_zero (h : ¬v.IsFinite) : v.normalizeOrZero = zero := by
  obtain zero | ⟨-, c, d, l, r, scaled⟩ := v.normalizeOrZero_cases
  · exact zero
  · exact absurd (fun axis => exists_reads_iff.mp ⟨c axis, (scaled.components axis).1⟩) h

theorem bounded_dot {a b : ℝ} (hv : ∀ axis, Bounded a (v.along axis))
    (hw : ∀ axis, Bounded b (w.along axis)) (one : Stays (a * b)) (two : Stays (a * b + a * b))
    (three : Stays (a * b + a * b + a * b)) :
    Bounded (a * b + a * b + a * b) (v.dot w) := by
  have product (axis : Axis) : Bounded (a * b) (v.along axis * w.along axis) :=
    (hv axis).mul (hw axis) one
  exact ((product .x).add (product .y) two).add (product .z) three

theorem bounded_dot_unit (hv : ∀ axis, Bounded (5 / 4) (v.along axis))
    (hw : ∀ axis, Bounded (5 / 4) (w.along axis)) :
    Bounded (75 / 16) (v.dot w) := by
  have one := stays_natCast_mul (n := 25) (e := -4) (by norm_num) (by norm_num) (by norm_num)
  have two := stays_natCast_mul (n := 25) (e := -3) (by norm_num) (by norm_num) (by norm_num)
  have three := stays_natCast_mul (n := 75) (e := -4) (by norm_num) (by norm_num) (by norm_num)
  have bound := bounded_dot hv hw
  norm_num at one two three bound
  exact bound one two three

/-- The angle between computed unit vectors, as a number. -/
theorem bounded_dot_normalizeOrZero (v w : Vec3) :
    Bounded (75 / 16) (v.normalizeOrZero.dot w.normalizeOrZero) :=
  bounded_dot_unit v.bounded_normalizeOrZero w.bounded_normalizeOrZero

theorem dot_self_normalizeOrZero (v : Vec3) :
    v.normalizeOrZero = zero ∨ ∃ d, Reads (v.normalizeOrZero.dot v.normalizeOrZero) d ∧
      1 / 64 ≤ d := by
  obtain zero | ⟨product, c, d, l, r, scaled⟩ := v.normalizeOrZero_cases
  · exact .inl zero
  · obtain ⟨e, reads, -⟩ := v.bounded_dot_normalizeOrZero v
    refine .inr ⟨e, reads, ?_⟩
    obtain ⟨u, components, -⟩ := reads_of_dot_self reads
    -- one component is large, and no other takes away from its square
    obtain ⟨axis, large⟩ := scaled.exists_le_abs_mul
    obtain ⟨component, below⟩ := components axis
    have eighth : Stays (1 / 8) := by
      have := stays_zpow (k := -3) (by norm_num) (by norm_num)
      norm_num at this ⊢
      exact this
    have square : Stays (1 / 64) := by
      have := stays_zpow (k := -6) (by norm_num) (by norm_num)
      norm_num at this ⊢
      exact this
    have rounds : roundReal (c axis * r) = u axis := by
      obtain ⟨-, value⟩ := (scaled.components axis).1.mul scaled.reads
      rw [product, along_mul_scalar] at component
      exact roundReal_eq_of_rounded (value.symm.trans component.value)
    have size : 1 / 8 ≤ |u axis| := rounds ▸ eighth.le_abs_roundReal large
    refine le_trans (square.le_roundReal ?_) below
    rw [← abs_mul_abs_self]
    nlinarith

/-- Nothing faces in the direction of the zero vector, not even an infinite one. -/
theorem dot_zero_eq_zero (v : Vec3) : maxNum (v.dot zero) 0 = 0 := by
  obtain zero | ⟨-, above⟩ := maxNum_zero_cases (v.dot zero)
  · exact zero
  · change 0 < v.x * 0 + v.y * 0 + v.z * 0 at above
    obtain ⟨number, positive⟩ := zero_lt_iff.mp above
    obtain ⟨numberXY, numberZ, -⟩ := add_isNumber_iff.mp number
    obtain ⟨numberX, numberY, -⟩ := add_isNumber_iff.mp numberXY
    rw [value_add number, value_add numberXY, value_mul_zero numberX, value_mul_zero numberY,
      value_mul_zero numberZ]
      at positive
    simp only [add_zero, rounded_zero, lt_irrefl] at positive

end Vec3

end RayTracer
