import RayTracer.Geometry.Overlap
import RayTracer.Proofs.Geometry.Corners

/-! # Reciprocals instead of divisions

The slab test multiplies by the reciprocal of each direction component. Division by the component
rounds once less, so where a ray only touches a box the two ways can decide differently
(`Box.isHit_ne_overlaps_touching`). They agree if every reciprocal is exact, and also if the times
found by division overlap or miss each other by more than a millionth (`Box.isHit_eq_overlaps`).

* `Near p q`: `p` is as far from `q` as a product with a rounded reciprocal can be from the
  quotient. Extrema keep this, so it passes from the crossings to the ends of their common part
  (`Interval.meetAll_related`).
* `Box.overlaps_iff` brings the division into the form that the slab test has.
-/

namespace RayTracer

namespace Number

/-! ## Products with rounded reciprocals -/

/-- What rounding the reciprocal can change in a quotient. -/
noncomputable def spread (y : ℝ) : ℝ := |y| / (2 ^ 21 : ℕ) + ((2 ^ 147 : ℕ) : ℝ)⁻¹

theorem spread_eq (y : ℝ) : spread y = |y| / 2 ^ 21 + 2 ^ (-147 : ℤ) := by
  rw [spread, zpow_neg]
  norm_cast

theorem add_spread_mono : Monotone fun y => y + spread y := by
  intro y z h
  have change := (abs_le.mp (abs_abs_sub_abs_le y z)).2
  rw [abs_of_nonpos (sub_nonpos.mpr h)] at change
  simp only [spread_eq]
  linarith

theorem sub_spread_mono : Monotone fun y => y - spread y := by
  intro y z h
  have change := (abs_le.mp (abs_abs_sub_abs_le z y)).2
  rw [abs_of_nonneg (sub_nonneg.mpr h)] at change
  simp only [spread_eq]
  linarith

/-- The two were rounded to numbers within the spread of the second one, before too large ones
overflowed. -/
def Near (p q : EReal) : Prop :=
  ∃ x y : ℝ, p = overflow x ∧ q = overflow y ∧ y - spread y ≤ x ∧ x ≤ y + spread y

variable {p q p' q' : EReal}

theorem Near.max (h : Near p q) (h' : Near p' q') : Near (max p p') (max q q') := by
  obtain ⟨x, y, rfl, rfl, low, high⟩ := h
  obtain ⟨x', y', rfl, rfl, low', high'⟩ := h'
  refine ⟨Max.max x x', Max.max y y', (overflow_mono.map_max).symm,
    (overflow_mono.map_max).symm, ?_, ?_⟩
  · exact sub_spread_mono.map_max.trans_le (max_le_max low low')
  · exact (max_le_max high high').trans_eq add_spread_mono.map_max.symm

theorem Near.min (h : Near p q) (h' : Near p' q') : Near (min p p') (min q q') := by
  obtain ⟨x, y, rfl, rfl, low, high⟩ := h
  obtain ⟨x', y', rfl, rfl, low', high'⟩ := h'
  refine ⟨Min.min x x', Min.min y y', (overflow_mono.map_min).symm,
    (overflow_mono.map_min).symm, ?_, ?_⟩
  · exact sub_spread_mono.map_min.trans_le (min_le_min low low')
  · exact (min_le_min high high').trans_eq add_spread_mono.map_min.symm

theorem near_overflow (r : ℝ) : Near (overflow r) (overflow r) := by
  have positive : 0 ≤ spread r := by
    rw [spread_eq]
    positivity
  exact ⟨r, r, rfl, rfl, by linarith, by linarith⟩

theorem near_top : Near ⊤ ⊤ := by
  have large : overflow (2 ^ 128) = ⊤ := if_pos le_rfl
  exact large ▸ near_overflow _

theorem near_bot : Near ⊥ ⊥ := by
  have large : overflow (-2 ^ 128) = ⊥ := (if_neg (by norm_num)).trans (if_pos le_rfl)
  exact large ▸ near_overflow _

theorem near_value (x : Float32) : Near (value x) (value x) := by
  have stays : rounded (value x) = value x := rounded_partsValue (stored_parts x)
  generalize value x = v at *
  induction v with
  | top => exact near_top
  | bot => exact near_bot
  | coe r => exact stays ▸ near_overflow _

/-- So much larger that no rounding of the two can change which is larger. -/
structure Clears (q q' : EReal) : Prop where
  apart : q * (1.000001 : ℝ) + (10 ^ (-40 : ℤ) : ℝ) < q'
  bounded : q * (1.000001 : ℝ) + (10 ^ (-40 : ℤ) : ℝ) < (2 ^ 127 : ℝ)

theorem nonneg_of_overflow {y : ℝ} (h : 0 ≤ overflow y) : 0 ≤ y := by
  by_contra below
  rw [not_le] at below
  unfold overflow at h
  split_ifs at h with large small
  · linarith
  · exact absurd h (not_le.mpr EReal.bot_lt_zero)
  · exact absurd (EReal.coe_nonneg.mp h) (not_le.mpr below)

theorem Clears.real {y y' : ℝ} (h : Clears (overflow y) (overflow y')) (nonneg : 0 ≤ y') :
    y * 1.000001 + 10 ^ (-40 : ℤ) < y' ∧ y * 1.000001 + 10 ^ (-40 : ℤ) < 2 ^ 127 := by
  obtain ⟨first, second⟩ := h
  by_cases large : 2 ^ 128 ≤ y
  · rw [overflow, if_pos large, EReal.top_mul_coe_of_pos (by norm_num), EReal.top_add_coe] at second
    exact absurd second not_top_lt
  by_cases small : y ≤ -2 ^ 128
  · have tiny : (10 : ℝ) ^ (-40 : ℤ) < 1 := by norm_num
    constructor <;> linarith
  have same : overflow y = y := overflow_of_abs_lt (abs_lt.mpr ⟨not_le.mp small, not_le.mp large⟩)
  rw [same, ← EReal.coe_mul, ← EReal.coe_add] at first second
  have below := EReal.coe_lt_coe_iff.mp second
  refine ⟨?_, below⟩
  obtain fits | huge := lt_or_ge y' (2 ^ 128)
  · rwa [overflow_of_abs_lt (by rwa [abs_of_nonneg nonneg]), EReal.coe_lt_coe_iff] at first
  · linarith

/-- What is so much larger stays larger. -/
theorem Near.lt (h : Near p q) (h' : Near p' q') (nonneg : 0 ≤ q') (clears : Clears q q') :
    p < p' := by
  obtain ⟨x, y, rfl, rfl, -, high⟩ := h
  obtain ⟨x', y', rfl, rfl, low, -⟩ := h'
  replace nonneg := nonneg_of_overflow nonneg
  obtain ⟨apart, bounded⟩ := clears.real nonneg
  have tiny : (10 : ℝ) ^ (-40 : ℤ) < 1 := by norm_num
  have slack : (2 : ℝ) ^ (-147 : ℤ) * 100 ≤ 10 ^ (-40 : ℤ) := by norm_num
  have positive : (0 : ℝ) < 2 ^ (-147 : ℤ) := by positivity
  rw [spread_eq] at low high
  generalize (2 : ℝ) ^ (-147 : ℤ) = unit at *
  generalize (10 : ℝ) ^ (-40 : ℤ) = margin at *
  rw [abs_of_nonneg nonneg] at low
  -- each of the two errors is less than half of the gap
  have less : x < x' ∧ x < 2 ^ 128 := by
    obtain above | below := le_total 0 y
    · rw [abs_of_nonneg above] at high
      constructor <;> linarith
    · rw [abs_of_nonpos below] at high
      constructor <;> linarith
  have above : -2 ^ 128 < x' := by linarith
  unfold overflow
  rw [if_neg (not_le.mpr less.2), if_neg (not_le.mpr above)]
  split_ifs
  · exact bot_lt_top
  · exact EReal.bot_lt_coe x'
  · exact EReal.coe_lt_top x
  · exact EReal.coe_lt_coe_iff.mpr less.1

/-- The reciprocal of a number below `2 ^ 128` is above `2 ^ -128`, where the last place is still
small. -/
theorem abs_reciprocal_sub_le {d : ℝ} (nonzero : d ≠ 0) (small : |d| < 2 ^ 128) :
    |roundReal d⁻¹ - d⁻¹| ≤ |d⁻¹| / 2 ^ 22 := by
  have least : (2 : ℝ) ^ (-128 : ℤ) ≤ |d⁻¹| := by
    rw [abs_inv]
    calc (2 : ℝ) ^ (-128 : ℤ) = (2 ^ 128)⁻¹ := by norm_num
      _ ≤ |d|⁻¹ := inv_anti₀ (abs_pos.mpr nonzero) small.le
  refine (abs_roundReal_sub_le d⁻¹).trans (max_le ?_ ?_)
  · have nonneg := abs_nonneg d⁻¹
    linarith
  · calc (2 : ℝ) ^ (-150 : ℤ) = 2 ^ (-128 : ℤ) / 2 ^ 22 := by norm_num
      _ ≤ |d⁻¹| / 2 ^ 22 := by gcongr

theorem near_mul_reciprocal (v : ℝ) {d : ℝ} (nonzero : d ≠ 0) (small : |d| < 2 ^ 128) :
    |roundReal (v * roundReal d⁻¹) - roundReal (v / d)| ≤ spread (roundReal (v / d)) := by
  have reciprocal : |v * roundReal d⁻¹ - v / d| ≤ |v / d| / 2 ^ 22 := by
    rw [div_eq_mul_inv, ← mul_sub, abs_mul, abs_mul, mul_div_assoc]
    exact mul_le_mul_of_nonneg_left (abs_reciprocal_sub_le nonzero small) (abs_nonneg v)
  have product := abs_roundReal_sub_le_add (v * roundReal d⁻¹)
  have quotient := abs_roundReal_sub_le_add (v / d)
  have sizeProduct := abs_sub_abs_le_abs_sub (v * roundReal d⁻¹) (v / d)
  have sizeQuotient := abs_sub_abs_le_abs_sub (v / d) (roundReal (v / d))
  rw [abs_sub_comm (v / d)] at sizeQuotient
  have first := abs_sub_le (roundReal (v * roundReal d⁻¹)) (v * roundReal d⁻¹) (v / d)
  have second := abs_sub_le (roundReal (v * roundReal d⁻¹)) (v / d) (roundReal (v / d))
  rw [abs_sub_comm (v / d)] at second
  have unit : (2 : ℝ) ^ (-147 : ℤ) = 8 * 2 ^ (-150 : ℤ) := by norm_num
  have positive : (0 : ℝ) < 2 ^ (-150 : ℤ) := by positivity
  have nonneg := abs_nonneg (roundReal (v / d))
  rw [spread_eq, unit]
  linarith

/-- A product with a rounded reciprocal and the quotient, each rounded. -/
theorem near_rounded_mul (c : EReal) {d : ℝ} (nonzero : roundReal d⁻¹ ≠ 0) (small : |d| < 2 ^ 128) :
    Near (rounded (c * (roundReal d⁻¹ : ℝ))) (rounded (c * (d⁻¹ : ℝ))) := by
  have some : d ≠ 0 := by
    rintro rfl
    rw [inv_zero, roundReal_zero] at nonzero
    exact nonzero rfl
  induction c with
  | coe v =>
    rw [← EReal.coe_mul, ← EReal.coe_mul, ← div_eq_mul_inv]
    obtain ⟨low, high⟩ := abs_le.mp (near_mul_reciprocal v some small)
    exact ⟨_, _, rounded_coe _, rounded_coe _, by linarith, by linarith⟩
  | top =>
    -- the two factors have one sign
    obtain neg | pos := nonzero.lt_or_gt
    · have below : d⁻¹ < 0 := not_le.mp fun nonneg => neg.not_ge (roundReal_nonneg nonneg)
      rw [EReal.top_mul_coe_of_neg neg, EReal.top_mul_coe_of_neg below]
      exact near_bot
    · have above : 0 < d⁻¹ :=
        not_le.mp fun nonpos => pos.not_ge (roundReal_zero ▸ roundReal_mono nonpos)
      rw [EReal.top_mul_coe_of_pos pos, EReal.top_mul_coe_of_pos above]
      exact near_top
  | bot =>
    obtain neg | pos := nonzero.lt_or_gt
    · have below : d⁻¹ < 0 := not_le.mp fun nonneg => neg.not_ge (roundReal_nonneg nonneg)
      rw [EReal.bot_mul_coe_of_neg neg, EReal.bot_mul_coe_of_neg below]
      exact near_top
    · have above : 0 < d⁻¹ :=
        not_le.mp fun nonpos => pos.not_ge (roundReal_zero ▸ roundReal_mono nonpos)
      rw [EReal.bot_mul_coe_of_pos pos, EReal.bot_mul_coe_of_pos above]
      exact near_bot

end Number

variable {ray : Ray} {axis : Axis} {range : Interval}

/-! ## Crossings -/

/-- The parameter at which a ray crosses the plane of a slab at `s`, by division. -/
def Ray.crossingTime (ray : Ray) (axis : Axis) (s : Float32) : Float32 :=
  (s - ray.origin.along axis) / ray.direction.along axis

open Number

theorem Box.crossing_eq (b : Box) (ray : Ray) (axis : Axis) :
    b.crossing ray axis =
      ⟨minNum (ray.crossingTime axis (b.along axis).lo) (ray.crossingTime axis (b.along axis).hi),
      maxNum (ray.crossingTime axis (b.along axis).lo) (ray.crossingTime axis (b.along axis).hi)⟩ :=
        rfl

/-- A component other than zero, and the reciprocal by which the slab test multiplies. -/
theorem Ray.exists_reciprocal (direction : ray.direction.IsFinite)
    (crossed : ray.isParallel axis = false) :
    ∃ d, Reads (ray.direction.along axis) d ∧ d ≠ 0 ∧
      Reads (1 / ray.direction.along axis) (roundReal d⁻¹) := by
  obtain ⟨d, reads⟩ := exists_reads_iff.mpr (direction axis)
  have nonzero : d ≠ 0 := by
    rintro rfl
    exact Bool.false_ne_true (crossed.symm.trans (isInf_one_div_zero reads))
  obtain ⟨number, reciprocal⟩ := reads.one_div nonzero
  obtain ⟨r, readsReciprocal⟩ : ∃ r, Reads (1 / ray.direction.along axis) r := by
    rw [exists_reads_iff, isFinite_iff, ← not_or, ← isInf_iff, ← isParallel, crossed]
    exact ⟨number, Bool.false_ne_true⟩
  obtain rfl := roundReal_eq_of_rounded (reciprocal.symm.trans readsReciprocal.value)
  exact ⟨d, reads, nonzero, readsReciprocal⟩

theorem Ray.value_crossingTime (origin : ray.origin.IsFinite) {d : ℝ}
    (reads : Reads (ray.direction.along axis) d) (nonzero : d ≠ 0) {s : Float32}
    (finite : s.isFinite = true) :
    IsNumber (ray.crossingTime axis s) ∧
      value (ray.crossingTime axis s) =
        rounded (value (s - ray.origin.along axis) * (d⁻¹ : ℝ)) := by
  have difference := isNumber_sub_of_isFinite (isNumber_of_isFinite finite) (origin axis)
  have divisor : value (ray.direction.along axis) ≠ 0 := by
    rw [reads.value]
    exact EReal.coe_ne_zero.mpr nonzero
  have bounded :
      ¬(value (ray.direction.along axis) = ⊤ ∨ value (ray.direction.along axis) = ⊥) := by
    simp [reads.value]
  have number : IsNumber (ray.crossingTime axis s) :=
    isNumber_div_iff.mpr ⟨(isNumber_iff _).mp difference, (isNumber_iff _).mp reads.number,
      fun zeros => divisor zeros.2, fun infinities => bounded infinities.2⟩
  exact ⟨number, by rw [crossingTime, value_div number, inverse_eq reads nonzero]⟩

section

variable (origin : ray.origin.IsFinite) (direction : ray.direction.IsFinite)

include origin direction

/-- Where the reciprocal is exact the product is the quotient, and it is near the quotient in any
case. -/
theorem Ray.near_crossing (crossed : ray.isParallel axis = false) {s : Float32}
    (finite : s.isFinite = true) :
    IsNumber (ray.crossingTime axis s) ∧
      Near (value (ray.crossing axis s)) (value (ray.crossingTime axis s)) ∧
      ∀ d, Reads (ray.direction.along axis) d → Stays d⁻¹ →
        value (ray.crossing axis s) = value (ray.crossingTime axis s) := by
  obtain ⟨d, reads, nonzero, reciprocal⟩ := Ray.exists_reciprocal direction crossed
  obtain ⟨number, quotient⟩ := Ray.value_crossingTime origin reads nonzero finite
  have product := value_mul (Ray.isNumber_crossing origin direction crossed finite)
  rw [reciprocal.value] at product
  rw [crossing, product, quotient]
  refine ⟨number, ?_, fun d' reads' exact => ?_⟩
  · have notZero : roundReal d⁻¹ ≠ 0 := by
      have := value_one_div_ne_zero (direction axis)
      rwa [reciprocal.value, EReal.coe_ne_zero] at this
    exact near_rounded_mul _ notZero reads.stays.abs.lt
  · obtain rfl := reads.unique reads'
    rw [exact.roundReal_eq]

end

/-! ## Common parts -/

/-- The relation of two pairs passes to their extrema. -/
structure KeepsExtrema (R : EReal → EReal → Prop) : Prop where
  max {p q p' q' : EReal} : R p q → R p' q' → R (max p p') (max q q')
  min {p q p' q' : EReal} : R p q → R p' q' → R (min p p') (min q q')

theorem keepsExtrema_near : KeepsExtrema Near := ⟨Near.max, Near.min⟩

theorem keepsExtrema_eq : KeepsExtrema Eq := ⟨fun h h' => h ▸ h' ▸ rfl, fun h h' => h ▸ h' ▸ rfl⟩

/-- Both ends of two intervals are related. -/
def Interval.Related (R : EReal → EReal → Prop) (i j : Interval) : Prop :=
  R (value i.lo) (value j.lo) ∧ R (value i.hi) (value j.hi)

section

variable {R : EReal → EReal → Prop} (keeps : KeepsExtrema R)

include keeps

/-- Intervals that are related one by one have related common parts. -/
theorem Interval.meetAll_related (axes : List Axis) {f g : Axis → Interval} {i j : Interval}
    (numbersI : i.HasNumbers) (numbersJ : j.HasNumbers) (first : i.Related R j)
    (rest : ∀ axis ∈ axes, (f axis).HasNumbers ∧ (g axis).HasNumbers ∧
      (f axis).Related R (g axis)) :
    (i.meetAll (axes.map f)).Related R (j.meetAll (axes.map g)) := by
  induction axes generalizing i j with
  | nil => exact first
  | cons axis axes ih =>
    obtain ⟨⟨numberF, numberG, related⟩, rest⟩ := List.forall_mem_cons.mp rest
    refine ih numberF.meet numberG.meet ⟨?_, ?_⟩ rest
    · rw [meet, meet, value_maxNum numbersI.1 numberF.1, value_maxNum numbersJ.1 numberG.1]
      exact keeps.max first.1 related.1
    · rw [meet, meet, value_minNum numbersI.2 numberF.2, value_minNum numbersJ.2 numberG.2]
      exact keeps.min first.2 related.2

omit keeps in
theorem Box.hasNumbers_crossing {b : Box} (solid : b.IsSolid) (origin : ray.origin.IsFinite)
    (direction : ray.direction.IsFinite) (crossed : ray.isParallel axis = false) :
    (b.crossing ray axis).HasNumbers := by
  have last := (Ray.near_crossing origin direction crossed (solid axis).2.1).1
  exact ⟨isNumber_minNum last, isNumber_maxNum last⟩

/-- What relates the product and the quotient at every plane relates the two common parts. -/
theorem Box.common_related {b : Box} (solid : b.IsSolid) (origin : ray.origin.IsFinite)
    (direction : ray.direction.IsFinite) (ends : range.HasNumbers) (same : range.Related R range)
    (planes : ∀ axis ∈ ray.crossed, ∀ s : Float32, s.isFinite = true →
      R (value (ray.crossing axis s)) (value (ray.crossingTime axis s))) :
    (range.meetAll (ray.crossed.map (b.span ray))).Related R
      (range.meetAll (ray.crossed.map (b.crossing ray))) := by
  refine Interval.meetAll_related keeps _ ends ends same fun axis crossed => ?_
  obtain ⟨finiteLo, finiteHi, -⟩ := solid axis
  have parallel := Ray.mem_crossed.mp crossed
  have firstLo := Ray.isNumber_crossing origin direction parallel finiteLo
  have firstHi := Ray.isNumber_crossing origin direction parallel finiteHi
  have secondLo := (Ray.near_crossing origin direction parallel finiteLo).1
  have secondHi := (Ray.near_crossing origin direction parallel finiteHi).1
  refine ⟨hasNumbers_span origin direction solid parallel,
    hasNumbers_crossing solid origin direction parallel, ?_⟩
  rw [crossing_eq, span, Interval.Related]
  dsimp only
  rw [value_minNum firstLo firstHi, value_maxNum firstLo firstHi, value_minNum secondLo secondHi,
    value_maxNum secondLo secondHi]
  have low := planes axis crossed _ finiteLo
  have high := planes axis crossed _ finiteHi
  exact ⟨keeps.min low high, keeps.max low high⟩

end

/-! ## The test by division -/

theorem Ray.beq_zero_eq_isParallel (direction : ray.direction.IsFinite)
    (zero : ray.isParallel axis = true → (ray.direction.along axis == 0) = true) :
    (ray.direction.along axis == 0) = ray.isParallel axis := by
  rw [Bool.eq_iff_iff]
  refine ⟨fun none => ?_, zero⟩
  obtain ⟨d, reads⟩ := exists_reads_iff.mpr (direction axis)
  rw [beq_zero_iff reads.number, reads.value, EReal.coe_eq_zero] at none
  subst none
  exact isInf_one_div_zero reads

theorem Box.foldlM_cross? (b : Box)
    (same : ∀ axis, (ray.direction.along axis == 0) = ray.isParallel axis) (axes : List Axis)
    (range : Interval) :
    axes.foldlM (b.cross? ray) range =
      if ∀ axis ∈ axes, ray.isParallel axis = true →
        (b.along axis).contains (ray.origin.along axis) = true then
        some (range.meetAll ((axes.filter fun axis => !ray.isParallel axis).map (b.crossing ray)))
      else none := by
  induction axes generalizing range with
  | nil => simp [Interval.meetAll]
  | cons axis axes ih =>
    rw [List.foldlM_cons, cross?, same]
    cases parallel : ray.isParallel axis with
    | true =>
      cases inside : (b.along axis).contains (ray.origin.along axis) with
      | true => simp [ih, parallel, inside]
      | false => simp [parallel, inside]
    | false => simp [ih, parallel, Interval.meetAll, Interval.meet]

theorem Box.overlaps_iff (b : Box)
    (same : ∀ axis, (ray.direction.along axis == 0) = ray.isParallel axis) (range : Interval) :
    b.overlaps ray range = true ↔
      (∀ axis, ray.isParallel axis = true →
        (b.along axis).contains (ray.origin.along axis) = true) ∧
        (range.meetAll (ray.crossed.map (b.crossing ray))).lo ≤
          (range.meetAll (ray.crossed.map (b.crossing ray))).hi := by
  have all : (∀ axis ∈ [Axis.x, .y, .z], ray.isParallel axis = true →
      (b.along axis).contains (ray.origin.along axis) = true) ↔
      ∀ axis, ray.isParallel axis = true → (b.along axis).contains (ray.origin.along axis) = true :=
    ⟨fun h axis => h axis axis.mem_xyz, fun h axis _ => h axis⟩
  rw [overlaps, foldlM_cross? b same, ← Ray.crossed]
  simp only [all]
  split_ifs with inside
  · simpa using fun _ => inside
  · simp [inside]

/-! ## Multiplying and dividing -/

/-- A number without a fraction is zero or a power of two, so its reciprocal is exact. -/
theorem Number.stays_inverse {x : Float32} {d : ℝ} (reads : Reads x d)
    (none : fractionField x = 0) : Stays d⁻¹ := by
  have finite : x.isFinite = true := exists_reads_iff.mp ⟨d, reads⟩
  have field := (encodes_parts x).field_lt finite
  have size := reads.unique (reads_of_field field)
  by_cases lowest : exponentField x = 0
  · have zero : d = 0 := by
      rw [size, significand, if_pos lowest, none, Nat.cast_zero, zero_mul, signed_zero]
    rw [zero, inv_zero, Stays, EReal.coe_zero, rounded_zero]
  -- with no fraction the number is a power of two, and so is its inverse
  · have place : -149 ≤ exponent x ∧ exponent x ≤ 104 := by
      unfold exponent
      omega
    have power : (significand x : ℝ) * 2 ^ exponent x = 2 ^ (exponent x + 23) := by
      rw [significand, if_neg lowest, none, add_zero, zpow_add₀ two_ne_zero, mul_comm]
      norm_num [twoPow]
    have stays : Stays ((2 : ℝ) ^ (exponent x + 23))⁻¹ := by
      rw [← zpow_neg]
      exact stays_zpow (by omega) (by omega)
    rw [size, power]
    cases signOf x with
    | positive => exact stays
    | negative =>
      rw [signed, inv_neg]
      exact stays.neg

/-- A reciprocal that is exact is not infinite. -/
theorem Ray.beq_zero_of_whole (direction : ray.direction.IsFinite)
    (none : fractionField (ray.direction.along axis) = 0) (parallel : ray.isParallel axis = true) :
    (ray.direction.along axis == 0) = true := by
  obtain ⟨d, reads⟩ := exists_reads_iff.mpr (direction axis)
  rw [beq_zero_iff reads.number, reads.value, EReal.coe_eq_zero]
  by_contra nonzero
  rw [isParallel, isInf_iff, (reads.one_div nonzero).2, stays_inverse reads none] at parallel
  simp at parallel

/-- The ends are further apart than rounding can move them, in their order or against it. -/
def Interval.IsClear (i : Interval) : Prop :=
  Clears (value i.lo) (value i.hi) ∨ Clears (value i.hi) (value i.lo)

/-- What is clear by the second interval is so by the first one. -/
theorem Interval.le_iff_of_near {i j : Interval} (numbersI : i.HasNumbers) (numbersJ : j.HasNumbers)
    (near : i.Related Near j) (nonneg : 0 ≤ value j.lo) (clear : j.IsClear) :
    i.lo ≤ i.hi ↔ j.lo ≤ j.hi := by
  simp only [le_iff, numbersI.1, numbersI.2, numbersJ.1, numbersJ.2, true_and]
  obtain ordered | apart := clear
  · have positive : 0 ≤ value j.hi := by
      refine le_trans ?_ ordered.apart.le
      exact add_nonneg (mul_nonneg nonneg (EReal.coe_nonneg.mpr (by norm_num)))
        (EReal.coe_nonneg.mpr (by positivity))
    exact iff_of_true (near.1.lt near.2 positive ordered).le
      ((near_value _).lt (near_value _) positive ordered).le
  · exact iff_of_false (near.2.lt near.1 nonneg apart).not_ge
      ((near_value _).lt (near_value _) nonneg apart).not_ge

theorem Interval.hasNumbers_meetAll {i : Interval} {l : List Interval} (ends : i.HasNumbers)
    (numbers : ∀ j ∈ l, j.HasNumbers) :
    (i.meetAll l).HasNumbers ∧ value i.lo ≤ value (i.meetAll l).lo := by
  induction l generalizing i with
  | nil => exact ⟨ends, le_rfl⟩
  | cons j l ih =>
    obtain ⟨first, rest⟩ := List.forall_mem_cons.mp numbers
    obtain ⟨numbers, above⟩ := ih (first.meet (i := i)) rest
    refine ⟨numbers, le_trans ?_ above⟩
    rw [meet, value_maxNum ends.1 first.1]
    exact le_max_left ..

/-- For a ray, a box spanned by two points and a range of finite numbers from zero up the slab test
decides as the division does, if either no direction component has a fraction, or else no component
other than zero has an infinite reciprocal and the ends of the common part found by division are
clear of each other. -/
theorem Box.isHit_eq_overlaps (p q : Vec3) (ray : Ray) (range : Interval) (first : p.IsFinite)
    (second : q.IsFinite) (origin : ray.origin.IsFinite) (direction : ray.direction.IsFinite)
    (start : 0 ≤ range.lo) (order : range.lo ≤ range.hi) (finite : range.hi.isFinite = true)
    (clear : (∀ axis, fractionField (ray.direction.along axis) = 0) ∨
      (∀ axis, ray.isParallel axis = true → (ray.direction.along axis == 0) = true) ∧
        (range.meetAll (ray.crossed.map ((ofCorners p q).crossing ray))).IsClear) :
    (ofCorners p q).isHit ray range = (ofCorners p q).overlaps ray range := by
  have solid := isSolid_ofCorners first second
  obtain ⟨far, readsFar⟩ := exists_reads_iff.mpr finite
  have low := (bounded_of_le start order readsFar).isFinite
  have ends : range.HasNumbers := ⟨isNumber_of_isFinite low, readsFar.number⟩
  have spans : ∀ i ∈ ray.crossed.map ((ofCorners p q).span ray), i.HasNumbers :=
    List.forall_mem_map.mpr fun axis crossed =>
      hasNumbers_span origin direction solid (Ray.mem_crossed.mp crossed)
  have crossings : ∀ i ∈ ray.crossed.map ((ofCorners p q).crossing ray), i.HasNumbers :=
    List.forall_mem_map.mpr fun axis crossed =>
      hasNumbers_crossing solid origin direction (Ray.mem_crossed.mp crossed)
  obtain ⟨numbersSpan, -⟩ := Interval.hasNumbers_meetAll ends spans
  obtain ⟨numbersCrossing, above⟩ := Interval.hasNumbers_meetAll ends crossings
  have agree : (∀ axis, (ray.direction.along axis == 0) = ray.isParallel axis) ∧
      ((range.meetAll (ray.crossed.map ((ofCorners p q).span ray))).lo ≤
          (range.meetAll (ray.crossed.map ((ofCorners p q).span ray))).hi ↔
        (range.meetAll (ray.crossed.map ((ofCorners p q).crossing ray))).lo ≤
          (range.meetAll (ray.crossed.map ((ofCorners p q).crossing ray))).hi) := by
    -- by a power of two both divide exactly; else the ranges are near and the gap is wide
    obtain whole | ⟨zero, clear⟩ := clear
    · refine ⟨fun axis => Ray.beq_zero_eq_isParallel direction
        (Ray.beq_zero_of_whole direction (whole axis)), ?_⟩
      obtain ⟨sameLo, sameHi⟩ :=
        common_related keepsExtrema_eq solid origin direction ends ⟨rfl, rfl⟩
        fun axis crossed s finite => by
          obtain ⟨d, reads⟩ := exists_reads_iff.mpr (direction axis)
          exact (Ray.near_crossing origin direction (Ray.mem_crossed.mp crossed) finite).2.2 d reads
            (stays_inverse reads (whole axis))
      simp only [le_iff, numbersSpan.1, numbersSpan.2, numbersCrossing.1, numbersCrossing.2,
        sameLo, sameHi]
    · refine ⟨fun axis => Ray.beq_zero_eq_isParallel direction (zero axis), ?_⟩
      have near :=
        common_related keepsExtrema_near solid origin direction ends ⟨near_value _, near_value _⟩
        fun axis crossed s finite =>
          (Ray.near_crossing origin direction (Ray.mem_crossed.mp crossed) finite).2.1
      exact Interval.le_iff_of_near numbersSpan numbersCrossing near
        ((zero_le_iff.mp start).2.trans above) clear
  rw [Bool.eq_iff_iff, isHit_iff_common origin direction solid low ends.2 (.inl finite),
    overlaps_iff _ agree.1, agree.2]

/-- A ray towards the face of a cube: by division it enters the cube where the range ends, by the
product just after that. -/
theorem Box.isHit_ne_overlaps_touching :
    let p : Vec3 := .splat (-1)
    let q : Vec3 := .splat 1
    let ray : Ray := ⟨⟨0, 0, -4⟩, ⟨0, 0, 0.24⟩⟩
    let range : Interval := ⟨0, 12.5⟩
    p.IsFinite ∧ q.IsFinite ∧ ray.origin.IsFinite ∧ ray.direction.IsFinite ∧ 0 ≤ range.lo ∧
      range.lo ≤ range.hi ∧ range.hi.isFinite = true ∧ (ofCorners p q).overlaps ray range = true ∧
      (ofCorners p q).isHit ray range = false := by
  decide

/-- The same ray with a range that ends later. -/
theorem Box.isHit_eq_overlaps_entered :
    let p : Vec3 := .splat (-1)
    let q : Vec3 := .splat 1
    let ray : Ray := ⟨⟨0, 0, -4⟩, ⟨0, 0, 0.24⟩⟩
    let range : Interval := ⟨0, 13⟩
    p.IsFinite ∧ q.IsFinite ∧ ray.origin.IsFinite ∧ ray.direction.IsFinite ∧ 0 ≤ range.lo ∧
      range.lo ≤ range.hi ∧ range.hi.isFinite = true ∧
      (∀ axis, ray.isParallel axis = true → (ray.direction.along axis == 0) = true) ∧
      (range.meetAll (ray.crossed.map ((ofCorners p q).crossing ray))).IsClear ∧
      (ofCorners p q).isHit ray range = (ofCorners p q).overlaps ray range ∧
      (ofCorners p q).isHit ray range = true := by
  intro p q ray range
  have common : range.meetAll (ray.crossed.map ((ofCorners p q).crossing ray)) = ⟨12.5, 13⟩ := by
    decide +kernel
  have low : value 12.5 = (13107200 * 2 ^ (-20 : ℤ) : ℝ) :=
    (reads_of_field (x := 12.5) (by decide)).value
  have high : value 13 = (13631488 * 2 ^ (-20 : ℤ) : ℝ) :=
    (reads_of_field (x := 13) (by decide)).value
  have clear : (range.meetAll (ray.crossed.map ((ofCorners p q).crossing ray))).IsClear := by
    rw [common]
    refine .inl ⟨?_, ?_⟩
    · rw [low, high]
      exact_mod_cast (show (13107200 * 2 ^ (-20 : ℤ) * 1.000001 + 10 ^ (-40 : ℤ) : ℝ) <
        13631488 * 2 ^ (-20 : ℤ) by norm_num)
    · rw [low]
      exact_mod_cast (show (13107200 * 2 ^ (-20 : ℤ) * 1.000001 + 10 ^ (-40 : ℤ) : ℝ) <
        2 ^ 127 by norm_num)
  have first : p.IsFinite := by decide
  have second : q.IsFinite := by decide
  have origin : ray.origin.IsFinite := by decide
  have direction : ray.direction.IsFinite := by decide
  have start : 0 ≤ range.lo := by decide
  have order : range.lo ≤ range.hi := by decide
  have finite : range.hi.isFinite = true := by decide
  have zero : ∀ axis, ray.isParallel axis = true → (ray.direction.along axis == 0) = true := by
    decide +kernel
  have result :=
    isHit_eq_overlaps p q ray range first second origin direction start order finite
      (.inr ⟨zero, clear⟩)
  exact ⟨first, second, origin, direction, start, order, finite, zero, clear, result,
    by decide +kernel⟩

end RayTracer
