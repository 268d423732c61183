import RayTracer.Proofs.Geometry.Errors
import RayTracer.Proofs.Number.Nearest
import RayTracer.Proofs.Surface.Narrowing
import RayTracer.Scene

/-! # Rays that start off a surface

A shadow ray starts a fixed offset away from a contact. The contact is off its surface by rounding
errors, which grow with the coordinates, so the offset takes the ray clear of the surface only where
the coordinates are not too large for the angle at which the ray leaves.

* `Plane.Met.abs_height_le`: how far off a plane a contact is.
* `Plane.not_found_of_leaving`: a ray that leaves a plane from a contact, at an angle whose cosine
  is at least a 16th of every coordinate, does not meet the plane again.
-/

namespace RayTracer

open Number

variable {ray : Ray} {range : Interval} {t : Float32}

/-! ## Contacts with planes -/

theorem isFinite_of_contains {i : Interval} {x : Float32} (low : i.lo.isFinite = true)
    (high : i.hi.isFinite = true) (inside : i.contains x = true) : x.isFinite = true := by
  obtain ⟨above, below⟩ := (i.contains_iff x).mp inside
  obtain ⟨l, readsL⟩ := exists_reads_iff.mpr low
  obtain ⟨h, readsH⟩ := exists_reads_iff.mpr high
  obtain ⟨r, reads, -⟩ := reads_of_between above below readsL readsH
  exact exists_reads_iff.mp ⟨r, reads⟩

namespace Plane

theorem of_parameter? {s : Plane} (found : s.parameter? ray range = some t) :
    ¬(s.normal.dot ray.direction).abs < parallelTolerance ∧
      t = (s.point - ray.origin).dot s.normal / s.normal.dot ray.direction ∧
      range.contains t = true ∧
      ∀ axis, (bounds.along axis).contains ((ray.pointAt t).along axis) = true := by
  unfold parameter? at found
  dsimp only at found
  split_ifs at found with parallel inside
  obtain rfl := Option.some.inj found
  simp only [Bool.and_eq_true] at inside
  refine ⟨parallel, rfl, inside.1.1.1, fun axis => ?_⟩
  cases axis
  · exact inside.1.1.2
  · exact inside.1.2
  · exact inside.2

theorem isFinite_pointAt {s : Plane} (found : s.parameter? ray range = some t) :
    (ray.pointAt t).IsFinite := by
  intro axis
  obtain ⟨-, -, -, inside⟩ := of_parameter? found
  have finite : ∀ axis, (bounds.along axis).lo.isFinite = true ∧
      (bounds.along axis).hi.isFinite = true := by
    decide +kernel
  exact isFinite_of_contains (finite axis).1 (finite axis).2 (inside axis)

/-- The numbers that come up where a ray meets a plane: the point of the plane and its normal, the
origin, the direction and the point of the ray, the distance to go along the normal, the slope and
the parameter. -/
structure Met (s : Plane) (ray : Ray) (t : Float32) (q n o d p : Axis → ℝ) (ν δ τ : ℝ) : Prop where
  point : s.point.Denotes q
  normal : s.normal.Denotes n
  origin : ray.origin.Denotes o
  direction : ray.direction.Denotes d
  contact : (ray.pointAt t).Denotes p
  distance : Reads ((s.point - ray.origin).dot s.normal) ν
  slope : Reads (s.normal.dot ray.direction) δ
  steep : 9 / 10 ^ 9 ≤ |δ|
  quotient : roundReal (ν / δ) = τ
  rounds : ∀ axis, p axis = roundReal (o axis + roundReal (d axis * τ))

theorem reads_parallelTolerance : Reads parallelTolerance (11258999 * 2 ^ (-50 : ℤ)) :=
  reads_of_field (x := parallelTolerance) (by decide)

theorem exists_met {s : Plane} (found : s.parameter? ray range = some t)
    (unitN : ∀ axis, Bounded (5 / 4) (s.normal.along axis))
    (unitD : ∀ axis, Bounded (5 / 4) (ray.direction.along axis)) :
    ∃ q n o d p ν δ τ, s.Met ray t q n o d p ν δ τ ∧ (∀ axis, |n axis| ≤ 5 / 4) ∧
      (∀ axis, |d axis| ≤ 5 / 4) ∧ Reads t τ ∧ |δ| ≤ 75 / 16 := by
  obtain ⟨parallel, same, -, -⟩ := of_parameter? found
  obtain ⟨n, readsN, smallN⟩ := Vec3.exists_denotes unitN
  obtain ⟨p, contact⟩ : ∃ p, (ray.pointAt t).Denotes p := by
    choose p reads using fun axis => exists_reads_iff.mpr (isFinite_pointAt found axis)
    exact ⟨p, reads⟩
  obtain ⟨o, d, τ, readsO, readsD, readsT, rounds⟩ := Ray.exists_pointAt contact
  obtain ⟨d', readsD', smallD⟩ := Vec3.exists_denotes unitD
  obtain rfl := readsD.unique readsD'
  obtain ⟨δ, slope, smallSlope⟩ := Vec3.bounded_dot_unit unitN unitD
  -- the ray is not parallel to the plane, or it would not have been found
  have steep : 9 / 10 ^ 9 ≤ |δ| := by
    rw [number_not_lt slope.abs.number (by decide)] at parallel
    refine le_trans ?_ ((reads_parallelTolerance.le_iff slope.abs).mp parallel)
    norm_num
  have nonzero : δ ≠ 0 := by
    rintro rfl
    norm_num at steep
  obtain ⟨ν, distance, quotient⟩ := reads_of_div (same ▸ readsT) slope nonzero
  obtain ⟨e, -, readsE, -, -⟩ := Vec3.reads_of_dot distance
  obtain ⟨q, -, readsQ, -, -⟩ := Vec3.denotes_of_sub readsE
  exact ⟨q, n, o, d, p, ν, δ, τ,
    ⟨readsQ, readsN, readsO, readsD, contact, distance, slope, steep, quotient, rounds⟩,
    smallN, smallD, readsT, smallSlope⟩

variable {s : Plane} {q n o d p : Axis → ℝ} {ν δ τ m : ℝ}

/-- The distance that a ray goes along the normal is that from the origin to the plane. -/
theorem Met.abs_distance_sub_le (met : s.Met ray t q n o d p ν δ τ)
    (unit : ∀ axis, |n axis| ≤ 5 / 4) (bounded : |δ| ≤ 75 / 16) (largeQ : ∀ axis, |q axis| ≤ m)
    (largeO : ∀ axis, |o axis| ≤ m) :
    |ν - ∑ axis, (q axis - o axis) * n axis| ≤ 5 * m / 2 ^ 21 + 2 ^ (-144 : ℤ) ∧
      |τ * δ - ν| ≤ |ν| / 2 ^ 24 + 2 ^ (-144 : ℤ) := by
  refine ⟨Vec3.abs_difference_dot_sub_le met.distance met.point met.origin met.normal largeQ
    largeO unit, ?_⟩
  have nonzero : δ ≠ 0 := by
    rintro rfl
    have := met.steep
    norm_num at this
  -- what is lost in the quotient is small against it, and comes back times the slope
  have rounding := abs_roundReal_sub_le_add (ν / δ)
  rw [met.quotient] at rounding
  have place : (2 : ℝ) ^ (-144 : ℤ) = 64 * 2 ^ (-150 : ℤ) := by norm_num
  have positive : (0 : ℝ) ≤ 2 ^ (-150 : ℤ) := by positivity
  calc |τ * δ - ν| = |τ - ν / δ| * |δ| := by rw [← abs_mul, sub_mul, div_mul_cancel₀ _ nonzero]
    _ ≤ (|ν / δ| / 2 ^ 24 + 2 ^ (-150 : ℤ)) * |δ| :=
      mul_le_mul_of_nonneg_right rounding (abs_nonneg δ)
    _ = |ν| / 2 ^ 24 + 2 ^ (-150 : ℤ) * |δ| := by
        rw [add_mul, div_mul_eq_mul_div, ← abs_mul, div_mul_cancel₀ _ nonzero]
    _ ≤ |ν| / 2 ^ 24 + 2 ^ (-144 : ℤ) := by
        rw [place]
        nlinarith

/-- The point of the ray against the exact one, along the normal. -/
theorem Met.abs_point_sub_le (met : s.Met ray t q n o d p ν δ τ) (unit : ∀ axis, |n axis| ≤ 5 / 4)
    (largeO : ∀ axis, |o axis| ≤ m) (largeP : ∀ axis, |p axis| ≤ m) :
    |∑ axis, (p axis - (o axis + d axis * τ)) * n axis| ≤
        3 * ((m / 2 ^ 22 + 2 ^ (-147 : ℤ)) * (5 / 4)) := by
  have nonneg : 0 ≤ m := (abs_nonneg _).trans (largeO .x)
  refine Axis.abs_sum_le fun axis => ?_
  rw [abs_mul]
  exact mul_le_mul (abs_sum_sub_le (met.rounds axis) (largeO axis) (largeP axis)).1 (unit axis)
    (abs_nonneg _) (by positivity)

/-- The slope against the exact one, over the whole way. -/
theorem Met.abs_slope_sub_le (met : s.Met ray t q n o d p ν δ τ) (unit : ∀ axis, |n axis| ≤ 5 / 4)
    (largeO : ∀ axis, |o axis| ≤ m) (largeP : ∀ axis, |p axis| ≤ m) :
    |τ * (∑ axis, n axis * d axis) - τ * δ| ≤
      3 * ((9 / 4 * m + 2 ^ (-147 : ℤ)) * (5 / 4)) / 2 ^ 22 + |τ| * 2 ^ (-147 : ℤ) := by
  have nonneg : 0 ≤ m := (abs_nonneg _).trans (largeO .x)
  have slope := Vec3.abs_dot_sub_le met.slope met.normal met.direction
  -- each term times the parameter is a way that the ray goes, times a component of the normal
  have weight : |τ| * ∑ axis, |n axis * d axis| ≤ 3 * ((9 / 4 * m + 2 ^ (-147 : ℤ)) * (5 / 4)) := by
    rw [Finset.mul_sum]
    refine Axis.sum_le fun axis => ?_
    have way := (abs_sum_sub_le (met.rounds axis) (largeO axis) (largeP axis)).2
    calc |τ| * |n axis * d axis| = |d axis * τ| * |n axis| := by rw [abs_mul, abs_mul]; ring
      _ ≤ (9 / 4 * m + 2 ^ (-147 : ℤ)) * (5 / 4) :=
        mul_le_mul way (unit axis) (abs_nonneg _) (by positivity)
  calc |τ * (∑ axis, n axis * d axis) - τ * δ| = |τ| * |δ - ∑ axis, n axis * d axis| := by
        rw [← mul_sub, abs_mul, abs_sub_comm]
    _ ≤ |τ| * ((∑ axis, |n axis * d axis|) / 2 ^ 22 + 2 ^ (-147 : ℤ)) :=
      mul_le_mul_of_nonneg_left slope (abs_nonneg τ)
    _ = |τ| * (∑ axis, |n axis * d axis|) / 2 ^ 22 + |τ| * 2 ^ (-147 : ℤ) := by ring
    _ ≤ _ := by gcongr

/-- How far off a plane a contact is, where the coordinates are at most `m`. -/
theorem Met.abs_height_le (met : s.Met ray t q n o d p ν δ τ) (unit : ∀ axis, |n axis| ≤ 5 / 4)
    (bounded : |δ| ≤ 75 / 16) (largeQ : ∀ axis, |q axis| ≤ m) (largeO : ∀ axis, |o axis| ≤ m)
    (largeP : ∀ axis, |p axis| ≤ m) (small : m ≤ 128) :
    |∑ axis, (p axis - q axis) * n axis| ≤ 7 * m / 2 ^ 20 + 2 ^ (-100 : ℤ) := by
  obtain ⟨distance, quotient⟩ := met.abs_distance_sub_le unit bounded largeQ largeO
  have first := met.abs_point_sub_le unit largeO largeP
  have second := met.abs_slope_sub_le unit largeO largeP
  have nonneg : 0 ≤ m := (abs_nonneg _).trans (largeQ .x)
  have place : (2 : ℝ) ^ (-144 : ℤ) = 8 * 2 ^ (-147 : ℤ) := by norm_num
  have tiny : (10 : ℝ) ^ 13 * 2 ^ (-147 : ℤ) ≤ 2 ^ (-100 : ℤ) := by norm_num
  have positive : (0 : ℝ) ≤ 2 ^ (-147 : ℤ) := by positivity
  have below : (2 : ℝ) ^ (-147 : ℤ) ≤ 1 := by norm_num
  rw [place] at distance quotient
  generalize (2 : ℝ) ^ (-147 : ℤ) = u at *
  generalize (2 : ℝ) ^ (-100 : ℤ) = rest at *
  have sum : |∑ axis, (q axis - o axis) * n axis| ≤ 3 * (2 * m * (5 / 4)) := by
    refine Axis.abs_sum_le fun axis => ?_
    rw [abs_mul]
    exact mul_le_mul ((abs_sub _ _).trans (by linarith [largeQ axis, largeO axis])) (unit axis)
      (abs_nonneg _) (by linarith)
  have size := abs_sub_abs_le_abs_sub ν (∑ axis, (q axis - o axis) * n axis)
  have way : |τ| * (9 / 10 ^ 9) ≤ |τ * δ| := by
    rw [abs_mul]
    exact mul_le_mul_of_nonneg_left met.steep (abs_nonneg τ)
  have sizeT := abs_sub_abs_le_abs_sub (τ * δ) ν
  have split :
      ∑ axis, (p axis - q axis) * n axis = ∑ axis, (p axis - (o axis + d axis * τ)) * n axis +
      (τ * (∑ axis, n axis * d axis) - τ * δ) + (τ * δ - ν) +
        (ν - ∑ axis, (q axis - o axis) * n axis) := by
    simp only [Axis.sum_eq]
    ring
  -- the least slope bounds the parameter, by which a unit in the last place is multiplied
  have long : |τ| ≤ 10 ^ 12 := by linarith
  have lost : |τ| * u ≤ 10 ^ 12 * u := by gcongr
  rw [split]
  refine (abs_add_le _ _).trans ?_
  have sumFirst :=
    abs_add_le (∑ axis, (p axis - (o axis + d axis * τ)) * n axis)
      (τ * (∑ axis, n axis * d axis) - τ * δ)
  have sumSecond := abs_add_le (∑ axis, (p axis - (o axis + d axis * τ)) * n axis +
    (τ * (∑ axis, n axis * d axis) - τ * δ)) (τ * δ - ν)
  linarith

end Plane

/-! ## Rays that leave a contact -/

theorem Vec3.opposite_neg_dot (n d : Vec3) : Opposite ((-n).dot d) (n.dot d) := by
  have term (a b : Float32) : Opposite (-a * b) (a * b) := (opposite_neg a).mul_right b
  exact ((term n.x d.x).add (term n.y d.y)).add (term n.z d.z)

theorem Scene.exists_reads_epsilon : ∃ ε, Reads epsilon ε ∧ ε = 13743895 / 2 ^ 37 :=
  ⟨13743895 * 2 ^ (-37 : ℤ), reads_of_field (by decide), by norm_num⟩

theorem Scene.isFinite_epsilon : epsilon.isFinite = true := by decide

theorem Scene.le_of_contains {ε τ : ℝ} {last : Float32} (he : Reads epsilon ε) (ht : Reads t τ)
    (inside : Interval.contains ⟨epsilon, last⟩ t = true) : ε ≤ τ :=
  (he.le_iff ht).mp ((Interval.contains_iff _ _).mp inside).1

namespace Plane

variable {s : Plane} {x l : Vec3} {p q n d : Axis → ℝ} {ς m : ℝ}

/-- A turned normal has the slope of the normal, or the opposite one. -/
theorem slope_of_side {normal : Vec3} {δ : ℝ} (side : normal = s.normal ∨ normal = -s.normal)
    (facing : Reads (normal.dot l) ς) (slope : Reads (s.normal.dot l) δ) : δ = ς ∨ δ = -ς := by
  obtain rfl | rfl := side
  · exact .inl (slope.unique facing)
  · have opposite := (Vec3.opposite_neg_dot s.normal l).2
    rw [facing.value, slope.value, ← EReal.coe_neg, EReal.coe_eq_coe_iff] at opposite
    exact .inr (by linarith)

/-- The height of the plane above the start: that above the point, less the offset. -/
theorem abs_distance_add_le {o : Axis → ℝ} {ε : ℝ} (unit : ∀ axis, |n axis| ≤ 5 / 4)
    (moved : ∀ axis, |o axis - (p axis + ε * d axis)| ≤ 5 / 4 * m / 2 ^ 24 + 2 ^ (-148 : ℤ)) :
    |∑ axis, (q axis - o axis) * n axis + ∑ axis, (p axis - q axis) * n axis +
        ε * ∑ axis, n axis * d axis| ≤
      3 * ((5 / 4 * m / 2 ^ 24 + 2 ^ (-148 : ℤ)) * (5 / 4)) := by
  have offset : |∑ axis, (p axis + ε * d axis - o axis) * n axis| ≤
      3 * ((5 / 4 * m / 2 ^ 24 + 2 ^ (-148 : ℤ)) * (5 / 4)) := by
    refine Axis.abs_sum_le fun axis => ?_
    rw [abs_mul, abs_sub_comm]
    exact mul_le_mul (moved axis) (unit axis) (abs_nonneg _) ((abs_nonneg _).trans (moved axis))
  convert offset using 2
  simp only [Axis.sum_eq]
  ring

/-- A ray that leaves a plane from a contact does not meet it again, if the cosine of its angle with
the normal is at least a 16th of the coordinates. -/
theorem not_found_of_leaving {normal : Vec3} {last : Float32}
    (side : normal = s.normal ∨ normal = -s.normal)
    (unitN : ∀ axis, Bounded (5 / 4) (s.normal.along axis))
    (unitL : ∀ axis, Bounded (5 / 4) (l.along axis)) (hx : x.Denotes p) (hq : s.point.Denotes q)
    (hn : s.normal.Denotes n) (facing : Reads (normal.dot l) ς) (steep : 1 / 1024 ≤ ς)
    (near : m ≤ 16.001 * ς) (far : 16 * ς ≤ m) (largeP : ∀ axis, |p axis| ≤ m)
    (largeQ : ∀ axis, |q axis| ≤ m)
    (height : |∑ axis, (p axis - q axis) * n axis| ≤ 7 * m / 2 ^ 20 + 2 ^ (-100 : ℤ)) :
    s.parameter? ⟨x + Scene.epsilon * l, l⟩ ⟨Scene.epsilon, last⟩ = none := by
  rw [Option.eq_none_iff_forall_ne_some]
  intro t found
  obtain ⟨q', n', o, d, p', ν, δ, τ, met, smallN, smallD, readsT, bounded⟩ :=
    exists_met found unitN unitL
  obtain rfl := hq.unique met.point
  obtain rfl := hn.unique met.normal
  obtain ⟨ε, epsilon, size⟩ := Scene.exists_reads_epsilon
  have short (axis : Axis) : |ε * d axis| ≤ m / 100 := by
    rw [abs_mul, size, abs_of_pos (by norm_num)]
    linarith [smallD axis]
  have moved (axis : Axis) :=
    abs_start_sub_le (Ray.exists_start epsilon hx met.direction met.origin axis) (largeP axis)
      (short axis)
  have later := Scene.le_of_contains epsilon readsT (of_parameter? found).2.2.1
  have turned := slope_of_side side facing met.slope
  have slope := Vec3.abs_dot_sub_le met.slope met.normal met.direction
  have weight : ∑ axis, |n axis * d axis| ≤ 3 * (25 / 16) := by
    refine Axis.sum_le fun axis => ?_
    rw [abs_mul]
    exact (mul_le_mul (smallN axis) (smallD axis) (abs_nonneg _) (by norm_num)).trans (by norm_num)
  -- what the places below the lowest one add up to is nothing against the slope
  have dust : (2 : ℝ) ^ (-148 : ℤ) ≤ 1 / 10 ^ 20 ∧ (2 : ℝ) ^ (-147 : ℤ) ≤ 1 / 10 ^ 20 ∧
      (2 : ℝ) ^ (-144 : ℤ) ≤ 1 / 10 ^ 20 ∧ (2 : ℝ) ^ (-100 : ℤ) ≤ 1 / 10 ^ 20 := by norm_num
  have largeO (axis : Axis) : |o axis| ≤ 1.02 * m := by
    have exact := abs_add_le (p axis) (ε * d axis)
    have whole := abs_sub_abs_le_abs_sub (o axis) (p axis + ε * d axis)
    linarith [moved axis, largeP axis, short axis]
  obtain ⟨distance, quotient⟩ :=
    met.abs_distance_sub_le smallN bounded (fun axis => (largeQ axis).trans (by linarith)) largeO
  have offset := abs_distance_add_le (q := q) smallN moved
  generalize ∑ axis, (q axis - o axis) * n axis = a at *
  generalize ∑ axis, (p axis - q axis) * n axis = b at *
  generalize ∑ axis, n axis * d axis = c at *
  rw [size] at *
  rw [abs_le] at slope offset height distance
  rw [abs_le] at quotient
  obtain rfl | rfl := turned
  · have size : |ν| ≤ m := abs_le.mpr ⟨by linarith, by linarith⟩
    have beyond : 13743895 / 2 ^ 37 * δ ≤ τ * δ := mul_le_mul_of_nonneg_right later (by linarith)
    linarith
  · have size : |ν| ≤ m := abs_le.mpr ⟨by linarith, by linarith⟩
    have beyond : 13743895 / 2 ^ 37 * ς ≤ τ * ς := mul_le_mul_of_nonneg_right later (by linarith)
    linarith

end Plane

end RayTracer
