import RayTracer.Geometry.Box
import RayTracer.Proofs.Number.Operations

/-! # The slab test

`Box.isHit_mono`: whoever meets a box within a range meets each larger box within each larger range.
The ends may be infinite, but not NaN, and the ray must be finite.

The non-trivial ingredient is the product with a reciprocal. For a ray parallel to a slab the
reciprocal is an infinity, so where the ray runs in a face of the slab the product is NaN and bounds
nothing. Moving that face outwards turns the NaN into the infinity that bounds nothing either, and
not into the other one.
-/

namespace RayTracer

open Number

/-! ## Larger ranges and boxes -/

/-- Between the ends of another interval; none of the four ends is NaN. -/
def Interval.Within (a b : Interval) : Prop := b.lo ≤ a.lo ∧ a.hi ≤ b.hi

/-- Within another box along each axis. -/
def Box.Within (a b : Box) : Prop := ∀ axis, (a.along axis).Within (b.along axis)

/-- Neither end is NaN. -/
def Interval.HasNumbers (i : Interval) : Prop := IsNumber i.lo ∧ IsNumber i.hi

/-- No end along an axis is NaN. -/
def Box.HasNumbers (b : Box) : Prop := ∀ axis, (b.along axis).HasNumbers

/-- Each component is a number and not an infinity. -/
def Vec3.IsFinite (v : Vec3) : Prop := ∀ axis, (v.along axis).isFinite = true

namespace Interval

theorem HasNumbers.within_self {i : Interval} (numbers : i.HasNumbers) : i.Within i :=
  ⟨(le_iff _ _).mpr ⟨numbers.1, numbers.1, le_rfl⟩, (le_iff _ _).mpr ⟨numbers.2, numbers.2, le_rfl⟩⟩

theorem Within.not_isEmpty {a b : Interval} (within : a.Within b) (h : a.isEmpty = false) :
    b.isEmpty = false := by
  obtain ⟨loB, loA, low⟩ := (le_iff _ _).mp within.1
  obtain ⟨hiA, hiB, high⟩ := (le_iff _ _).mp within.2
  simp only [isEmpty, decide_eq_false_iff_not, lt_iff, loA, hiA, loB, hiB, true_and, not_lt] at h ⊢
  exact low.trans (h.trans high)

end Interval

/-! ## The crossing of one slab -/

variable {ray : Ray} {axis : Axis} {s t : Float32}

theorem value_sub_mono {o : Float32} (finite : o.isFinite = true) (h : s ≤ t) :
    value (s - o) ≤ value (t - o) := by
  obtain ⟨hs, ht, below⟩ := (le_iff s t).mp h
  rw [value_sub (isNumber_sub_of_isFinite hs finite),
    value_sub (isNumber_sub_of_isFinite ht finite)]
  exact rounded_mono (EReal.sub_le_sub below le_rfl)

/-- The parameter at which a ray crosses the plane of a slab at `s`. -/
def Ray.crossing (ray : Ray) (axis : Axis) (s : Float32) : Float32 :=
  (s - ray.origin.along axis) * (1 / ray.direction.along axis)

section

variable (origin : ray.origin.IsFinite) (direction : ray.direction.IsFinite)

include origin direction

theorem crossing_mono (up : 0 ≤ value (1 / ray.direction.along axis)) (h : s ≤ t) :
    lowValue (ray.crossing axis s) ≤ lowValue (ray.crossing axis t) ∧
      highValue (ray.crossing axis s) ≤ highValue (ray.crossing axis t) := by
  obtain ⟨hs, ht, -⟩ := (le_iff s t).mp h
  have products := mul_le_mul_of_nonneg_right (value_sub_mono (origin axis) h) up
  have reciprocal := isNumber_one_div (isNumber_of_isFinite (direction axis))
  have nonzero := value_one_div_ne_zero (direction axis)
  exact ⟨lowValue_mul_mono (isNumber_sub_of_isFinite ht (origin axis)) reciprocal nonzero products,
    highValue_mul_mono (isNumber_sub_of_isFinite hs (origin axis)) reciprocal nonzero products⟩

theorem crossing_anti (down : value (1 / ray.direction.along axis) ≤ 0) (h : s ≤ t) :
    lowValue (ray.crossing axis t) ≤ lowValue (ray.crossing axis s) ∧
      highValue (ray.crossing axis t) ≤ highValue (ray.crossing axis s) := by
  obtain ⟨hs, ht, -⟩ := (le_iff s t).mp h
  have products := EReal.mul_le_mul_of_nonpos_right (value_sub_mono (origin axis) h) down
  have reciprocal := isNumber_one_div (isNumber_of_isFinite (direction axis))
  have nonzero := value_one_div_ne_zero (direction axis)
  exact ⟨lowValue_mul_mono (isNumber_sub_of_isFinite hs (origin axis)) reciprocal nonzero products,
    highValue_mul_mono (isNumber_sub_of_isFinite ht (origin axis)) reciprocal nonzero products⟩

/-! ## Clipping -/

omit origin direction in
theorem Interval.within_of_values {near far near' far' : Float32} {r r' : Interval}
    (range : r.Within r') (low : lowValue near' ≤ lowValue near)
    (high : highValue far ≤ highValue far') :
    Interval.Within ⟨maxNum near r.lo, minNum far r.hi⟩ ⟨maxNum near' r'.lo,
      minNum far' r'.hi⟩ := by
  obtain ⟨loOuter, loInner, below⟩ := (le_iff _ _).mp range.1
  obtain ⟨hiInner, hiOuter, above⟩ := (le_iff _ _).mp range.2
  -- a crossing that is NaN leaves the end of the range, as the infinity does for which it is read
  constructor
  · have left : IsNumber (maxNum near' r'.lo) := isNumber_maxNum loOuter
    have right : IsNumber (maxNum near r.lo) := isNumber_maxNum loInner
    refine (le_iff _ _).mpr ⟨left, right, ?_⟩
    rw [← lowValue_eq left, ← lowValue_eq right, lowValue_maxNum, lowValue_maxNum,
      lowValue_eq loOuter, lowValue_eq loInner]
    exact max_le_max low below
  · have left : IsNumber (minNum far r.hi) := isNumber_minNum hiInner
    have right : IsNumber (minNum far' r'.hi) := isNumber_minNum hiOuter
    refine (le_iff _ _).mpr ⟨left, right, ?_⟩
    rw [← highValue_eq left, ← highValue_eq right, highValue_minNum, highValue_minNum,
      highValue_eq hiInner, highValue_eq hiOuter]
    exact min_le_min high above

theorem Box.clip_within {a b : Box} {r r' : Interval} (box : (a.along axis).Within (b.along axis))
    (range : r.Within r') : (a.clip ray axis r).Within (b.clip ray axis r') := by
  have reciprocal := isNumber_one_div (isNumber_of_isFinite (direction axis))
  unfold Box.clip
  dsimp only
  -- the sign of the reciprocal says which face is met first, for both boxes alike
  by_cases negative : 1 / ray.direction.along axis < 0
  · have down := ((lt_iff _ _).mp negative).2.2.le
    rw [if_pos negative, if_pos negative, if_pos negative, if_pos negative]
    exact Interval.within_of_values range (crossing_anti origin direction down box.2).1
      (crossing_anti origin direction down box.1).2
  · have up : 0 ≤ value (1 / ray.direction.along axis) := by
      rw [lt_iff] at negative
      exact not_lt.mp fun below => negative ⟨reciprocal, rfl, below⟩
    rw [if_neg negative, if_neg negative, if_neg negative, if_neg negative]
    exact Interval.within_of_values range (crossing_mono origin direction up box.1).1
      (crossing_mono origin direction up box.2).2

/-- A ray that meets a box within a range meets each larger box within each larger range. -/
theorem Box.isHit_mono {a b : Box} {r r' : Interval} (box : a.Within b) (range : r.Within r')
    (h : a.isHit ray r = true) : b.isHit ray r' = true := by
  have alongX := Box.clip_within origin direction (box .x) range
  have alongY := Box.clip_within origin direction (box .y) alongX
  have alongZ := Box.clip_within origin direction (box .z) alongY
  simp only [Box.isHit, Bool.and_eq_true, Bool.not_eq_true'] at h ⊢
  obtain ⟨inX, inY, inZ⟩ := h
  exact ⟨alongX.not_isEmpty inX, alongY.not_isEmpty inY, alongZ.not_isEmpty inZ⟩

end

/-- A longer range is clipped to a longer one, whatever the ray. -/
theorem Box.clip_within_range (b : Box) (ray : Ray) (axis : Axis) {r r' : Interval}
    (range : r.Within r') :
    (b.clip ray axis r).Within (b.clip ray axis r') :=
  Interval.within_of_values range le_rfl le_rfl

/-- Any ray that meets a box within a range meets it within each longer range. -/
theorem Box.isHit_mono_range {b : Box} {r r' : Interval} (range : r.Within r')
    (h : b.isHit ray r = true) :
    b.isHit ray r' = true := by
  have alongX := b.clip_within_range ray .x range
  have alongY := b.clip_within_range ray .y alongX
  have alongZ := b.clip_within_range ray .z alongY
  simp only [Box.isHit, Bool.and_eq_true, Bool.not_eq_true'] at h ⊢
  obtain ⟨inX, inY, inZ⟩ := h
  exact ⟨alongX.not_isEmpty inX, alongY.not_isEmpty inY, alongZ.not_isEmpty inZ⟩

end RayTracer
