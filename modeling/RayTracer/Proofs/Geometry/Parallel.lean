import RayTracer.Proofs.Geometry.Directions

/-! # The slab test as one comparison

The slab test goes from axis to axis, cuts the range and stops where nothing is left. For a finite
ray and a finite box it comes to this: along an axis whose reciprocal is infinite the ray must run
within the box, ends included, and the intervals of the other axes must have a common part with the
range. So the order of the axes does not matter, nor that the test stops early (`Box.isHit_iff`).

* `Interval.AllMeet` says that intervals have a common part, by their ends in pairs. Cutting a range
  by one interval after the other leaves something exactly then (`Interval.meetAll_iff`).
* `Box.window` is what an axis leaves of all parameters. The slab test cuts the range by the
  windows, so it succeeds exactly if they have a common part with the range
  (`Box.isHitAlong_cons_iff`).
* `Box.window_inside`, `Box.window_outside` and `Box.window_crossed` say what a window is. On a face
  of the box the product of zero and infinity is NaN and leaves all parameters, which is also what
  an infinite product leaves there.
-/

namespace RayTracer

open Number

/-! ## Common parts of intervals -/

namespace Interval

/-- The common part of two intervals. -/
def meet (i j : Interval) : Interval := ⟨maxNum i.lo j.lo, minNum i.hi j.hi⟩

/-- The common part of an interval and all of a list, cut by one after the other. -/
def meetAll (range : Interval) (l : List Interval) : Interval := l.foldl meet range

/-- No interval begins after another one ends, and none after its own end. -/
def AllMeet (l : List Interval) : Prop := ∀ i ∈ l, ∀ j ∈ l, i.lo ≤ j.hi

theorem AllMeet.subset {l l' : List Interval} (h : AllMeet l') (subset : l ⊆ l') : AllMeet l :=
  fun i inI j inJ => h i (subset inI) j (subset inJ)

/-- Larger intervals have a common part where smaller ones have. -/
theorem AllMeet.of_within {l l' : List Interval} (h : AllMeet l)
    (larger : ∀ i ∈ l', ∃ j ∈ l, j.Within i) :
    AllMeet l' := by
  intro i inI j inJ
  obtain ⟨i', inI', withinI⟩ := larger i inI
  obtain ⟨j', inJ', withinJ⟩ := larger j inJ
  exact number_le_trans withinI.1 (number_le_trans (h i' inI' j' inJ') withinJ.2)

end Interval

namespace Interval

theorem HasNumbers.meet {i j : Interval} (hj : j.HasNumbers) : (i.meet j).HasNumbers :=
  ⟨isNumber_maxNum hj.1, isNumber_minNum hj.2⟩

/-- Cutting an interval before or after it is compared with the others comes to the same. -/
theorem allMeet_cons_iff {i j r : Interval} {l : List Interval}
    (low : ∀ z, r.lo ≤ z ↔ i.lo ≤ z ∧ j.lo ≤ z) (high : ∀ z, z ≤ r.hi ↔ z ≤ i.hi ∧ z ≤ j.hi) :
    AllMeet (r :: l) ↔ AllMeet (i :: j :: l) := by
  simp only [AllMeet, List.forall_mem_cons, low, high]
  constructor
  · intro ⟨⟨⟨⟨ii, ji⟩, ij, jj⟩, first⟩, rest⟩
    exact ⟨⟨ii, ij, fun k mem => (first k mem).1⟩, ⟨ji, jj, fun k mem => (first k mem).2⟩,
      fun k mem => ⟨(rest k mem).1.1, (rest k mem).1.2, (rest k mem).2⟩⟩
  · intro ⟨⟨ii, ij, firstI⟩, ⟨ji, jj, firstJ⟩, rest⟩
    exact ⟨⟨⟨⟨ii, ji⟩, ij, jj⟩, fun k mem => ⟨firstI k mem, firstJ k mem⟩⟩,
      fun k mem => ⟨⟨(rest k mem).1, (rest k mem).2.1⟩, (rest k mem).2.2⟩⟩

theorem meetAll_iff {range : Interval} {l : List Interval} (ends : range.HasNumbers)
    (numbers : ∀ i ∈ l, i.HasNumbers) :
    (range.meetAll l).lo ≤ (range.meetAll l).hi ↔ AllMeet (range :: l) := by
  induction l generalizing range with
  | nil => simp [meetAll, AllMeet]
  | cons i l ih =>
    obtain ⟨first, rest⟩ := List.forall_mem_cons.mp numbers
    exact (ih first.meet rest).trans (allMeet_cons_iff (fun _ => maxNum_le_iff ends.1 first.1)
      fun _ => le_minNum_iff ends.2 first.2)

end Interval

/-! ## The slab test as a loop -/

/-- What an axis leaves of all parameters. -/
def Box.window (b : Box) (ray : Ray) (axis : Axis) : Interval := b.clip ray axis .all

/-- The slab test over a list of axes, in any order and of any length. -/
def Box.isHitAlong (b : Box) (ray : Ray) : List Axis → Interval → Bool
  | [], _ => true
  | axis :: rest, range =>
    let r := b.clip ray axis range
    !r.isEmpty && b.isHitAlong ray rest r

variable {b : Box} {ray : Ray} {axis : Axis} {range : Interval}

theorem Box.isHitAlong_xyz (b : Box) (ray : Ray) (range : Interval) :
    b.isHitAlong ray [.x, .y, .z] range = b.isHit ray range := by
  simp [isHitAlong, isHit]

theorem Box.hasNumbers_clip (b : Box) (ray : Ray) (axis : Axis) (ends : range.HasNumbers) :
    (b.clip ray axis range).HasNumbers :=
  ⟨isNumber_maxNum ends.1, isNumber_minNum ends.2⟩

theorem Box.hasNumbers_window (b : Box) (ray : Ray) (axis : Axis) :
    (b.window ray axis).HasNumbers :=
  b.hasNumbers_clip ray axis ⟨by decide, by decide⟩

theorem Interval.isEmpty_eq_false_iff (ends : range.HasNumbers) :
    range.isEmpty = false ↔ range.lo ≤ range.hi := by
  rw [isEmpty, decide_eq_false_iff_not, number_not_lt ends.2 ends.1]

theorem Box.allMeet_clip_iff (ends : range.HasNumbers) {l : List Interval} :
    Interval.AllMeet (b.clip ray axis range :: l) ↔
      Interval.AllMeet (range :: b.window ray axis :: l) :=
  Interval.allMeet_cons_iff (fun _ => (maxNum_le_iff_lowest ends.1).trans and_comm)
    fun _ => (le_minNum_iff_highest ends.2).trans and_comm

/-- What the first axis cuts off stays cut off, so the loop may as well look at the end. -/
theorem Box.isHitAlong_cons_iff (first : Axis) (rest : List Axis) (ends : range.HasNumbers) :
    b.isHitAlong ray (first :: rest) range = true ↔
      Interval.AllMeet (range :: (first :: rest).map (b.window ray)) := by
  induction rest generalizing first range with
  | nil =>
    have cut := b.hasNumbers_clip ray first ends
    rw [List.map_singleton, ← allMeet_clip_iff ends]
    simp [isHitAlong, Interval.isEmpty_eq_false_iff cut, Interval.AllMeet]
  | cons second rest ih =>
    have cut := b.hasNumbers_clip ray first ends
    rw [List.map_cons, ← allMeet_clip_iff ends, ← ih second cut, isHitAlong]
    simp only [Bool.and_eq_true, Bool.not_eq_true', and_iff_right_iff_imp]
    -- a range with nothing in it leaves nothing to the axes after it
    intro hit
    exact (Interval.isEmpty_eq_false_iff cut).mpr
      ((ih second cut).mp hit _ List.mem_cons_self _ List.mem_cons_self)

/-! ## Windows -/

/-- The reciprocal of the component is an infinity: it is zero, or so small that its reciprocal
overflows. -/
def Ray.isParallel (ray : Ray) (axis : Axis) : Bool := (1 / ray.direction.along axis).isInf

/-- The parameters at which a ray crosses the two planes of an axis, the smaller one first. -/
def Box.span (b : Box) (ray : Ray) (axis : Axis) : Interval :=
  let t₀ := ray.crossing axis (b.along axis).lo
  let t₁ := ray.crossing axis (b.along axis).hi
  ⟨minNum t₀ t₁, maxNum t₀ t₁⟩

/-- The ends of a window are the two crossings, swapped by the sign of the reciprocal. -/
theorem Box.value_window (b : Box) (ray : Ray) (axis : Axis) :
    value (b.window ray axis).lo = lowValue
        (if 1 / ray.direction.along axis < 0 then ray.crossing axis (b.along axis).hi
          else ray.crossing axis (b.along axis).lo) ∧
      value (b.window ray axis).hi = highValue
        (if 1 / ray.direction.along axis < 0 then ray.crossing axis (b.along axis).lo
          else ray.crossing axis (b.along axis).hi) := by
  obtain ⟨low, high⟩ := b.hasNumbers_window ray axis
  have lowest : lowValue (-infinity) = ⊥ := lowValue_eq (by decide)
  have highest : highValue infinity = ⊤ := highValue_eq (by decide)
  rw [← lowValue_eq low, ← highValue_eq high, window, clip, Interval.all]
  dsimp only
  rw [lowValue_maxNum, highValue_minNum, lowest, highest, max_bot_right, min_top_right]
  exact ⟨rfl, rfl⟩

theorem Box.value_window_up (h : ¬1 / ray.direction.along axis < 0) :
    value (b.window ray axis).lo = lowValue (ray.crossing axis (b.along axis).lo) ∧
      value (b.window ray axis).hi = highValue (ray.crossing axis (b.along axis).hi) := by
  have ends := b.value_window ray axis
  rwa [if_neg h, if_neg h] at ends

theorem Box.value_window_down (h : 1 / ray.direction.along axis < 0) :
    value (b.window ray axis).lo = lowValue (ray.crossing axis (b.along axis).hi) ∧
      value (b.window ray axis).hi = highValue (ray.crossing axis (b.along axis).lo) := by
  have ends := b.value_window ray axis
  rwa [if_pos h, if_pos h] at ends

/-- The ends are numbers and not infinities, in order along each axis. -/
def Box.IsSolid (b : Box) : Prop :=
  ∀ axis, (b.along axis).lo.isFinite = true ∧ (b.along axis).hi.isFinite = true ∧
    (b.along axis).lo ≤ (b.along axis).hi

section

variable (origin : ray.origin.IsFinite) (direction : ray.direction.IsFinite)

include origin direction

/-- Along an axis that is parallel the products are infinities, or NaN on a face. -/
theorem Ray.value_crossing_parallel (parallel : ray.isParallel axis = true) {s : Float32}
    (finite : s.isFinite = true) :
    lowValue (ray.crossing axis s) =
        (if 0 < value (s - ray.origin.along axis) * value (1 / ray.direction.along axis) then ⊤
          else ⊥) ∧
      highValue (ray.crossing axis s) =
        (if value (s - ray.origin.along axis) * value (1 / ray.direction.along axis) < 0 then ⊥
          else ⊤) := by
  have difference := isNumber_sub_of_isFinite (isNumber_of_isFinite finite) (origin axis)
  have reciprocal := isNumber_one_div (isNumber_of_isFinite (direction axis))
  exact ⟨lowValue_mul_infinite difference reciprocal parallel,
    highValue_mul_infinite difference reciprocal parallel⟩

omit origin in
theorem Ray.isParallel_cases (parallel : ray.isParallel axis = true) :
    0 < value (1 / ray.direction.along axis) ∧ ¬1 / ray.direction.along axis < 0 ∨
      value (1 / ray.direction.along axis) < 0 ∧ 1 / ray.direction.along axis < 0 := by
  have reciprocal := isNumber_one_div (isNumber_of_isFinite (direction axis))
  have zero : value 0 = 0 := rfl
  rw [isParallel, isInf_iff] at parallel
  simp only [lt_iff, zero, reciprocal, true_and]
  obtain top | bot := parallel
  · rw [top]
    exact .inl ⟨EReal.zero_lt_top, fun below => below.2.not_gt EReal.zero_lt_top⟩
  · rw [bot]
    exact .inr ⟨EReal.bot_lt_zero, rfl, EReal.bot_lt_zero⟩

/-- Within the box, faces included, an axis that is parallel leaves all parameters. -/
theorem Box.window_inside (solid : b.IsSolid) (parallel : ray.isParallel axis = true)
    (inside : (b.along axis).contains (ray.origin.along axis) = true) :
    value (b.window ray axis).lo = ⊥ ∧ value (b.window ray axis).hi = ⊤ := by
  obtain ⟨finiteLo, finiteHi, -⟩ := solid axis
  obtain ⟨above, below⟩ := (Interval.contains_iff _ _).mp inside
  have number := isNumber_of_isFinite (origin axis)
  have low : value ((b.along axis).lo - ray.origin.along axis) ≤ 0 := by
    rwa [← not_lt, value_sub_pos_iff finiteLo (origin axis),
      number_not_lt number (isNumber_of_isFinite finiteLo)]
  have high : 0 ≤ value ((b.along axis).hi - ray.origin.along axis) := by
    rwa [← not_lt, value_sub_neg_iff finiteHi (origin axis),
      number_not_lt (isNumber_of_isFinite finiteHi) number]
  obtain ⟨lowLo, highLo⟩ := Ray.value_crossing_parallel origin direction parallel finiteLo
  obtain ⟨lowHi, highHi⟩ := Ray.value_crossing_parallel origin direction parallel finiteHi
  -- the reciprocal is infinite, so all that counts is its sign
  obtain ⟨pos, up⟩ | ⟨neg, down⟩ := Ray.isParallel_cases direction parallel
  · obtain ⟨first, last⟩ := Box.value_window_up (b := b) up
    rw [first, last, lowLo, highHi, if_neg, if_neg]
    · exact ⟨rfl, rfl⟩
    · exact not_lt.mpr (EReal.mul_nonneg high pos.le)
    · exact not_lt.mpr (EReal.mul_nonpos_iff.mpr (.inr ⟨low, pos.le⟩))
  · obtain ⟨first, last⟩ := Box.value_window_down (b := b) down
    rw [first, last, lowHi, highLo, if_neg, if_neg]
    · exact ⟨rfl, rfl⟩
    · exact not_lt.mpr (EReal.mul_nonneg_iff.mpr (.inr ⟨low, neg.le⟩))
    · exact not_lt.mpr (EReal.mul_nonpos_iff.mpr (.inl ⟨high, neg.le⟩))

/-- Outside the box an axis that is parallel leaves one infinity alone. -/
theorem Box.window_outside (solid : b.IsSolid) (parallel : ray.isParallel axis = true)
    (outside : (b.along axis).contains (ray.origin.along axis) = false) :
    value (b.window ray axis).lo = value (b.window ray axis).hi ∧
      (value (b.window ray axis).hi = ⊤ ∨ value (b.window ray axis).hi = ⊥) := by
  obtain ⟨finiteLo, finiteHi, order⟩ := solid axis
  have number := isNumber_of_isFinite (origin axis)
  obtain ⟨lowLo, highLo⟩ := Ray.value_crossing_parallel origin direction parallel finiteLo
  obtain ⟨lowHi, highHi⟩ := Ray.value_crossing_parallel origin direction parallel finiteHi
  -- both faces are on one side, so all products have one sign
  have side : 0 < value ((b.along axis).lo - ray.origin.along axis) ∧
        0 < value ((b.along axis).hi - ray.origin.along axis) ∨
      value ((b.along axis).lo - ray.origin.along axis) < 0 ∧
        value ((b.along axis).hi - ray.origin.along axis) < 0 := by
    rw [← Bool.not_eq_true, Interval.contains_iff, not_and_or] at outside
    obtain before | behind := outside
    · rw [← number_not_lt number (isNumber_of_isFinite finiteLo), not_not] at before
      exact .inl ⟨(value_sub_pos_iff finiteLo (origin axis)).mpr before,
        (value_sub_pos_iff finiteHi (origin axis)).mpr (number_lt_of_lt_of_le before order)⟩
    · rw [← number_not_lt (isNumber_of_isFinite finiteHi) number, not_not] at behind
      exact .inr ⟨(value_sub_neg_iff finiteLo (origin axis)).mpr
        (number_lt_of_le_of_lt order behind),
        (value_sub_neg_iff finiteHi (origin axis)).mpr behind⟩
  have ends : lowValue (ray.crossing axis (b.along axis).lo) = ⊤ ∧
      highValue (ray.crossing axis (b.along axis).lo) = ⊤ ∧
        lowValue (ray.crossing axis (b.along axis).hi) = ⊤ ∧
        highValue (ray.crossing axis (b.along axis).hi) = ⊤ ∨
      lowValue (ray.crossing axis (b.along axis).lo) = ⊥ ∧
        highValue (ray.crossing axis (b.along axis).lo) = ⊥ ∧
        lowValue (ray.crossing axis (b.along axis).hi) = ⊥ ∧
        highValue (ray.crossing axis (b.along axis).hi) = ⊥ := by
    rw [lowLo, highLo, lowHi, highHi]
    obtain ⟨pos, -⟩ | ⟨neg, -⟩ := Ray.isParallel_cases direction parallel
    · obtain ⟨lo, hi⟩ | ⟨lo, hi⟩ := side
      · simp [EReal.mul_pos_iff, EReal.mul_neg_iff, pos, lo, hi, pos.not_gt, lo.not_gt, hi.not_gt]
      · simp [EReal.mul_pos_iff, EReal.mul_neg_iff, pos, lo, hi, pos.not_gt, lo.not_gt, hi.not_gt]
    · obtain ⟨lo, hi⟩ | ⟨lo, hi⟩ := side
      · simp [EReal.mul_pos_iff, EReal.mul_neg_iff, neg, lo, hi, neg.not_gt, lo.not_gt, hi.not_gt]
      · simp [EReal.mul_pos_iff, EReal.mul_neg_iff, neg, lo, hi, neg.not_gt, lo.not_gt, hi.not_gt]
  by_cases down : 1 / ray.direction.along axis < 0
  · obtain ⟨first, last⟩ := Box.value_window_down (b := b) down
    rw [first, last]
    obtain ⟨-, highLo, lowHi, -⟩ | ⟨-, highLo, lowHi, -⟩ := ends
    · exact ⟨lowHi.trans highLo.symm, .inl highLo⟩
    · exact ⟨lowHi.trans highLo.symm, .inr highLo⟩
  · obtain ⟨first, last⟩ := Box.value_window_up (b := b) down
    rw [first, last]
    obtain ⟨lowLo, -, -, highHi⟩ | ⟨lowLo, -, -, highHi⟩ := ends
    · exact ⟨lowLo.trans highHi.symm, .inl highHi⟩
    · exact ⟨lowLo.trans highHi.symm, .inr highHi⟩

/-- A reciprocal that is not infinite is not zero either, so every plane is crossed at a number or
infinity. -/
theorem Ray.isNumber_crossing (crossed : ray.isParallel axis = false) {s : Float32}
    (finite : s.isFinite = true) :
    IsNumber (ray.crossing axis s) := by
  have reciprocal := isNumber_one_div (isNumber_of_isFinite (direction axis))
  refine isNumber_mul_iff_not_clash.mpr
    ⟨isNumber_sub_of_isFinite (isNumber_of_isFinite finite) (origin axis), reciprocal, ?_⟩
  rintro (⟨-, infinite⟩ | ⟨-, zero⟩)
  · exact Bool.false_ne_true (crossed.symm.trans infinite)
  · exact value_one_div_ne_zero (direction axis) ((beq_zero_iff reciprocal).mp zero)

theorem Box.hasNumbers_span (solid : b.IsSolid) (crossed : ray.isParallel axis = false) :
    (b.span ray axis).HasNumbers := by
  have last := Ray.isNumber_crossing origin direction crossed (solid axis).2.1
  exact ⟨isNumber_minNum last, isNumber_maxNum last⟩

/-- Swapping the crossings by the sign of the reciprocal puts them in order. -/
theorem Box.window_crossed (solid : b.IsSolid) (crossed : ray.isParallel axis = false) :
    value (b.window ray axis).lo = value (b.span ray axis).lo ∧
      value (b.window ray axis).hi = value (b.span ray axis).hi := by
  obtain ⟨finiteLo, finiteHi, order⟩ := solid axis
  have reciprocal := isNumber_one_div (isNumber_of_isFinite (direction axis))
  have first := Ray.isNumber_crossing origin direction crossed finiteLo
  have last := Ray.isNumber_crossing origin direction crossed finiteHi
  have smaller : value (b.span ray axis).lo =
      min (value (ray.crossing axis (b.along axis).lo))
        (value (ray.crossing axis (b.along axis).hi)) :=
    value_minNum first last
  have larger : value (b.span ray axis).hi =
      max (value (ray.crossing axis (b.along axis).lo))
        (value (ray.crossing axis (b.along axis).hi)) :=
    value_maxNum first last
  rw [smaller, larger]
  -- the box takes the planes in the order of the direction, the span takes the lesser one
  by_cases down : 1 / ray.direction.along axis < 0
  · obtain ⟨near, far⟩ := Box.value_window_down (b := b) down
    have anti := (crossing_anti origin direction ((lt_iff _ _).mp down).2.2.le order).1
    rw [lowValue_eq first, lowValue_eq last] at anti
    rw [near, far, lowValue_eq last, highValue_eq first, min_eq_right anti, max_eq_left anti]
    exact ⟨rfl, rfl⟩
  · obtain ⟨near, far⟩ := Box.value_window_up (b := b) down
    have up : 0 ≤ value (1 / ray.direction.along axis) :=
      (zero_le_iff.mp ((number_not_lt reciprocal (show IsNumber 0 from rfl)).mp down)).2
    have mono := (crossing_mono origin direction up order).1
    rw [lowValue_eq first, lowValue_eq last] at mono
    rw [near, far, lowValue_eq first, highValue_eq last, min_eq_left mono, max_eq_right mono]
    exact ⟨rfl, rfl⟩

end

/-! ## One comparison -/

/-- The axes that are not parallel. -/
def Ray.crossed (ray : Ray) : List Axis := [.x, .y, .z].filter fun axis => !ray.isParallel axis

theorem Ray.mem_crossed : axis ∈ ray.crossed ↔ ray.isParallel axis = false := by
  cases axis <;> simp [crossed]

theorem Axis.mem_xyz (axis : Axis) : axis ∈ [Axis.x, .y, .z] := by cases axis <;> simp

theorem Interval.within_of_value {i j : Interval} (hi : i.HasNumbers) (hj : j.HasNumbers)
    (low : value j.lo ≤ value i.lo) (high : value i.hi ≤ value j.hi) : i.Within j :=
  ⟨(le_iff _ _).mpr ⟨hj.1, hi.1, low⟩, (le_iff _ _).mpr ⟨hi.2, hj.2, high⟩⟩

/-- A finite crossing bounds the window of its axis. -/
theorem Box.window_bounded (crossings : (ray.crossing axis (b.along axis).lo).isFinite = true ∧
    (ray.crossing axis (b.along axis).hi).isFinite = true) : value (b.window ray axis).hi ≠ ⊤ := by
  have finite {s : Float32} (h : s.isFinite = true) : highValue s ≠ ⊤ := by
    rw [highValue_eq (isNumber_of_isFinite h)]
    exact (value_ne_infinity h).1
  by_cases down : 1 / ray.direction.along axis < 0
  · rw [(Box.value_window_down down).2]
    exact finite crossings.1
  · rw [(Box.value_window_up down).2]
    exact finite crossings.2

section

variable (origin : ray.origin.IsFinite) (direction : ray.direction.IsFinite)

include origin direction

theorem Box.allMeet_windows_iff (solid : b.IsSolid) (low : range.lo.isFinite = true)
    (high : IsNumber range.hi)
    (bounded : range.hi.isFinite = true ∨
      ∃ axis, (ray.crossing axis (b.along axis).lo).isFinite = true ∧
      (ray.crossing axis (b.along axis).hi).isFinite = true) :
    Interval.AllMeet (range :: [Axis.x, .y, .z].map (b.window ray)) ↔
      (∀ axis, ray.isParallel axis = true →
        (b.along axis).contains (ray.origin.along axis) = true) ∧
        Interval.AllMeet (range :: ray.crossed.map (b.span ray)) := by
  have ends : range.HasNumbers := ⟨isNumber_of_isFinite low, high⟩
  have mem (axis : Axis) : b.window ray axis ∈ range :: [Axis.x, .y, .z].map (b.window ray) :=
    List.mem_cons_of_mem _ (List.mem_map_of_mem axis.mem_xyz)
  constructor
  · intro common
    refine ⟨fun axis parallel => ?_, common.of_within fun i inI => ?_⟩
    · -- outside the box all that is left is an infinity, which is before the range or after
      -- something
      by_contra outside
      obtain ⟨same, top | bot⟩ :=
        Box.window_outside origin direction solid parallel (Bool.not_eq_true _ ▸ outside)
      · obtain finite | ⟨other, crossings⟩ := bounded
        · have last := ((le_iff _ _).mp (common _ (mem axis) _ List.mem_cons_self)).2.2
          rw [same, top, top_le_iff] at last
          exact (value_ne_infinity finite).1 last
        · have last := ((le_iff _ _).mp (common _ (mem axis) _ (mem other))).2.2
          rw [same, top, top_le_iff] at last
          exact Box.window_bounded crossings last
      · have first := ((le_iff _ _).mp (common _ List.mem_cons_self _ (mem axis))).2.2
        rw [bot, le_bot_iff] at first
        exact (value_ne_infinity low).2 first
    · obtain rfl | inSpans := List.mem_cons.mp inI
      · exact ⟨i, List.mem_cons_self, ends.within_self⟩
      · obtain ⟨axis, crossed, rfl⟩ := List.mem_map.mp inSpans
        rw [Ray.mem_crossed] at crossed
        obtain ⟨first, last⟩ := Box.window_crossed origin direction solid crossed
        exact ⟨_, mem axis, Interval.within_of_value (b.hasNumbers_window ray axis)
          (Box.hasNumbers_span origin direction solid crossed) first.ge last.le⟩
  · rintro ⟨inside, common⟩
    refine common.of_within fun i inI => ?_
    obtain rfl | inWindows := List.mem_cons.mp inI
    · exact ⟨i, List.mem_cons_self, ends.within_self⟩
    · obtain ⟨axis, -, rfl⟩ := List.mem_map.mp inWindows
      have numbers := b.hasNumbers_window ray axis
      cases parallel : ray.isParallel axis with
      | true =>
        obtain ⟨first, last⟩ :=
          Box.window_inside origin direction solid parallel (inside axis parallel)
        exact ⟨range, List.mem_cons_self,
          Interval.within_of_value ends numbers (first ▸ bot_le) (last ▸ le_top)⟩
      | false =>
        obtain ⟨first, last⟩ := Box.window_crossed origin direction solid parallel
        exact ⟨_, List.mem_cons_of_mem _ (List.mem_map_of_mem (Ray.mem_crossed.mpr parallel)),
          Interval.within_of_value (Box.hasNumbers_span origin direction solid parallel) numbers
            first.le last.ge⟩

theorem Box.isHit_iff_common (solid : b.IsSolid) (low : range.lo.isFinite = true)
    (high : IsNumber range.hi)
    (bounded : range.hi.isFinite = true ∨
      ∃ axis, (ray.crossing axis (b.along axis).lo).isFinite = true ∧
      (ray.crossing axis (b.along axis).hi).isFinite = true) :
    b.isHit ray range = true ↔
      (∀ axis, ray.isParallel axis = true →
        (b.along axis).contains (ray.origin.along axis) = true) ∧
        (range.meetAll (ray.crossed.map (b.span ray))).lo ≤
          (range.meetAll (ray.crossed.map (b.span ray))).hi := by
  have ends : range.HasNumbers := ⟨isNumber_of_isFinite low, high⟩
  have numbers : ∀ i ∈ ray.crossed.map (b.span ray), i.HasNumbers := by
    intro i inSpans
    obtain ⟨axis, crossed, rfl⟩ := List.mem_map.mp inSpans
    exact Box.hasNumbers_span origin direction solid (Ray.mem_crossed.mp crossed)
  rw [← isHitAlong_xyz, isHitAlong_cons_iff _ _ ends,
    allMeet_windows_iff origin direction solid low high bounded, Interval.meetAll_iff ends numbers]

end

/-- The axes can be taken in any order. -/
theorem Box.isHitAlong_perm (b : Box) (ray : Ray) (ends : range.HasNumbers) {order : List Axis}
    (perm : order.Perm [.x, .y, .z]) : b.isHitAlong ray order range = b.isHit ray range := by
  cases order with
  | nil => exact absurd perm.length_eq (by decide)
  | cons first rest =>
    rw [Bool.eq_iff_iff, ← isHitAlong_xyz, isHitAlong_cons_iff _ _ ends,
      isHitAlong_cons_iff _ _ ends]
    have windows := perm.map (b.window ray)
    exact ⟨fun common => common.subset (List.cons_subset_cons _ windows.symm.subset),
      fun common => common.subset (List.cons_subset_cons _ windows.subset)⟩

/-- For a finite ray and a box of finite extents the slab test succeeds exactly if the ray runs
within the box along each axis whose reciprocal is infinite, faces included, and the crossings of
the other axes have a common part with the range. The order of the axes does not matter, and to swap
the crossings by the sign of the reciprocal is to take the smaller and the larger one. -/
theorem Box.isHit_iff (b : Box) (ray : Ray) (range : Interval) (solid : b.IsSolid)
    (origin : ray.origin.IsFinite) (direction : ray.direction.IsFinite)
    (low : range.lo.isFinite = true) (high : IsNumber range.hi)
    (bounded : range.hi.isFinite = true ∨
      ∃ axis, (ray.crossing axis (b.along axis).lo).isFinite = true ∧
      (ray.crossing axis (b.along axis).hi).isFinite = true) :
    (b.isHit ray range = true ↔
        (∀ axis, ray.isParallel axis = true →
          (b.along axis).contains (ray.origin.along axis) = true) ∧
          (range.meetAll (ray.crossed.map (b.span ray))).lo ≤
            (range.meetAll (ray.crossed.map (b.span ray))).hi) ∧
      (∀ order : List Axis, order.Perm [.x, .y, .z] →
        b.isHitAlong ray order range = b.isHit ray range) ∧
      ∀ axis, ray.isParallel axis = false →
        ((b.window ray axis).lo == (b.span ray axis).lo) = true ∧
          ((b.window ray axis).hi == (b.span ray axis).hi) = true := by
  refine ⟨Box.isHit_iff_common origin direction solid low high bounded,
    fun order perm => ?_, fun axis crossed => ?_⟩
  · exact b.isHitAlong_perm ray ⟨isNumber_of_isFinite low, high⟩ perm
  · obtain ⟨first, last⟩ := Box.window_crossed origin direction solid crossed
    obtain ⟨windowLo, windowHi⟩ := b.hasNumbers_window ray axis
    obtain ⟨spanLo, spanHi⟩ := Box.hasNumbers_span origin direction solid crossed
    exact ⟨(beq_iff _ _).mpr ⟨windowLo, spanLo, first⟩, (beq_iff _ _).mpr ⟨windowHi, spanHi, last⟩⟩

instance Box.decidableIsSolid (b : Box) : Decidable b.IsSolid :=
  inferInstanceAs (Decidable (∀ _, _ ∧ _ ∧ _))

/-- A ray in a face of a cube, with a zero of each sign in its direction and no end to its range. -/
theorem Box.isHit_iff_face :
    let b := Box.ofCorners (.splat (-1)) (.splat 1)
    let ray : Ray := ⟨⟨1, -1, -5⟩, ⟨0, -0, 1⟩⟩
    let range : Interval := ⟨0, infinity⟩
    b.IsSolid ∧ ray.origin.IsFinite ∧ ray.direction.IsFinite ∧ range.lo.isFinite = true ∧
      IsNumber range.hi ∧ (ray.crossing .z (b.along .z).lo).isFinite = true ∧
      (ray.crossing .z (b.along .z).hi).isFinite = true ∧ (b.isHit ray range = true ↔
        (∀ axis, ray.isParallel axis = true →
          (b.along axis).contains (ray.origin.along axis) = true) ∧
          (range.meetAll (ray.crossed.map (b.span ray))).lo ≤
            (range.meetAll (ray.crossed.map (b.span ray))).hi) ∧
      ray.isParallel .x = true ∧ ray.isParallel .y = true ∧ b.isHit ray range = true := by
  intro b ray range
  have solid : b.IsSolid := by decide
  have origin : ray.origin.IsFinite := by decide
  have direction : ray.direction.IsFinite := by decide
  have low : range.lo.isFinite = true := by decide
  have high : IsNumber range.hi := by decide
  have first : (ray.crossing .z (b.along .z).lo).isFinite = true := by decide
  have last : (ray.crossing .z (b.along .z).hi).isFinite = true := by decide
  have result := Box.isHit_iff b ray range solid origin direction low high (.inr ⟨.z, first, last⟩)
  exact ⟨solid, origin, direction, low, high, first, last, result.1, by decide,
    by decide, by decide⟩

end RayTracer
