import RayTracer.Proofs.Geometry.Parallel
import RayTracer.Proofs.Number.Extremes

/-! # Hulls of boxes

A hull is known by its ends: along each axis the least lower end and the greatest upper end of the
boxes in it. `Box.IsUnion` says so for a list of boxes, NaN ends included, which count as missing.
All that is claimed of hulls follows from it, since a list does not change its extremes when it is
reordered or when an element comes twice.

`Box.isHit_empty` is the other half of the claim that the empty box is neutral: no ray meets it.
-/

namespace RayTracer

open Number

variable {a b c : Box} {l l' : List Box}

instance (i : Interval) : Decidable i.HasNumbers := inferInstanceAs (Decidable (_ ∧ _))

instance (b : Box) : Decidable b.HasNumbers :=
  inferInstanceAs (Decidable (∀ axis, (b.along axis).HasNumbers))

/-! ## Unions -/

/-- The same ends, up to the sign of a zero and with NaN in the same places. -/
def Box.Alike (a b : Box) : Prop :=
  ∀ axis, Number.Alike (a.along axis).lo (b.along axis).lo ∧
    Number.Alike (a.along axis).hi (b.along axis).hi

/-- Along each axis the lower end is the least one of the boxes and the upper end the greatest one,
where NaN counts as missing. -/
def Box.IsUnion (b : Box) (l : List Box) : Prop :=
  ∀ axis, IsLeastOf (l.map fun c => (c.along axis).lo) (b.along axis).lo ∧
    IsGreatestOf (l.map fun c => (c.along axis).hi) (b.along axis).hi

/-- No end of the inner box that is a number lies outside. -/
def Box.Encloses (outer inner : Box) : Prop :=
  ∀ axis, (IsNumber (inner.along axis).lo → (outer.along axis).lo ≤ (inner.along axis).lo) ∧
    (IsNumber (inner.along axis).hi → (inner.along axis).hi ≤ (outer.along axis).hi)

namespace Box

theorem Alike.trans (h : a.Alike b) (h' : b.Alike c) : a.Alike c :=
  fun axis => ⟨(h axis).1.trans (h' axis).1, (h axis).2.trans (h' axis).2⟩

theorem isUnion_singleton (b : Box) : b.IsUnion [b] :=
  fun _ => ⟨isExtreme_singleton orders_le _, isExtreme_singleton orders_ge _⟩

theorem along_hull (a b : Box) (axis : Axis) :
    (a.hull b).along axis = (a.along axis).hull (b.along axis) := by
  cases axis <;> rfl

theorem IsUnion.hull (left : a.IsUnion l) (right : b.IsUnion l') :
    (a.hull b).IsUnion (l ++ l') := by
  intro axis
  rw [along_hull, List.map_append, List.map_append]
  exact ⟨(left axis).1.minNum (right axis).1, (left axis).2.maxNum (right axis).2⟩

theorem isUnion_pair (a b : Box) : (a.hull b).IsUnion [a, b] :=
  (isUnion_singleton a).hull (isUnion_singleton b)

theorem IsUnion.of_mem_iff (union : b.IsUnion l) (same : ∀ c, c ∈ l ↔ c ∈ l') : b.IsUnion l' := by
  intro axis
  refine ⟨(union axis).1.of_mem_iff fun x => ?_, (union axis).2.of_mem_iff fun x => ?_⟩
  · simp only [List.mem_map, same]
  · simp only [List.mem_map, same]

theorem IsUnion.foldl_hull {α : Type} (union : b.IsUnion l) (f : α → Box) (items : List α) :
    (items.foldl (fun bounds i => bounds.hull (f i)) b).IsUnion (l ++ items.map f) := by
  induction items generalizing b l with
  | nil => rwa [List.map_nil, List.append_nil]
  | cons i items ih =>
    rw [List.map_cons, List.append_cons]
    exact ih (union.hull (isUnion_singleton (f i)))

theorem IsUnion.alike (left : a.IsUnion l) (right : b.IsUnion l) : a.Alike b :=
  fun axis => ⟨(left axis).1.alike orders_le (right axis).1,
    (left axis).2.alike orders_ge (right axis).2⟩

theorem IsUnion.encloses (union : b.IsUnion l) (mem : c ∈ l) : b.Encloses c := by
  intro axis
  exact ⟨(union axis).1.2 _ (List.mem_map_of_mem mem), (union axis).2.2 _ (List.mem_map_of_mem mem)⟩

theorem Encloses.within (encloses : b.Encloses c) (numbers : c.HasNumbers) : c.Within b :=
  fun axis => ⟨(encloses axis).1 (numbers axis).1, (encloses axis).2 (numbers axis).2⟩

theorem Encloses.hasNumbers (encloses : b.Encloses c) (numbers : c.HasNumbers) :
    b.HasNumbers := fun axis =>
  ⟨((le_iff _ _).mp (encloses.within numbers axis).1).1,
    ((le_iff _ _).mp (encloses.within numbers axis).2).2.1⟩

/-! ## The laws of hulls -/

theorem hull_comm (a b : Box) : (a.hull b).Alike (b.hull a) :=
  (isUnion_pair a b).alike ((isUnion_pair b a).of_mem_iff fun _ => (List.Perm.swap a b []).mem_iff)

theorem hull_assoc (a b c : Box) : ((a.hull b).hull c).Alike (a.hull (b.hull c)) :=
  ((isUnion_pair a b).hull (isUnion_singleton c)).alike
    ((isUnion_singleton a).hull (isUnion_pair b c))

theorem hull_self (b : Box) : (b.hull b).Alike b := by
  refine ((isUnion_pair b b).of_mem_iff fun c => ?_).alike (isUnion_singleton b)
  simp only [List.mem_cons, or_self_left]

theorem along_empty (axis : Axis) : empty.along axis = .empty := by cases axis <;> rfl

/-- No end of a box is beyond the ends of the empty one. -/
theorem hull_empty (numbers : b.HasNumbers) : (b.hull .empty).Alike b := by
  intro axis
  rw [along_hull, along_empty]
  exact ⟨alike_minNum_infinity (numbers axis).1, alike_maxNum_neg_infinity (numbers axis).2⟩

theorem IsUnion.of_empty_cons (union : b.IsUnion (.empty :: l)) (mem : c ∈ l)
    (numbers : c.HasNumbers) :
    b.IsUnion l := by
  intro axis
  obtain ⟨least, greatest⟩ := union axis
  rw [List.map_cons, along_empty] at least greatest
  obtain ⟨low, high⟩ := numbers axis
  refine ⟨least.of_cons orders_le (List.mem_map_of_mem mem) ?_,
    greatest.of_cons orders_ge (List.mem_map_of_mem mem) ?_⟩
  · exact (le_iff _ _).mpr ⟨low, by decide, by rw [Interval.empty, value_infinity]; exact le_top⟩
  · exact (le_iff _ _).mpr ⟨by decide, high,
      by rw [Interval.empty, value_neg_infinity]; exact bot_le⟩

theorem empty_hull (numbers : b.HasNumbers) : (Box.empty.hull b).Alike b :=
  (hull_comm .empty b).trans (hull_empty numbers)

end Box

/-! ## Searching in hulls -/

variable {ray : Ray} {axis : Axis} {inner outer range : Interval}

/-- Nothing is left of a range that ends before it begins. -/
theorem Box.ordered_of_isHit (ends : range.HasNumbers) (h : b.isHit ray range = true) :
    range.lo ≤ range.hi := by
  rw [← isHitAlong_xyz, isHitAlong_cons_iff _ _ ends] at h
  exact h _ List.mem_cons_self _ List.mem_cons_self

theorem Interval.within_of_subset (ordered : inner.lo ≤ inner.hi)
    (subset : ∀ t, inner.contains t = true → outer.contains t = true) : inner.Within outer := by
  obtain ⟨lo, hi, -⟩ := (le_iff _ _).mp ordered
  have first :=
    subset inner.lo ((inner.contains_iff _).mpr ⟨orders_le.of_alike lo (.refl _), ordered⟩)
  have last :=
    subset inner.hi ((inner.contains_iff _).mpr ⟨ordered, orders_le.of_alike hi (.refl _)⟩)
  exact ⟨((outer.contains_iff _).mp first).1, ((outer.contains_iff _).mp last).2⟩

/-- A product of an infinity with a number other than zero is an infinity, which rounding leaves
alone. -/
theorem rounded_infinite_mul {i r : EReal} (infinite : i = ⊤ ∨ i = ⊥) (nonzero : r ≠ 0) :
    rounded (i * r) = i * r := by
  obtain below | above := lt_or_gt_of_ne nonzero
  · obtain rfl | rfl := infinite
    · rw [EReal.top_mul_of_neg below, rounded_bot]
    · rw [EReal.bot_mul_of_neg below, rounded_top]
  · obtain rfl | rfl := infinite
    · rw [EReal.top_mul_of_pos above, rounded_top]
    · rw [EReal.bot_mul_of_pos above, rounded_bot]

section

variable (origin : ray.origin.IsFinite) (direction : ray.direction.IsFinite)

include origin direction

/-- A ray that meets a box within a range meets each box that encloses it within each range that
contains the first one. -/
theorem Box.isHit_of_encloses (encloses : b.Encloses c) (numbers : c.HasNumbers)
    (ends : inner.HasNumbers) (subset : ∀ t, inner.contains t = true → outer.contains t = true)
    (h : c.isHit ray inner = true) :
    b.isHit ray outer = true :=
  Box.isHit_mono origin direction (encloses.within numbers)
    (Interval.within_of_subset (Box.ordered_of_isHit ends h) subset) h

/-- A plane at an infinity is crossed at an infinity. -/
theorem Ray.crossing_infinite (axis : Axis) {s : Float32} (infinite : s.isInf = true) :
    IsNumber (ray.crossing axis s) ∧
      value (ray.crossing axis s) = value s * value (1 / ray.direction.along axis) := by
  rw [isInf_iff] at infinite
  have number : IsNumber s := by
    by_contra nan
    simp [value_of_not_isNumber nan] at infinite
  obtain ⟨o, reads⟩ := exists_reads_iff.mpr (origin axis)
  have difference := isNumber_sub_of_isFinite number (origin axis)
  have reciprocal := isNumber_one_div (isNumber_of_isFinite (direction axis))
  have nonzero := value_one_div_ne_zero (direction axis)
  -- no finite origin moves an infinite plane
  have same : value (s - ray.origin.along axis) = value s := by
    rw [value_sub difference, reads.value]
    obtain top | bot := infinite
    · rw [top, EReal.top_sub_coe, rounded_top]
    · rw [bot, EReal.bot_sub, rounded_bot]
  have product : IsNumber (ray.crossing axis s) := by
    refine mul_isNumber_iff.mpr ⟨difference, reciprocal, fun zero => ?_, fun zero => nonzero zero.2⟩
    rw [same] at zero
    simp [zero.1] at infinite
  refine ⟨product, ?_⟩
  rw [Ray.crossing, value_mul product, same, rounded_infinite_mul infinite nonzero]

/-- The empty box is entered after everything and left before everything. -/
theorem Box.value_window_empty (axis : Axis) :
    value (Box.empty.window ray axis).lo = ⊤ ∧ value (Box.empty.window ray axis).hi = ⊥ := by
  obtain ⟨numberTop, top⟩ := Ray.crossing_infinite origin direction axis (s := infinity) (by decide)
  obtain ⟨numberBot, bot⟩ :=
    Ray.crossing_infinite origin direction axis (s := -infinity) (by decide)
  rw [value_infinity] at top
  rw [value_neg_infinity] at bot
  have nonzero := value_one_div_ne_zero (direction axis)
  by_cases down : 1 / ray.direction.along axis < 0
  · obtain ⟨near, far⟩ := Box.value_window_down (b := .empty) down
    have below := ((lt_iff _ _).mp down).2.2
    rw [near, far, along_empty, Interval.empty, lowValue_eq numberBot,
      highValue_eq numberTop, top, bot]
    exact ⟨EReal.bot_mul_of_neg below, EReal.top_mul_of_neg below⟩
  · obtain ⟨near, far⟩ := Box.value_window_up (b := .empty) down
    have reciprocal := isNumber_one_div (isNumber_of_isFinite (direction axis))
    have up := (zero_le_iff.mp ((number_not_lt reciprocal (show IsNumber 0 from rfl)).mp down)).2
    have above := up.lt_of_ne nonzero.symm
    rw [near, far, along_empty, Interval.empty, lowValue_eq numberTop,
      highValue_eq numberBot, top, bot]
    exact ⟨EReal.top_mul_of_pos above, EReal.bot_mul_of_pos above⟩

theorem Box.isHit_empty (ends : range.HasNumbers) : Box.empty.isHit ray range = false := by
  rw [← Bool.not_eq_true]
  intro hit
  rw [← isHitAlong_xyz, isHitAlong_cons_iff _ _ ends] at hit
  have mem : Box.empty.window ray .x ∈ range :: [Axis.x, .y, .z].map (Box.empty.window ray) :=
    List.mem_cons_of_mem _ (List.mem_map_of_mem (Axis.mem_xyz .x))
  have order := ((le_iff _ _).mp (hit _ mem _ mem)).2.2
  obtain ⟨entered, left⟩ := Box.value_window_empty origin direction .x
  rw [entered, left] at order
  exact absurd order (not_le.mpr bot_lt_top)

end

end RayTracer
