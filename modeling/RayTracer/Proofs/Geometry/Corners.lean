import RayTracer.Proofs.Geometry.Hulls
import RayTracer.Proofs.Number.Absorption
import RayTracer.Proofs.Number.Nearest

/-! # Boxes that corners span

A box of two corners holds both, in whichever order they come. Its extents are padded where they are
flat, so that it has a volume. `Box.ofCorners_thick_iff` says how far this goes: an extent has a
thickness exactly if the corners differ along the axis or lie within 1024 of the origin. Farther out
the padding is less than half of the last place, and rounding takes it away (`Box.ofCorners_flat`).
-/

namespace RayTracer

open Number

variable {i j : Interval} {p q : Vec3} {l h : ℝ}

/-! ## Padded extents -/

/-- The padding at each end is between a quarter and half of the last place beyond 1024. -/
theorem Interval.exists_padding :
    ∃ d : ℝ, Reads (minThickness / 2) d ∧ (2 : ℝ) ^ (10 - 25 : ℤ) < d ∧ d < 2 ^ (10 - 24 : ℤ) := by
  have reads : Reads (minThickness / 2) (13743895 * 2 ^ (-38 : ℤ)) :=
    reads_of_field (x := minThickness / 2) (by decide)
  exact ⟨_, reads, by norm_num, by norm_num⟩

/-- Padding moves no end inwards. It leaves an interval flat exactly if that is a single number
beyond 1024. -/
theorem Interval.exists_padded (low : Reads i.lo l) (high : Reads i.hi h) (order : l ≤ h) :
    ∃ l' h', Reads i.padded.lo l' ∧ Reads i.padded.hi h' ∧ l' ≤ l ∧ h ≤ h' ∧
      (l' < h' ↔ l ≠ h ∨ |l| ≤ 2 ^ (10 : ℤ)) := by
  obtain ⟨d, readsD, least, most⟩ := exists_padding
  have pos : 0 < d := lt_trans (by positivity) least
  have small : d ≤ 1 := most.le.trans (by norm_num)
  unfold padded
  split_ifs with flat
  · obtain ⟨t, above, wider⟩ := high.stays.exists_rounded_add pos.le small
    obtain ⟨u, below, lower⟩ := low.stays.neg.exists_rounded_add pos.le small
    rw [neg_add_eq_sub, ← neg_sub, EReal.coe_neg, rounded_neg, neg_eq_iff_eq_neg,
      ← EReal.coe_neg] at below
    obtain ⟨numberHi, valueHi⟩ := high.add readsD
    obtain ⟨numberLo, valueLo⟩ := low.sub readsD
    have wide : -u ≤ l := neg_le.mp lower
    refine ⟨-u, t, ⟨numberLo, valueLo.trans below⟩, ⟨numberHi, valueHi.trans above⟩,
      wide, wider, ?_⟩
    -- where the ends are equal, only the padding can keep them apart
    obtain rfl | less := order.eq_or_lt
    · rw [← low.stays.roundReal_sub_lt_add_iff (by norm_num) least most,
        roundReal_eq_of_rounded below, roundReal_eq_of_rounded above]
      simp
    · exact iff_of_true (wide.trans_lt (less.trans_le wider)) (.inl less.ne)
  · have less : l < h := by
      refine order.lt_of_ne fun same => flat ?_
      obtain ⟨number, none⟩ := high.sub low
      rw [same, sub_self, EReal.coe_zero, rounded_zero] at none
      have thickness : IsNumber minThickness ∧ 0 < value minThickness := zero_lt_iff.mp (by decide)
      exact (lt_iff _ _).mpr ⟨number, thickness.1, none.trans_lt thickness.2⟩
    exact ⟨l, h, low, high, le_rfl, le_rfl, iff_of_true less (.inl less.ne)⟩

theorem Interval.alike_padded (low : Alike i.lo j.lo) (high : Alike i.hi j.hi) :
    Alike i.padded.lo j.padded.lo ∧ Alike i.padded.hi j.padded.hi := by
  have same : i.size < minThickness ↔ j.size < minThickness := (high.sub low).lt_iff (.refl _)
  unfold padded
  by_cases flat : i.size < minThickness
  · rw [if_pos flat, if_pos (same.mp flat)]
    exact ⟨low.sub (.refl _), high.add (.refl _)⟩
  · rw [if_neg flat, if_neg (same.not.mp flat)]
    exact ⟨low, high⟩

/-- Padding loses no end, infinite ones included. -/
theorem Interval.HasNumbers.padded (numbers : i.HasNumbers) : i.padded.HasNumbers := by
  obtain ⟨low, high⟩ := numbers
  have padding : (minThickness / 2).isFinite = true := by decide
  obtain ⟨notTop, notBot⟩ := value_ne_infinity padding
  unfold Interval.padded
  split_ifs
  · exact ⟨isNumber_sub_of_isFinite low padding,
      add_isNumber_iff.mpr ⟨high, isNumber_of_isFinite padding,
      fun infinite => notBot infinite.2, fun infinite => notTop infinite.2⟩⟩
  · exact ⟨low, high⟩

/-! ## Boxes -/

theorem Box.along_ofCorners (p q : Vec3) (axis : Axis) : (ofCorners p q).along axis =
    Interval.padded ⟨minNum (p.along axis) (q.along axis),
      maxNum (p.along axis) (q.along axis)⟩ := by
  cases axis <;> rfl

theorem Box.hasNumbers_ofCorners (p : Vec3) (numbers : ∀ axis, IsNumber (q.along axis)) :
    (ofCorners p q).HasNumbers := by
  intro axis
  rw [along_ofCorners]
  exact Interval.HasNumbers.padded ⟨isNumber_minNum (numbers axis), isNumber_maxNum (numbers axis)⟩

theorem Box.alike_ofCorners_comm (p q : Vec3) : (ofCorners p q).Alike (ofCorners q p) := by
  intro axis
  rw [along_ofCorners, along_ofCorners]
  exact Interval.alike_padded (alike_minNum_comm _ _) (alike_maxNum_comm _ _)

/-- The ends along an axis, for corners at `r` and `s` there. -/
theorem Box.exists_extent {axis : Axis} {r s : ℝ} (first : Reads (p.along axis) r)
    (second : Reads (q.along axis) s) :
    ∃ l' h', Reads ((ofCorners p q).along axis).lo l' ∧ Reads ((ofCorners p q).along axis).hi h' ∧
      l' ≤ min r s ∧ max r s ≤ h' ∧ (l' < h' ↔ r ≠ s ∨ |r| ≤ 2 ^ (10 : ℤ)) := by
  rw [along_ofCorners]
  obtain ⟨l', h', low, high, wide, wider, thick⟩ := Interval.exists_padded
    (i := ⟨minNum (p.along axis) (q.along axis), maxNum (p.along axis) (q.along axis)⟩)
    (first.minNum second) (first.maxNum second) min_le_max
  refine ⟨l', h', low, high, wide, wider, thick.trans ?_⟩
  obtain rfl | apart := eq_or_ne r s
  · rw [min_self, max_self]
  · exact iff_of_true (.inl (min_lt_max.mpr apart).ne) (.inl apart)

/-- Finite corners span a box of finite extents, padded or not. -/
theorem Box.isSolid_ofCorners (first : p.IsFinite) (second : q.IsFinite) :
    (ofCorners p q).IsSolid := by
  intro axis
  obtain ⟨r, readsP⟩ := exists_reads_iff.mpr (first axis)
  obtain ⟨s, readsQ⟩ := exists_reads_iff.mpr (second axis)
  obtain ⟨l, h, low, high, wide, wider, -⟩ := exists_extent readsP readsQ
  refine ⟨exists_reads_iff.mp ⟨l, low⟩, exists_reads_iff.mp ⟨h, high⟩, (low.le_iff high).mpr ?_⟩
  exact (wide.trans min_le_max).trans wider

/-- Two finite corners span the same box in either order. It holds both corners, and along an axis
it has a thickness exactly if the corners differ there or lie within 1024 of the origin. -/
theorem Box.ofCorners_thick_iff (p q : Vec3) (first : p.IsFinite) (second : q.IsFinite) :
    (ofCorners p q).Alike (ofCorners q p) ∧ ∀ axis,
      let extent := (ofCorners p q).along axis
      extent.contains (p.along axis) = true ∧ extent.contains (q.along axis) = true ∧
        (extent.lo < extent.hi ↔ (p.along axis == q.along axis) = false ∨
          (p.along axis).abs ≤ 1024) := by
  refine ⟨alike_ofCorners_comm p q, fun axis => ?_⟩
  obtain ⟨r, readsP⟩ := exists_reads_iff.mpr (first axis)
  obtain ⟨s, readsQ⟩ := exists_reads_iff.mpr (second axis)
  obtain ⟨l, h, low, high, wide, wider, thick⟩ := exists_extent readsP readsQ
  have limit : Reads 1024 (2 ^ (10 : ℤ)) := reads_power (by decide) rfl
  intro extent
  rw [extent.contains_iff, extent.contains_iff, low.le_iff readsP, low.le_iff readsQ,
    readsP.le_iff high, readsQ.le_iff high, low.lt_iff high, thick, readsP.abs.le_iff limit,
    ← Bool.not_eq_true, readsP.beq_iff readsQ]
  obtain ⟨wideP, wideQ⟩ := le_min_iff.mp wide
  obtain ⟨widerP, widerQ⟩ := max_le_iff.mp wider
  exact ⟨⟨wideP, widerP⟩, ⟨wideQ, widerQ⟩, .rfl⟩

/-- A square at 1024 and one at 2048, both without thickness: only the first one is padded. -/
theorem Box.ofCorners_thick_iff_square :
    let p : Vec3 := ⟨1024, 2048, -3⟩
    let q : Vec3 := ⟨1024, 2048, 5⟩
    p.IsFinite ∧ q.IsFinite ∧ (ofCorners p q).Alike (ofCorners q p) ∧
      (∀ axis, ((ofCorners p q).along axis).contains (p.along axis) = true ∧
        ((ofCorners p q).along axis).contains (q.along axis) = true) ∧
      (ofCorners p q).x.lo < (ofCorners p q).x.hi ∧ ¬(ofCorners p q).y.lo < (ofCorners p q).y.hi ∧
      (ofCorners p q).z.lo < (ofCorners p q).z.hi := by
  intro p q
  have first : p.IsFinite := by decide
  have second : q.IsFinite := by decide
  obtain ⟨alike, extents⟩ := ofCorners_thick_iff p q first second
  refine ⟨first, second, alike, fun axis => ⟨(extents axis).1, (extents axis).2.1⟩, ?_, ?_, ?_⟩
  · exact (extents .x).2.2.mpr (by decide)
  · exact (extents .y).2.2.not.mpr (by decide)
  · exact (extents .z).2.2.mpr (by decide)

/-- Two corners of a square that stands 2048 from the origin: the box is as flat as the square. -/
theorem Box.ofCorners_flat :
    let p : Vec3 := ⟨2048, 0, 0⟩
    let q : Vec3 := ⟨2048, 1, 1⟩
    p.IsFinite ∧ q.IsFinite ∧ ¬(ofCorners p q).x.lo < (ofCorners p q).x.hi ∧
      (ofCorners p q).x.size = 0 := by
  decide

end RayTracer
