import RayTracer.Proofs.Surface.Offset
import RayTracer.Proofs.Surface.Roots

/-! # Rays that leave a sphere

A ray that starts a fixed offset off a contact with a sphere, on the side of the normal, does not
meet the sphere again, if it leaves at an angle whose cosine is large enough for the coordinates,
the radius and the distance from which the contact was found (`Sphere.not_found_of_leaving`).

The contact is inside the sphere by the error of the equation at most
(`Sphere.Solved.abs_residual_le`). The offset adds twice its product with the radius and the cosine
to the square of the distance from the centre, and that is more than the error and than what
computing the square again can lose.
-/

namespace RayTracer

open Number

namespace Sphere

/-! ## Points, seen from the centre -/

section

variable {o c e d τ p g f ε l q e' m : ℝ}

/-- A contact, seen from the centre, against the exact point of the ray. -/
theorem abs_contact_sub_le (start : e = roundReal (o - c))
    (point : p = roundReal (o + roundReal (d * τ))) (offset : g = roundReal (p - c))
    (largeO : |o| ≤ m) (largeC : |c| ≤ m) (largeP : |p| ≤ m) (scale : 1 / 64 ≤ m) :
    |p - c - (e + d * τ)| ≤ 6.1 * m / 2 ^ 24 ∧ |g - (e + d * τ)| ≤ 8.2 * m / 2 ^ 24 := by
  have first := abs_roundReal_sub_le_add (o - c)
  have second := (abs_sum_sub_le point largeO largeP).1
  have third := abs_roundReal_sub_le_add (p - c)
  rw [← start] at first
  rw [← offset] at third
  have dust : (2 : ℝ) ^ (-147 : ℤ) ≤ 1 / 2 ^ 100 ∧ (2 : ℝ) ^ (-150 : ℤ) ≤ 1 / 2 ^ 100 := by norm_num
  have ways := abs_sub o c
  have ways' := abs_sub p c
  have whole : |p - c - (e + d * τ)| ≤ 6.1 * m / 2 ^ 24 := by
    have steps := abs_sub (p - (o + d * τ)) (e - (o - c))
    rw [show p - (o + d * τ) - (e - (o - c)) = p - c - (e + d * τ) by ring] at steps
    linarith
  refine ⟨whole, ?_⟩
  have steps := abs_add_le (g - (p - c)) (p - c - (e + d * τ))
  rw [show g - (p - c) + (p - c - (e + d * τ)) = g - (e + d * τ) by ring] at steps
  linarith

/-- The start of a ray off a contact, seen from the centre, against the exact point moved by the
exact offset. -/
theorem abs_moved_sub_le (contact : |p - c - f| ≤ 6.1 * m / 2 ^ 24)
    (start : q = roundReal (p + roundReal (ε * l))) (offset : e' = roundReal (q - c))
    (largeC : |c| ≤ m) (largeP : |p| ≤ m) (short : |ε * l| ≤ m / 100) (scale : 1 / 64 ≤ m) :
    |e' - (f + ε * l)| ≤ 9.5 * m / 2 ^ 24 := by
  have first := abs_start_sub_le start largeP short
  have second := abs_roundReal_sub_le_add (q - c)
  rw [← offset] at second
  have dust : (2 : ℝ) ^ (-148 : ℤ) ≤ 1 / 2 ^ 100 ∧ (2 : ℝ) ^ (-150 : ℤ) ≤ 1 / 2 ^ 100 := by norm_num
  have ways := abs_sub q c
  have sizeQ := abs_sub_abs_le_abs_sub q (p + ε * l)
  have sum := abs_add_le p (ε * l)
  have steps := abs_add_le (e' - (q - c)) (q - (p + ε * l) + (p - c - f))
  have steps' := abs_add_le (q - (p + ε * l)) (p - c - f)
  rw [show e' - (q - c) + (q - (p + ε * l) + (p - c - f)) = e' - (f + ε * l) by ring] at steps
  linarith

end

/-! ## Contacts from which a ray leaves -/

/-- A contact from which a ray leaves: the exact point `f` and the computed one `g`, both seen from
the centre, the normal `n`, the direction `l` and the cosine `ς` of the angle between them, where
the radius `r` and the coordinates, at most `m`, are not large for the angle. -/
structure Departure (f g n l : Axis → ℝ) (r ς m : ℝ) : Prop where
  residual : |∑ axis, f axis * f axis - r * r| ≤ 96 * (16.01 * (r * ς)) / 2 ^ 24
  offset : ∀ axis, |g axis - f axis| ≤ 8.2 * m / 2 ^ 24
  normal : ∀ axis, n axis = roundReal (g axis / r)
  unit : ∀ axis, |l axis| ≤ 5 / 4
  facing : |ς - ∑ axis, n axis * l axis| ≤ (∑ axis, |n axis * l axis|) / 2 ^ 22 + 2 ^ (-147 : ℤ)
  steep : 1 / 1024 ≤ ς
  solid : 1 / 1024 ≤ r
  within : r ≤ m
  near : m ≤ 16.001 * ς

namespace Departure

variable {f g n l e' : Axis → ℝ} {r ς m b ε : ℝ}

/-- The scales, compared with the product of the radius and the cosine. -/
theorem scales (h : Departure f g n l r ς m) :
    ς ≤ 1024 * (r * ς) ∧ r * m ≤ 16.001 * (r * ς) ∧ r * r ≤ 16.001 * (r * ς) ∧
      r ≤ 1024 * (r * ς) := by
  have posR : 0 < r := lt_of_lt_of_le (by norm_num) h.solid
  have posS : 0 < ς := lt_of_lt_of_le (by norm_num) h.steep
  have product := mul_le_mul_of_nonneg_left h.near posR.le
  refine ⟨?_, by linarith, ?_, ?_⟩
  · nlinarith [h.solid]
  · nlinarith [h.within]
  · nlinarith [h.steep]

/-- The normal, times the radius, is the way from the centre to the exact point. -/
theorem abs_normal_sub_le (h : Departure f g n l r ς m) (small : ∀ axis, |f axis| ≤ b)
    (axis : Axis) :
    |n axis * r - f axis| ≤ 8.21 * m / 2 ^ 24 + b / 2 ^ 24 := by
  have posR : 0 < r := lt_of_lt_of_le (by norm_num) h.solid
  have rounding := abs_roundReal_sub_le_add (g axis / r)
  rw [← h.normal] at rounding
  have scaled : |n axis * r - g axis| ≤ |g axis| / 2 ^ 24 + 2 ^ (-150 : ℤ) * r := by
    calc |n axis * r - g axis| = |n axis - g axis / r| * r := by
          rw [← abs_of_pos posR, ← abs_mul, abs_of_pos posR, sub_mul, div_mul_cancel₀ _ posR.ne']
      _ ≤ (|g axis / r| / 2 ^ 24 + 2 ^ (-150 : ℤ)) * r :=
        mul_le_mul_of_nonneg_right rounding posR.le
      _ = |g axis| / 2 ^ 24 + 2 ^ (-150 : ℤ) * r := by
          rw [abs_div, abs_of_pos posR]
          field_simp
  have dust : (2 : ℝ) ^ (-150 : ℤ) * r ≤ 1 / 2 ^ 100 * r :=
    mul_le_mul_of_nonneg_right (by norm_num) posR.le
  have size := abs_sub_abs_le_abs_sub (g axis) (f axis)
  have steps := abs_add_le (n axis * r - g axis) (g axis - f axis)
  rw [sub_add_sub_cancel] at steps
  linarith [h.offset axis, small axis, h.within]

/-- The weight of the terms that the cosine is made of, times the radius. -/
theorem weight_le (h : Departure f g n l r ς m) (small : ∀ axis, |f axis| ≤ b) :
    (∑ axis, |n axis * l axis|) * r ≤ 3.751 * b + m / 2 ^ 19 := by
  have posR : 0 < r := lt_of_lt_of_le (by norm_num) h.solid
  have nonneg : 0 ≤ b := (abs_nonneg _).trans (small .x)
  rw [Finset.sum_mul]
  have term (axis : Axis) :
      |n axis * l axis| * r ≤ (b + (8.21 * m / 2 ^ 24 + b / 2 ^ 24)) * (5 / 4) := by
    have size := abs_sub_abs_le_abs_sub (n axis * r) (f axis)
    have shifted : |n axis * l axis| * r = |n axis * r| * |l axis| := by
      rw [abs_mul, abs_mul, abs_of_pos posR]
      ring
    rw [shifted]
    refine mul_le_mul ?_ (h.unit axis) (abs_nonneg _) ?_
    · linarith [h.abs_normal_sub_le small axis, small axis]
    · linarith [h.within]
  have total := Axis.sum_le term
  linarith [h.within]

/-- The exact point is not much farther from the centre than the radius. -/
theorem abs_point_le (h : Departure f g n l r ς m) (axis : Axis) : |f axis| ≤ 1.25 * r := by
  have posR : 0 < r := lt_of_lt_of_le (by norm_num) h.solid
  have nonneg (axis : Axis) : 0 ≤ f axis * f axis := mul_self_nonneg _
  obtain ⟨b, size, small⟩ : ∃ b, b * b = ∑ axis, f axis * f axis ∧ ∀ axis, |f axis| ≤ b := by
    refine ⟨√(∑ axis, f axis * f axis),
      Real.mul_self_sqrt (Finset.sum_nonneg fun axis _ => nonneg axis), fun axis => ?_⟩
    refine Real.abs_le_sqrt ?_
    rw [sq]
    exact Finset.single_le_sum (fun axis _ => nonneg axis) (Finset.mem_univ axis)
  have nonnegB : 0 ≤ b := (abs_nonneg _).trans (small .x)
  obtain ⟨first, -, -, last⟩ := h.scales
  -- a cosine is not larger than the point is far
  have cosine : r * ς ≤ 3.9 * b := by
    have sum := (Finset.abs_sum_le_sum_abs (fun axis => n axis * l axis) Finset.univ)
    have most : ς ≤ (1 + 1 / 2 ^ 22) * ∑ axis, |n axis * l axis| + 1 / 2 ^ 100 := by
      have dust : (2 : ℝ) ^ (-147 : ℤ) ≤ 1 / 2 ^ 100 := by norm_num
      linarith [(abs_le.mp h.facing).2, le_abs_self (∑ axis, n axis * l axis)]
    have scaled := mul_le_mul_of_nonneg_right most posR.le
    linarith [h.weight_le small, h.near]
  refine (small axis).trans ?_
  have square := (abs_le.mp h.residual).2
  rw [← size] at square
  have part : b * b ≤ r * r + 0.37 * (r * b) := by
    linarith [mul_le_mul_of_nonneg_right h.solid nonnegB]
  by_contra far
  have product :=
    mul_le_mul (not_le.mp far).le (show 0.88 * r ≤ b - 0.37 * r by linarith) (by positivity) nonnegB
  linarith [mul_pos posR posR]

/-- The exact point, along the direction, is as far out as the computed cosine says. -/
theorem le_sum_mul (h : Departure f g n l r ς m) :
    r * ς - 56 * m / 2 ^ 24 ≤ ∑ axis, f axis * l axis := by
  have posR : 0 < r := lt_of_lt_of_le (by norm_num) h.solid
  have drift : |∑ axis, (n axis * r - f axis) * l axis| ≤ 3 * ((9.46 * m / 2 ^ 24) * (5 / 4)) := by
    refine Axis.abs_sum_le fun axis => ?_
    have close : |n axis * r - f axis| ≤ 9.46 * m / 2 ^ 24 := by
      linarith [h.abs_normal_sub_le h.abs_point_le axis, h.within]
    rw [abs_mul]
    exact mul_le_mul close (h.unit axis) (abs_nonneg _) ((abs_nonneg _).trans close)
  have split : ∑ axis, (n axis * r - f axis) * l axis = (∑ axis, n axis * l axis) * r -
      ∑ axis, f axis * l axis := by
    simp only [Axis.sum_eq]
    ring
  rw [split] at drift
  have dust : (2 : ℝ) ^ (-147 : ℤ) ≤ 1 / 2 ^ 100 := by norm_num
  have most :
      ς ≤ ∑ axis, n axis * l axis + ((∑ axis, |n axis * l axis|) / 2 ^ 22 + 1 / 2 ^ 100) := by
    linarith [(abs_le.mp h.facing).2]
  have scaled := mul_le_mul_of_nonneg_right most posR.le
  linarith [h.weight_le h.abs_point_le, h.within, (abs_le.mp drift).2]

/-- How far from the centre, in each direction, a ray starts that is moved off the contact. -/
theorem abs_moved_le (h : Departure f g n l r ς m) (offset : ε = 13743895 / 2 ^ 37)
    (moved : ∀ axis, |e' axis - (f axis + ε * l axis)| ≤ 9.5 * m / 2 ^ 24) (axis : Axis) :
    |f axis + ε * l axis| ≤ 1.38 * r ∧ |e' axis| ≤ 1.4 * m := by
  have short : |ε * l axis| ≤ 13743895 / 2 ^ 37 * (5 / 4) := by
    rw [abs_mul, offset, abs_of_pos (by norm_num)]
    exact mul_le_mul_of_nonneg_left (h.unit axis) (by norm_num)
  have sum := abs_add_le (f axis) (ε * l axis)
  have size := abs_sub_abs_le_abs_sub (e' axis) (f axis + ε * l axis)
  have near := h.abs_point_le axis
  have exact : |f axis + ε * l axis| ≤ 1.38 * r := by linarith [h.solid]
  exact ⟨exact, by linarith [moved axis, h.within, h.solid]⟩

/-- A ray that is moved off the contact leads away from the centre. -/
theorem leads_away (h : Departure f g n l r ς m) (offset : ε = 13743895 / 2 ^ 37)
    (moved : ∀ axis, |e' axis - (f axis + ε * l axis)| ≤ 9.5 * m / 2 ^ 24) {β : ℝ}
    (angle : |β - ∑ axis, e' axis * l axis| ≤ (∑ axis, |e' axis * l axis|) / 2 ^ 22 +
      2 ^ (-147 : ℤ)) :
    1 / 2 ^ 60 ≤ β := by
  have drift : |∑ axis, (e' axis - (f axis + ε * l axis)) * l axis| ≤
      3 * ((9.5 * m / 2 ^ 24) * (5 / 4)) := by
    refine Axis.abs_sum_le fun axis => ?_
    rw [abs_mul]
    exact mul_le_mul (moved axis) (h.unit axis) (abs_nonneg _) ((abs_nonneg _).trans (moved axis))
  have weight : ∑ axis, |e' axis * l axis| ≤ 3 * ((1.4 * m) * (5 / 4)) := by
    refine Axis.sum_le fun axis => ?_
    have size := (h.abs_moved_le offset moved axis).2
    rw [abs_mul]
    exact mul_le_mul size (h.unit axis) (abs_nonneg _) ((abs_nonneg _).trans size)
  -- along the new direction lies the contact, plus the step, which only adds
  have split : ∑ axis, (e' axis - (f axis + ε * l axis)) * l axis =
      ∑ axis, e' axis * l axis - ∑ axis, f axis * l axis - ε * ∑ axis, l axis * l axis := by
    simp only [Axis.sum_eq]
    ring
  rw [split] at drift
  have square : 0 ≤ ε * ∑ axis, l axis * l axis :=
    mul_nonneg (by rw [offset]; norm_num) (Finset.sum_nonneg fun axis _ => mul_self_nonneg (l axis))
  have dust : (2 : ℝ) ^ (-147 : ℤ) ≤ 1 / 2 ^ 100 := by norm_num
  obtain ⟨first, -, -, last⟩ := h.scales
  linarith [h.le_sum_mul, (abs_le.mp drift).1, (abs_le.mp angle).1, h.near, h.solid]

/-- A ray that is moved off the contact starts outside the sphere, by the computed numbers. -/
theorem starts_outside (h : Departure f g n l r ς m) (offset : ε = 13743895 / 2 ^ 37)
    (moved : ∀ axis, |e' axis - (f axis + ε * l axis)| ≤ 9.5 * m / 2 ^ 24) {κ : ℝ}
    (distance : |κ - ∑ axis, e' axis * e' axis| ≤ (∑ axis, |e' axis * e' axis|) / 2 ^ 22 +
      2 ^ (-147 : ℤ)) :
    roundReal (r * r) ≤ κ := by
  have posR : 0 < r := lt_of_lt_of_le (by norm_num) h.solid
  have drift : |∑ axis, (f axis + ε * l axis) * (e' axis - (f axis + ε * l axis))| ≤
      3 * ((1.38 * r) * (9.5 * m / 2 ^ 24)) := by
    refine Axis.abs_sum_le fun axis => ?_
    rw [abs_mul]
    exact mul_le_mul (h.abs_moved_le offset moved axis).1 (moved axis) (abs_nonneg _)
      (by positivity)
  have split :
      ∑ axis, e' axis * e' axis = ∑ axis, f axis * f axis + 2 * ε * (∑ axis, f axis * l axis) +
      ε * ε * (∑ axis, l axis * l axis) +
        2 * (∑ axis, (f axis + ε * l axis) * (e' axis - (f axis + ε * l axis))) +
      ∑ axis, (e' axis - (f axis + ε * l axis)) * (e' axis - (f axis + ε * l axis)) := by
    simp only [Axis.sum_eq]
    ring
  have squareL : 0 ≤ ε * ε * ∑ axis, l axis * l axis :=
    mul_nonneg (mul_self_nonneg ε) (Finset.sum_nonneg fun axis _ => mul_self_nonneg (l axis))
  have squareD :
      0 ≤ ∑ axis, (e' axis - (f axis + ε * l axis)) * (e' axis - (f axis + ε * l axis)) :=
    Finset.sum_nonneg fun axis _ => mul_self_nonneg _
  have gain :
      2 * (13743895 / 2 ^ 37) * (r * ς - 56 * m / 2 ^ 24) ≤ 2 * ε * ∑ axis, f axis * l axis := by
    rw [offset]
    exact mul_le_mul_of_nonneg_left h.le_sum_mul (by norm_num)
  have posSquare := mul_pos posR posR
  have rounding := abs_roundReal_sub_le_add (r * r)
  rw [abs_of_pos posSquare] at rounding
  simp only [abs_mul_self] at distance
  have dust : (2 : ℝ) ^ (-147 : ℤ) ≤ 1 / 2 ^ 100 ∧ (2 : ℝ) ^ (-150 : ℤ) ≤ 1 / 2 ^ 100 := by norm_num
  obtain ⟨first, second, third, last⟩ := h.scales
  -- what the square of the distance gains outweighs what all the errors can take from it
  have exact : r * r * (1 + 5.1 / 2 ^ 24) + r * ς / 2 ^ 24 ≤ ∑ axis, e' axis * e' axis := by
    rw [split]
    linarith [(abs_le.mp drift).1, (abs_le.mp h.residual).1, h.near]
  linarith [(abs_le.mp distance).1, (abs_le.mp rounding).2, h.solid]

end Departure

/-! ## Rays that leave a contact

A contact with a sphere, what it is made from as real numbers, and the ray that leaves it at the
cosine `ς`. The bound `m` of the coordinates is 16 times the cosine, so is that of the radius, and
so is that of the square of the distance, as a multiple of the radius. -/

section

variable {s : Sphere} {ray : Ray} {range : Interval} {t last : Float32} {v w l : Vec3}
  {o c p : Axis → ℝ} {r ς m κ : ℝ} (found : s.parameter? ray range = some t)
  (unit : ray.direction = v.normalizeOrZero) (leaving : l = w.normalizeOrZero)
  (hx : (ray.pointAt t).Denotes p) (ho : ray.origin.Denotes o) (hc : s.center.Denotes c)
  (radius : Reads s.radius r)
  (distance : Reads ((ray.origin - s.center).dot (ray.origin - s.center)) κ)
  (facing : Reads ((s.outwardNormal (ray.pointAt t)).dot l) ς) (steep : 1 / 1024 ≤ ς)
  (solid : 1 / 1024 ≤ r) (within : r ≤ m) (near : m ≤ 16.001 * ς) (far : 16 * ς ≤ m)
  (reach : κ ≤ 16.001 * (r * ς)) (largeO : ∀ axis, |o axis| ≤ m) (largeC : ∀ axis, |c axis| ≤ m)
  (largeP : ∀ axis, |p axis| ≤ m)

include found unit leaving hx ho hc radius distance facing steep solid within near far reach largeO
  largeC largeP

/-- A contact with a sphere at which the conditions of a departure hold. -/
theorem exists_departure :
    ∃ f g n d, l.Denotes d ∧ Departure f g n d r ς m ∧
      ∀ axis, |p axis - c axis - f axis| ≤ 6.1 * m / 2 ^ 24 := by
  obtain ⟨o', u, τ, readsO, readsU, readsT, rounds⟩ := Ray.exists_pointAt hx
  obtain rfl := ho.unique readsO
  obtain ⟨α, β, γ, κ', D, σ, ν, sign, r', solved⟩ := exists_solved found readsT unit
  obtain rfl := distance.unique solved.distance
  obtain rfl := radius.unique solved.radius
  obtain ⟨e, -, he, -, -⟩ := Vec3.reads_of_dot distance
  obtain ⟨o', c', readsO', readsC, start⟩ := Vec3.denotes_of_sub he
  obtain rfl := ho.unique readsO'
  obtain rfl := hc.unique readsC
  obtain ⟨n, d, hn, hd, -⟩ := Vec3.reads_of_dot facing
  have quotient (axis : Axis) : ∃ g, g = roundReal (p axis - c axis) ∧
      n axis = roundReal (g / r) := by
    have normal := hn axis
    rw [outwardNormal, Vec3.along_div] at normal
    obtain ⟨g, readsG, quotient⟩ := reads_of_div normal radius (by linarith)
    rw [Vec3.along_sub] at readsG
    obtain ⟨p', c', readsP, readsC, difference⟩ := reads_of_sub readsG
    rw [readsP.unique (hx axis), readsC.unique (hc axis)] at difference
    exact ⟨g, difference.symm, quotient.symm⟩
  -- the offset from the center is computed twice, once for the search and once for the normal
  choose g offset normal using quotient
  have contact (axis : Axis) :=
    abs_contact_sub_le (start axis) (rounds axis) (offset axis) (largeO axis) (largeC axis)
      (largeP axis) (by linarith)
  have product : 1 / 2 ^ 20 ≤ r * ς := by nlinarith
  have residual : |∑ axis, (e axis + u axis * τ) * (e axis + u axis * τ) - r * r| ≤
      96 * (16.01 * (r * ς)) / 2 ^ 24 := by
    refine solved.abs_residual_le (fun axis => unit ▸ v.bounded_normalizeOrZero axis) readsU he
      (by linarith) ?_ (by nlinarith)
    have square := (abs_le.mp (Vec3.abs_dot_sub_le distance he he)).1
    have dust : (2 : ℝ) ^ (-147 : ℤ) ≤ 1 / 2 ^ 100 := by norm_num
    simp only [abs_mul_self] at square
    linarith
  obtain ⟨d', hd', small⟩ :=
    Vec3.exists_denotes (k := 5 / 4) fun axis => leaving ▸ w.bounded_normalizeOrZero axis
  obtain rfl := hd.unique hd'
  exact ⟨fun axis => e axis + u axis * τ, g, n, d, hd,
    ⟨residual, fun axis => (contact axis).2, normal, small,
    Vec3.abs_dot_sub_le facing hn hd, steep, solid, within, near⟩, fun axis => (contact axis).1⟩

/-- A ray that leaves a sphere from a contact does not meet it again, if the cosine of its angle
with the normal is at least a 16th of every coordinate and of the radius, and times the radius at
least a 16th of the square of the distance from which the contact was found. -/
theorem not_found_of_leaving (finite : last.isFinite = true) :
    s.parameter? ⟨ray.pointAt t + Scene.epsilon * l, l⟩ ⟨Scene.epsilon, last⟩ = none := by
  obtain ⟨f, g, n, d, hl, departure, contact⟩ :=
    exists_departure found unit leaving hx ho hc radius distance facing steep
    solid within near far reach largeO largeC largeP
  rw [Option.eq_none_iff_forall_ne_some]
  intro t' found'
  have inside : Interval.contains ⟨Scene.epsilon, last⟩ t' = true :=
    Shape.contains_of_parameter? (s := .sphere s) found'
  obtain ⟨τ', readsT'⟩ :=
    exists_reads_iff.mpr (isFinite_of_contains (i := ⟨Scene.epsilon, last⟩) Scene.isFinite_epsilon
      finite inside)
  obtain ⟨ε, epsilon, size⟩ := Scene.exists_reads_epsilon
  have later := Scene.le_of_contains epsilon readsT' inside
  obtain ⟨α, β, γ, κ', D, σ, ν, sign, r', solved⟩ := exists_solved found' readsT' leaving
  obtain rfl := radius.unique solved.radius
  obtain ⟨e', -, he', -, -⟩ := Vec3.reads_of_dot solved.distance
  obtain ⟨q, c', hq, readsC, start⟩ := Vec3.denotes_of_sub he'
  obtain rfl := hc.unique readsC
  have moved (axis : Axis) : |e' axis - (f axis + ε * d axis)| ≤ 9.5 * m / 2 ^ 24 := by
    have short : |ε * d axis| ≤ m / 100 := by
      rw [abs_mul, size, abs_of_pos (by norm_num)]
      linarith [departure.unit axis]
    exact abs_moved_sub_le (contact axis) (Ray.exists_start epsilon hx hl hq axis) (start axis)
      (largeC axis) (largeP axis) short (by linarith)
  -- outside the sphere and on the way out of it, so no root is ahead
  have behind :=
    solved.nonpos (departure.starts_outside size moved
      (Vec3.abs_dot_sub_le solved.distance he' he'))
    (departure.leads_away size moved (Vec3.abs_dot_sub_le solved.middle he' hl))
  rw [size] at later
  linarith

end

end Sphere

end RayTracer
