import RayTracer.Proofs.Geometry.Errors
import RayTracer.Proofs.Surface.Normals

/-! # How well a solution solves its equation

A contact with a sphere is a computed solution of a quadratic equation. Its coefficients, its
discriminant and the solution itself are rounded, so the point of the contact is not on the sphere.
How far it is off depends on the distance from which the ray comes: the error of the equation is a
part of the square of that distance (`Sphere.Solved.abs_residual_le`).

In the lemmas about real numbers `A` is the square of the length of the direction, `Λ` a bound of
the square of the distance and of the radius, and `g` the root of their product. With these scales
all bounds are numbers.
-/

namespace RayTracer

open Number

/-! ## Quadratic equations -/

section

variable {A B C Λ g k α β γ q x y D σ ν τ z : ℝ}

/-- The last coefficient, a difference of two squares. -/
theorem last_le {κ ρ : ℝ} (nonnegC : 0 ≤ C) (nonnegQ : 0 ≤ q) (near : C ≤ Λ) (small : q ≤ Λ)
    (smallK : k ≤ Λ / 2 ^ 40) (hκ : |κ - C| ≤ C / 2 ^ 22 + k) (hρ : |ρ - q| ≤ q / 2 ^ 24 + k)
    (hγ : |γ - (κ - ρ)| ≤ |κ - ρ| / 2 ^ 24 + k) :
    |γ - (C - q)| ≤ 8 * Λ / 2 ^ 24 ∧ |γ| ≤ 1.01 * Λ := by
  have whole : |γ - (C - q)| ≤ 8 * Λ / 2 ^ 24 := by
    have steps := abs_add_le (γ - (κ - ρ)) (κ - C - (ρ - q))
    rw [show γ - (κ - ρ) + (κ - C - (ρ - q)) = γ - (C - q) by ring] at steps
    have differences := abs_sub (κ - C) (ρ - q)
    have parts := abs_sub κ ρ
    have sizeK := abs_sub_abs_le_abs_sub κ C
    have sizeR := abs_sub_abs_le_abs_sub ρ q
    rw [abs_of_nonneg nonnegC] at sizeK
    rw [abs_of_nonneg nonnegQ] at sizeR
    linarith
  have differs : |C - q| ≤ Λ := abs_le.mpr ⟨by linarith, by linarith⟩
  have size := abs_sub_abs_le_abs_sub γ (C - q)
  exact ⟨whole, by linarith⟩

/-- The scale of the middle coefficient, where neither the direction nor the distance is tiny. -/
theorem scale_le (posA : 1 / 65 ≤ A) (least : 1 / 2 ^ 20 ≤ Λ) :
    √(Λ * A) * √(Λ * A) = Λ * A ∧ 1 / 2 ^ 14 ≤ √(Λ * A) := by
  have posΛ : 0 < Λ := lt_of_lt_of_le (by norm_num) least
  refine ⟨Real.mul_self_sqrt (mul_nonneg posΛ.le (by linarith)), Real.le_sqrt_of_sq_le ?_⟩
  calc (1 / 2 ^ 14 : ℝ) ^ 2 ≤ 1 / 2 ^ 20 * (1 / 65) := by norm_num
    _ ≤ Λ * A := mul_le_mul least posA (by norm_num) posΛ.le

/-- The discriminant from its two rounded products. -/
theorem discriminant_le (posA : 0 < A) (posΛ : 0 < Λ) (posG : 0 < g) (scale : g * g = Λ * A)
    (smallK : k ≤ g * g / 2 ^ 40) (nonnegK : 0 ≤ k)
    (a : |α - A| ≤ 5 * A / 2 ^ 24) (b : |β| ≤ 1.01 * g) (c : |γ| ≤ 1.01 * Λ)
    (hx : |x - β * β| ≤ |β * β| / 2 ^ 24 + k) (hy : |y - α * γ| ≤ |α * γ| / 2 ^ 24 + k)
    (hD : |D - (x - y)| ≤ |x - y| / 2 ^ 24 + k) :
    |D - (β * β - α * γ)| ≤ 5 * (g * g) / 2 ^ 24 ∧ D ≤ 2.1 * (g * g) := by
  have square : |β * β| ≤ 1.03 * (g * g) := by
    rw [abs_mul]
    calc |β| * |β| ≤ (1.01 * g) * (1.01 * g) := mul_le_mul b b (abs_nonneg _) (by positivity)
      _ ≤ 1.03 * (g * g) := by linarith [mul_pos posG posG]
  have product : |α * γ| ≤ 1.03 * (g * g) := by
    rw [abs_mul, scale]
    have size : |α| ≤ 1.001 * A := by
      have := abs_sub_abs_le_abs_sub α A
      rw [abs_of_pos posA] at this
      linarith
    have positive := mul_pos posΛ posA
    calc |α| * |γ| ≤ (1.001 * A) * (1.01 * Λ) := mul_le_mul size c (abs_nonneg _) (by positivity)
      _ = 1.01101 * (Λ * A) := by ring
      _ ≤ 1.03 * (Λ * A) := by linarith
  have sizeX := abs_sub_abs_le_abs_sub x (β * β)
  have sizeY := abs_sub_abs_le_abs_sub y (α * γ)
  have difference := abs_sub x y
  -- three roundings: of the square, of the product and of their difference
  have whole : |D - (β * β - α * γ)| ≤ 5 * (g * g) / 2 ^ 24 := by
    have first := abs_add_le (D - (x - y)) (x - β * β - (y - α * γ))
    have second := abs_sub (x - β * β) (y - α * γ)
    rw [show D - (x - y) + (x - β * β - (y - α * γ)) = D - (β * β - α * γ) by ring] at first
    linarith
  refine ⟨whole, ?_⟩
  linarith [(abs_le.mp whole).2, (abs_le.mp square).2, (abs_le.mp product).1]

/-- The root of the discriminant, squared again. -/
theorem root_le (posG : 0 < g) (smallK : k ≤ g / 2 ^ 40) (nonneg : 0 ≤ D) (most : D ≤ 2.1 * (g * g))
    (nonnegS : 0 ≤ σ) (h : |σ - √D| ≤ √D / 2 ^ 24 + k) :
    σ ≤ 1.46 * g ∧ |σ * σ - D| ≤ 5 * (g * g) / 2 ^ 24 := by
  have root := Real.sqrt_nonneg D
  have square := Real.mul_self_sqrt nonneg
  have size : √D ≤ 1.45 * g := by
    refine Real.sqrt_le_iff.mpr ⟨by positivity, ?_⟩
    linarith [mul_pos posG posG]
  generalize √D = h' at *
  have near : |σ - h'| ≤ 1.46 * g / 2 ^ 24 := by linarith
  have up := (abs_le.mp near).2
  refine ⟨by linarith, ?_⟩
  rw [← square, show σ * σ - h' * h' = (σ - h') * (σ + h') by ring, abs_mul,
    abs_of_nonneg (by linarith : 0 ≤ σ + h')]
  calc |σ - h'| * (σ + h') ≤ (1.46 * g / 2 ^ 24) * (2.92 * g) :=
      mul_le_mul near (by linarith) (by linarith) (by positivity)
    _ ≤ 5 * (g * g) / 2 ^ 24 := by linarith [mul_pos posG posG]

/-- A solution, put into the equation with the computed coefficients. -/
theorem equation_le (posA : 0 < A) (posΛ : 0 < Λ) (posG : 0 < g) (scale : g * g = Λ * A)
    (smallK : k ≤ g / 2 ^ 40) (a : |α - A| ≤ 5 * A / 2 ^ 24) (b : |β| ≤ 1.01 * g) (nonnegS : 0 ≤ σ)
    (r : σ ≤ 1.46 * g) (square : |σ * σ - D| ≤ 5 * (g * g) / 2 ^ 24)
    (disc : |D - (β * β - α * γ)| ≤ 5 * (g * g) / 2 ^ 24) {s : ℝ} (sign : s = 1 ∨ s = -1)
    (hν : |ν - (-β + s * σ)| ≤ |-β + s * σ| / 2 ^ 24 + k) (hτ : |τ * α - ν| ≤ |ν| / 2 ^ 24 + k) :
    |γ + 2 * τ * β + τ * τ * α| ≤ 26 * Λ / 2 ^ 24 ∧ |τ| * A ≤ 2.5 * g := by
  have unit : |s| = 1 := by rcases sign with rfl | rfl <;> simp
  have one : s * s = 1 := by rcases sign with rfl | rfl <;> norm_num
  have sizeS : |s * σ| ≤ 1.46 * g := by rw [abs_mul, unit, one_mul, abs_of_nonneg nonnegS]; exact r
  have sizeN : |-β + s * σ| ≤ 2.47 * g := (abs_add_le _ _).trans (by rw [abs_neg]; linarith)
  have sizeV := abs_sub_abs_le_abs_sub ν (-β + s * σ)
  have sizeT := abs_sub_abs_le_abs_sub (τ * α) ν
  -- what the computed root misses the exact one by, times the leading coefficient
  obtain ⟨z, hz⟩ : ∃ z, z = τ * α + β - s * σ := ⟨_, rfl⟩
  have small : |z| ≤ 5.1 * g / 2 ^ 24 := by
    have steps := abs_add_le (τ * α - ν) (ν - (-β + s * σ))
    rw [show τ * α - ν + (ν - (-β + s * σ)) = z by rw [hz]; ring] at steps
    linarith
  have low : 0.999 * A ≤ α := by linarith [(abs_le.mp a).1]
  have posα : 0 < α := by linarith
  constructor
  · have whole : α * (γ + 2 * τ * β + τ * τ * α) =
        (σ * σ - D) + (D - (β * β - α * γ)) + 2 * (s * σ) * z + z * z := by
      have expand : τ * α = z - β + s * σ := by rw [hz]; ring
      linear_combination (τ * α + (z - β + s * σ) + 2 * β) * expand + σ * σ * one
    have cross : |2 * (s * σ) * z| ≤ 15 * (g * g) / 2 ^ 24 := by
      rw [abs_mul, abs_mul, abs_two]
      calc 2 * |s * σ| * |z| ≤ (2 * (1.46 * g)) * (5.1 * g / 2 ^ 24) :=
            mul_le_mul (by linarith) small (abs_nonneg _) (by positivity)
        _ ≤ 15 * (g * g) / 2 ^ 24 := by linarith [mul_pos posG posG]
    have last : |z * z| ≤ (g * g) / 2 ^ 30 := by
      rw [abs_mul]
      calc |z| * |z| ≤ (5.1 * g / 2 ^ 24) * (5.1 * g / 2 ^ 24) :=
          mul_le_mul small small (abs_nonneg _) (by positivity)
        _ ≤ (g * g) / 2 ^ 30 := by linarith [mul_pos posG posG]
    have total : α * |γ + 2 * τ * β + τ * τ * α| ≤ 25.5 * (g * g) / 2 ^ 24 := by
      have size : α * |γ + 2 * τ * β + τ * τ * α| = |α * (γ + 2 * τ * β + τ * τ * α)| := by
        rw [abs_mul, abs_of_pos posα]
      rw [size, whole]
      have posSquare := mul_pos posG posG
      have first := abs_add_le (σ * σ - D + (D - (β * β - α * γ)) + 2 * (s * σ) * z) (z * z)
      have second := abs_add_le (σ * σ - D + (D - (β * β - α * γ))) (2 * (s * σ) * z)
      have third := abs_add_le (σ * σ - D) (D - (β * β - α * γ))
      linarith
    rw [scale] at total
    refine le_of_mul_le_mul_left ?_ posα
    calc α * |γ + 2 * τ * β + τ * τ * α| ≤ 25.5 * (Λ * A) / 2 ^ 24 := total
      _ ≤ 26 * Λ / 2 ^ 24 * (0.999 * A) := by linarith [mul_pos posΛ posA]
      _ ≤ 26 * Λ / 2 ^ 24 * α := mul_le_mul_of_nonneg_left low (by positivity)
      _ = α * (26 * Λ / 2 ^ 24) := mul_comm _ _
  · have way : |τ| * α ≤ 2.49 * g := by
      have size : |τ| * α = |τ * α| := by rw [abs_mul, abs_of_pos posα]
      linarith
    have least : |τ| * (0.999 * A) ≤ |τ| * α := mul_le_mul_of_nonneg_left low (abs_nonneg τ)
    linarith

/-- The equation with the exact coefficients. -/
theorem residual_le (posA : 0 < A) (posG : 0 < g) (scale : g * g = Λ * A)
    (a : |α - A| ≤ 5 * A / 2 ^ 24) (b : |β - B| ≤ 5 * g / 2 ^ 24)
    (c : |γ - (C - q)| ≤ 8 * Λ / 2 ^ 24) (equation : |γ + 2 * τ * β + τ * τ * α| ≤ 26 * Λ / 2 ^ 24)
    (way : |τ| * A ≤ 2.5 * g) :
    |C + 2 * τ * B + τ * τ * A - q| ≤ 96 * Λ / 2 ^ 24 := by
  have long : |τ| * g ≤ 2.5 * Λ := by
    refine le_of_mul_le_mul_right ?_ posA
    calc |τ| * g * A = |τ| * A * g := by ring
      _ ≤ 2.5 * g * g := mul_le_mul_of_nonneg_right way posG.le
      _ = 2.5 * Λ * A := by rw [mul_assoc, scale, mul_assoc]
  have longer : |τ| * |τ| * A ≤ 6.25 * Λ := by
    refine le_of_mul_le_mul_right ?_ posA
    calc |τ| * |τ| * A * A = |τ| * A * (|τ| * A) := by ring
      _ ≤ 2.5 * g * (2.5 * g) := mul_le_mul way way (by positivity) (by positivity)
      _ = 6.25 * Λ * A := by linear_combination 6.25 * scale
  have linear : |2 * τ * (B - β)| ≤ 25 * Λ / 2 ^ 24 := by
    rw [abs_mul, abs_mul, abs_two, abs_sub_comm]
    calc 2 * |τ| * |β - B| ≤ 2 * |τ| * (5 * g / 2 ^ 24) :=
        mul_le_mul_of_nonneg_left b (by positivity)
      _ ≤ 25 * Λ / 2 ^ 24 := by linarith
  have square : |τ * τ * (A - α)| ≤ 31.25 * Λ / 2 ^ 24 := by
    rw [abs_mul, abs_mul, abs_sub_comm]
    calc |τ| * |τ| * |α - A| ≤ |τ| * |τ| * (5 * A / 2 ^ 24) :=
        mul_le_mul_of_nonneg_left a (by positivity)
      _ ≤ 31.25 * Λ / 2 ^ 24 := by linarith
  -- the equation with computed coefficients, and what each of these is off by
  have split : C + 2 * τ * B + τ * τ * A - q =
      γ + 2 * τ * β + τ * τ * α - (γ - (C - q)) + 2 * τ * (B - β) + τ * τ * (A - α) := by ring
  rw [split]
  have first :=
    abs_add_le (γ + 2 * τ * β + τ * τ * α - (γ - (C - q)) + 2 * τ * (B - β)) (τ * τ * (A - α))
  have second := abs_add_le (γ + 2 * τ * β + τ * τ * α - (γ - (C - q))) (2 * τ * (B - β))
  have third := abs_sub (γ + 2 * τ * β + τ * τ * α) (γ - (C - q))
  have nonneg : 0 ≤ Λ := by nlinarith
  linarith

end

/-! ## Solutions of spheres -/

namespace Sphere

variable {s : Sphere} {ray : Ray} {range : Interval} {t : Float32} {v : Vec3}
  {d e : Axis → ℝ} {r τ Λ : ℝ}

/-- The numbers from which a solution is computed: the coefficients with what they are differences
of, the discriminant with its root, and the numerator, in which the root has one of the signs. -/
structure Solved (s : Sphere) (ray : Ray) (τ α β γ κ D σ ν sign r : ℝ) : Prop where
  leading : Reads (ray.direction.dot ray.direction) α
  middle : Reads ((ray.origin - s.center).dot ray.direction) β
  distance : Reads ((ray.origin - s.center).dot (ray.origin - s.center)) κ
  radius : Reads s.radius r
  steep : 1 / 64 ≤ α
  last : roundReal (κ - roundReal (r * r)) = γ
  square : Stays (roundReal (β * β))
  discriminant : roundReal (roundReal (β * β) - roundReal (α * γ)) = D
  nonneg : 0 ≤ D
  root : roundReal √D = σ
  signs : sign = 1 ∨ sign = -1
  numerator : roundReal (-β + sign * σ) = ν
  quotient : roundReal (ν / α) = τ

theorem exists_solved (found : s.parameter? ray range = some t) (reads : Reads t τ)
    (unit : ray.direction = v.normalizeOrZero) :
    ∃ α β γ κ D σ ν sign r, s.Solved ray τ α β γ κ D σ ν sign r := by
  have solution := exists_solution found
  dsimp only at solution
  obtain zero | ⟨α, leading, steep⟩ := v.dot_self_normalizeOrZero
  · have divisor : ray.direction.dot ray.direction = 0 := by rw [unit, zero]; rfl
    rw [divisor] at solution
    obtain rfl | rfl := solution
    · exact (not_reads_div_zero reads).elim
    · exact (not_reads_div_zero reads).elim
  rw [← unit] at leading
  obtain ⟨β, σ, ν, sign, middle, readsRoot, signs, numerator, quotient⟩ : ∃ β σ ν sign,
      Reads ((ray.origin - s.center).dot ray.direction) β ∧
      Reads ((ray.origin - s.center).dot ray.direction * (ray.origin - s.center).dot ray.direction -
        ray.direction.dot ray.direction *
          ((ray.origin - s.center).dot (ray.origin - s.center) - s.radius * s.radius)).sqrt σ ∧
      (sign = 1 ∨ sign = -1) ∧ roundReal (-β + sign * σ) = ν ∧ roundReal (ν / α) = τ := by
    have nonzero : α ≠ 0 := by linarith
    -- both roots have this form: only the sign of the square root differs
    obtain rfl | rfl := solution
    · obtain ⟨ν, readsN, quotient⟩ := reads_of_div reads leading nonzero
      obtain ⟨β, σ, readsB, readsRoot, numerator⟩ := reads_of_sub readsN
      exact ⟨-β, σ, ν, -1, reads_of_neg readsB, readsRoot, .inr rfl,
        by rw [← numerator]; ring_nf, quotient⟩
    · obtain ⟨ν, readsN, quotient⟩ := reads_of_div reads leading nonzero
      obtain ⟨β, σ, readsB, readsRoot, numerator⟩ := reads_of_add readsN
      exact ⟨-β, σ, ν, 1, reads_of_neg readsB, readsRoot, .inl rfl,
        by rw [← numerator]; ring_nf, quotient⟩
  obtain ⟨D, readsD, nonneg, root⟩ := reads_of_sqrt readsRoot
  obtain ⟨x, y, readsX, readsY, discriminant⟩ := reads_of_sub readsD
  obtain ⟨β', readsB, rfl, -⟩ := Vec3.reads_of_square readsX
  obtain rfl := readsB.unique middle
  obtain ⟨α', γ, readsA, readsC, rfl⟩ := reads_of_mul readsY
  obtain rfl := readsA.unique leading
  obtain ⟨κ, ρ, distance, readsR, last⟩ := reads_of_sub readsC
  obtain ⟨r, radius, rfl, -⟩ := Vec3.reads_of_square readsR
  exact ⟨α', β', γ, κ, D, σ, ν, sign, r, leading, middle, distance, radius, steep, last,
    readsX.stays, discriminant, nonneg, root, signs, numerator, quotient⟩

/-- A quotient by a number that is not large, multiplied again. -/
theorem abs_quotient_mul_sub_le {α ν : ℝ} (pos : 0 < α) (flat : α ≤ 8)
    (quotient : roundReal (ν / α) = τ) :
    |τ * α - ν| ≤ |ν| / 2 ^ 24 + 2 ^ (-147 : ℤ) := by
  have rounding := abs_roundReal_sub_le_add (ν / α)
  rw [quotient] at rounding
  have place : (2 : ℝ) ^ (-147 : ℤ) = 8 * 2 ^ (-150 : ℤ) := by norm_num
  have positive : (0 : ℝ) ≤ 2 ^ (-150 : ℤ) := by positivity
  calc |τ * α - ν| = |τ - ν / α| * α := by
        rw [← abs_of_pos pos, ← abs_mul, abs_of_pos pos, sub_mul, div_mul_cancel₀ _ pos.ne']
    _ ≤ (|ν / α| / 2 ^ 24 + 2 ^ (-150 : ℤ)) * α := mul_le_mul_of_nonneg_right rounding pos.le
    _ = |ν| / 2 ^ 24 + 2 ^ (-150 : ℤ) * α := by
        rw [abs_div, abs_of_pos pos]
        field_simp
    _ ≤ |ν| / 2 ^ 24 + 2 ^ (-147 : ℤ) := by
        rw [place]
        nlinarith

theorem sum_abs_mul_le_sqrt {Λ : ℝ} (near : ∑ axis, e axis * e axis ≤ Λ) :
    ∑ axis, |e axis * d axis| ≤ √(Λ * ∑ axis, d axis * d axis) := by
  refine Real.le_sqrt_of_sq_le ?_
  have schwarz :=
    Finset.sum_mul_sq_le_sq_mul_sq Finset.univ (fun axis => |e axis|) fun axis => |d axis|
  simp only [← abs_mul, sq_abs, sq (e _), sq (d _)] at schwarz
  exact schwarz.trans (mul_le_mul_of_nonneg_right near
    (Finset.sum_nonneg fun axis _ => mul_self_nonneg (d axis)))

/-- The exact point of a ray at a computed solution, seen from the centre, is off the sphere by a
part of the square of the distance from which the ray comes. -/
theorem Solved.abs_residual_le {α β γ κ D σ ν sign : ℝ}
    (solved : s.Solved ray τ α β γ κ D σ ν sign r)
    (unit : ∀ axis, Bounded (5 / 4) (ray.direction.along axis)) (hd : ray.direction.Denotes d)
    (he : (ray.origin - s.center).Denotes e) (least : 1 / 2 ^ 20 ≤ Λ)
    (near : ∑ axis, e axis * e axis ≤ Λ) (small : r * r ≤ Λ) :
    |∑ axis, (e axis + d axis * τ) * (e axis + d axis * τ) - r * r| ≤ 96 * Λ / 2 ^ 24 := by
  obtain ⟨α', readsA, flat⟩ := Vec3.bounded_dot_unit unit unit
  obtain rfl := readsA.unique solved.leading
  have a := Vec3.abs_dot_sub_le solved.leading hd hd
  have b := Vec3.abs_dot_sub_le solved.middle he hd
  have c := Vec3.abs_dot_sub_le solved.distance he he
  have schwarz := sum_abs_mul_le_sqrt (d := d) near
  rw [abs_of_pos (by linarith [solved.steep])] at flat
  have quotient :=
    abs_quotient_mul_sub_le (by linarith [solved.steep]) (by linarith) solved.quotient
  simp only [abs_mul_self] at a c
  have nonnegC : 0 ≤ ∑ axis, e axis * e axis :=
    Finset.sum_nonneg fun axis _ => mul_self_nonneg (e axis)
  have split : ∑ axis, (e axis + d axis * τ) * (e axis + d axis * τ) =
      ∑ axis, e axis * e axis + 2 * τ * ∑ axis, e axis * d axis +
        τ * τ * ∑ axis, d axis * d axis := by
    simp only [Axis.sum_eq]
    ring
  have sumB := Finset.abs_sum_le_sum_abs (fun axis => e axis * d axis) Finset.univ
  rw [split]
  generalize ∑ axis, |e axis * d axis| = weight at *
  generalize ∑ axis, e axis * e axis = C at *
  generalize ∑ axis, e axis * d axis = B at *
  generalize ∑ axis, d axis * d axis = A at *
  have place : (2 : ℝ) ^ (-150 : ℤ) ≤ 2 ^ (-147 : ℤ) := by norm_num
  have lowest : (2 : ℝ) ^ (-147 : ℤ) ≤ 1 / 2 ^ 100 := by norm_num
  have positive : (0 : ℝ) ≤ 2 ^ (-147 : ℤ) := by positivity
  have rounding (x : ℝ) : |roundReal x - x| ≤ |x| / 2 ^ 24 + 2 ^ (-147 : ℤ) :=
    (abs_roundReal_sub_le_add x).trans (by linarith)
  generalize (2 : ℝ) ^ (-147 : ℤ) = k at *
  -- the scales
  have posA : 1 / 65 ≤ A := by linarith [(abs_le.mp a).2, solved.steep]
  have posΛ : 0 < Λ := lt_of_lt_of_le (by norm_num) least
  obtain ⟨scale, large⟩ := scale_le posA least
  generalize √(Λ * A) = g at *
  have posG : 0 < g := lt_of_lt_of_le (by norm_num) large
  have square : 1 / 2 ^ 28 ≤ g * g := by
    calc (1 / 2 ^ 28 : ℝ) = 1 / 2 ^ 14 * (1 / 2 ^ 14) := by norm_num
      _ ≤ g * g := mul_le_mul large large (by norm_num) posG.le
  -- the coefficients
  have leading : |α' - A| ≤ 5 * A / 2 ^ 24 := by linarith
  have middle : |β - B| ≤ 5 * g / 2 ^ 24 := by linarith
  have sizeB : |β| ≤ 1.01 * g := by
    have := abs_sub_abs_le_abs_sub β B
    linarith
  have radius := rounding (r * r)
  rw [abs_of_nonneg (mul_self_nonneg r)] at radius
  obtain ⟨last, sizeC⟩ :=
    last_le nonnegC (mul_self_nonneg r) near small (by linarith) c radius (solved.last ▸ rounding _)
  obtain ⟨discriminant, most⟩ :=
    discriminant_le (by linarith) posΛ posG scale (by linarith) positive leading sizeB sizeC
    (rounding _) (rounding _) (solved.discriminant ▸ rounding _)
  have nonnegS : 0 ≤ σ := solved.root ▸ roundReal_nonneg (Real.sqrt_nonneg D)
  have rootD := rounding √D
  rw [solved.root, abs_of_nonneg (Real.sqrt_nonneg D)] at rootD
  obtain ⟨root, squared⟩ := root_le posG (by linarith) solved.nonneg most nonnegS rootD
  obtain ⟨equation, way⟩ :=
    equation_le (by linarith) posΛ posG scale (by linarith) leading sizeB nonnegS root squared
    discriminant solved.signs (solved.numerator ▸ rounding _) quotient
  exact residual_le (by linarith) posG scale leading middle last equation way

/-! ## Solutions behind the origin -/

/-- Squaring a number and taking the root does not lead past it, where the square does not
underflow. -/
theorem roundReal_sqrt_square_le {b : ℝ} (stays : Stays b) (normal : 1 / 2 ^ 60 ≤ b) :
    roundReal √(roundReal (b * b)) ≤ b := by
  have pos : 0 < b := lt_of_lt_of_le (by norm_num) normal
  refine stays.roundReal_le pos ?_
  have least : (2 : ℝ) ^ (-126 : ℤ) ≤ b * b := by
    calc (2 : ℝ) ^ (-126 : ℤ) ≤ 1 / 2 ^ 60 * (1 / 2 ^ 60) := by norm_num
      _ ≤ b * b := mul_le_mul normal normal (by norm_num) pos.le
  have square := (abs_le.mp (abs_roundReal_sub_le_of_normal least)).2
  have half : b / 2 ^ 25 < 2 ^ lastPlace b / 2 := by
    have digits := lt_two_zpow_lastPlace pos
    rw [zpow_add₀ two_ne_zero] at digits
    norm_num at digits ⊢
    linarith
  have root : √(roundReal (b * b)) ≤ b + b / 2 ^ 25 := by
    refine Real.sqrt_le_iff.mpr ⟨by positivity, ?_⟩
    nlinarith
  linarith

/-- A ray that starts outside a sphere and leads away from the centre has its solutions behind
it. -/
theorem Solved.nonpos {α β γ κ D σ ν sign : ℝ} (solved : s.Solved ray τ α β γ κ D σ ν sign r)
    (outside : roundReal (r * r) ≤ κ) (away : 1 / 2 ^ 60 ≤ β) : τ ≤ 0 := by
  have nonnegC : 0 ≤ γ := solved.last ▸ roundReal_nonneg (sub_nonneg.mpr outside)
  have steep : 0 < α := lt_of_lt_of_le (by norm_num) solved.steep
  have product : 0 ≤ roundReal (α * γ) := roundReal_nonneg (mul_nonneg steep.le nonnegC)
  have discriminant : D ≤ roundReal (β * β) := by
    rw [← solved.discriminant, ← solved.square.roundReal_eq]
    exact roundReal_mono (by linarith [solved.square.roundReal_eq])
  have root : σ ≤ β := by
    rw [← solved.root]
    exact (roundReal_mono (Real.sqrt_le_sqrt discriminant)).trans
      (roundReal_sqrt_square_le solved.middle.stays away)
  have nonnegS : 0 ≤ σ := solved.root ▸ roundReal_nonneg (Real.sqrt_nonneg D)
  have numerator : ν ≤ 0 := by
    rw [← solved.numerator, ← roundReal_zero]
    refine roundReal_mono ?_
    obtain rfl | rfl := solved.signs
    · linarith
    · linarith
  rw [← solved.quotient, ← roundReal_zero]
  exact roundReal_mono (div_nonpos_of_nonpos_of_nonneg numerator steep.le)

end Sphere

end RayTracer
