import RayTracer.Proofs.Surface.Normals
import RayTracer.Proofs.Surface.Offset

/-! # Rays that do not move

Nothing tests for a zero direction. A ray that has one meets nothing because each solution for a
parameter is a quotient by zero: of zero by zero for a sphere, which is NaN, and for a plane one
that counts as parallel.

What carries the argument is that zero and NaN are not told apart: both have the value 0.
`value x = 0` is kept by every operation on the way to a parameter, whatever else goes into it, so
infinite and NaN parameters of a shape need no cases. The quotient at the end is where the two come
apart.
-/

namespace RayTracer

open Number

/-! ## Zero or NaN -/

namespace Number

variable {x y : Float32}

theorem value_eq_zero_of (h : IsNumber x → value x = 0) : value x = 0 := by
  by_cases number : IsNumber x
  · exact h number
  · exact value_of_not_isNumber number

theorem value_neg_eq_zero (h : value x = 0) : value (-x) = 0 := by rw [value_neg, h, neg_zero]

theorem value_add_eq_zero (hx : value x = 0) (hy : value y = 0) : value (x + y) = 0 :=
  value_eq_zero_of fun number => by rw [value_add number, hx, hy, add_zero, rounded_zero]

theorem value_sub_eq_zero (same : value x = value y) : value (x - y) = 0 := by
  refine value_eq_zero_of fun number => ?_
  obtain ⟨-, -, notTop, notBot⟩ := sub_isNumber_iff.mp number
  rw [value_sub number, same, EReal.sub_self (fun top => notTop ⟨same.trans top, top⟩)
    (fun bot => notBot ⟨same.trans bot, bot⟩), rounded_zero]

theorem value_mul_eq_zero_left (h : value x = 0) (y : Float32) : value (x * y) = 0 :=
  value_eq_zero_of fun number => by rw [value_mul number, h, zero_mul, rounded_zero]

theorem value_mul_eq_zero_right (x : Float32) (h : value y = 0) : value (x * y) = 0 :=
  value_eq_zero_of fun number => by rw [value_mul number, h, mul_zero, rounded_zero]

theorem value_div_eq_zero (h : value x = 0) (y : Float32) : value (x / y) = 0 :=
  value_eq_zero_of fun number => by rw [value_div number, h, zero_mul, rounded_zero]

theorem value_sqrt_eq_zero (h : value x = 0) : value x.sqrt = 0 := by
  refine value_eq_zero_of fun number => ?_
  have zero : root 0 = 0 := by
    show ((√0 : ℝ) : EReal) = 0
    rw [Real.sqrt_zero, EReal.coe_zero]
  rw [value_sqrt number, h, zero, rounded_zero]

theorem not_isNumber_div (hx : value x = 0) (hy : value y = 0) : ¬IsNumber (x / y) := fun number =>
  (isNumber_div_iff.mp number).2.2.1 ⟨hx, hy⟩

end Number

/-! ## Vectors -/

/-- Each component is zero or NaN. -/
def Vec3.IsNull (v : Vec3) : Prop := ∀ axis, value (v.along axis) = 0

/-- Each component is a zero, of either sign. -/
def Vec3.IsZero (v : Vec3) : Prop := ∀ axis, (v.along axis == 0) = true

instance (v : Vec3) : Decidable v.IsZero :=
  inferInstanceAs (Decidable (∀ axis, (v.along axis == 0) = true))

namespace Vec3

variable {v w : Vec3}

theorem IsZero.isNull (h : v.IsZero) : v.IsNull := fun axis => ((beq_iff _ _).mp (h axis)).2.2

theorem isNull_zero : zero.IsNull := by
  intro axis
  rw [along_zero]
  rfl

theorem IsNull.smul (h : v.IsNull) (s : Float32) : (s * v).IsNull := by
  intro axis
  rw [along_smul]
  exact value_mul_eq_zero_right s (h axis)

theorem IsNull.div (h : v.IsNull) (s : Float32) : (v / s).IsNull := by
  intro axis
  rw [along_div]
  exact value_div_eq_zero (h axis) s

theorem value_dot_eq_zero (v : Vec3) (h : w.IsNull) : value (v.dot w) = 0 :=
  have term (s : Float32) (axis : Axis) : value (s * w.along axis) = 0 :=
    value_mul_eq_zero_right s (h axis)
  value_add_eq_zero (value_add_eq_zero (term v.x .x) (term v.y .y)) (term v.z .z)

theorem IsNull.cross (v : Vec3) (h : w.IsNull) : (v.cross w).IsNull := by
  have component (s t : Float32) (i j : Axis) : value (s * w.along i - w.along j * t) = 0 :=
    value_sub_eq_zero ((value_mul_eq_zero_right s (h i)).trans
      (value_mul_eq_zero_left (h j) t).symm)
  intro axis
  cases axis
  · exact component v.y v.z .z .y
  · exact component v.z v.x .x .z
  · exact component v.x v.y .y .x

/-- The reciprocal of the length of such a vector is infinite or NaN. -/
theorem IsNull.normalizeOrZero_eq (h : v.IsNull) : v.normalizeOrZero = zero := by
  obtain zero | ⟨-, c, d, l, r, scaled⟩ := v.normalizeOrZero_cases
  · exact zero
  · have none (axis : Axis) : c axis = 0 := by
      have value := (scaled.components axis).1.value
      rw [h axis] at value
      exact (EReal.coe_eq_zero.mp value.symm)
    have square := scaled.square
    simp only [squareSum, none, mul_zero, add_zero, roundReal_zero] at square
    exact absurd square scaled.positive.ne

end Vec3

/-! ## Shapes -/

variable {ray : Ray} {range : Interval}

theorem Sphere.parameter?_still (s : Sphere) (still : ray.direction.IsNull) :
    s.parameter? ray range = none := by
  refine Option.eq_none_iff_forall_ne_some.mpr fun t found => ?_
  have number : IsNumber t :=
    Interval.isNumber_of_contains (Shape.contains_of_parameter? (s := .sphere s) found)
  have a := Vec3.value_dot_eq_zero ray.direction still
  have b := Vec3.value_dot_eq_zero (ray.origin - s.center) still
  have square := value_mul_eq_zero_left b ((ray.origin - s.center).dot ray.direction)
  have product := value_mul_eq_zero_left a
    ((ray.origin - s.center).dot (ray.origin - s.center) - s.radius * s.radius)
  have root := value_sqrt_eq_zero (value_sub_eq_zero (square.trans product.symm))
  have opposite := value_neg_eq_zero b
  obtain rfl | rfl := exists_solution found
  · exact not_isNumber_div (value_sub_eq_zero (opposite.trans root.symm)) a number
  · exact not_isNumber_div (value_add_eq_zero opposite root) a number

theorem Plane.parameter?_still (s : Plane) (still : ray.direction.IsNull) :
    s.parameter? ray range = none := by
  refine Option.eq_none_iff_forall_ne_some.mpr fun t found => ?_
  obtain ⟨crossed, rfl, inside, -⟩ := of_parameter? found
  -- a slope that is NaN is not found to be parallel, but leaves no parameter
  obtain ⟨-, slope⟩ := isNumber_of_div (Interval.isNumber_of_contains inside)
  have flat : Reads (s.normal.dot ray.direction) 0 := ⟨slope, Vec3.value_dot_eq_zero s.normal still⟩
  refine crossed ((flat.abs.lt_iff reads_parallelTolerance).mpr ?_)
  rw [abs_zero]
  positivity

theorem Shape.contact?_still (s : Shape) (still : ray.direction.IsNull) :
    s.contact? ray range = none := by
  have none : s.parameter? ray range = none := by
    cases s with
    | sphere s => exact s.parameter?_still still
    | plane s => exact s.parameter?_still still
  rw [contact?, none, Option.map_none]

end RayTracer
