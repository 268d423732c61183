import RayTracer.Proofs.Geometry.Directions
import RayTracer.Proofs.Number.Nearest
import RayTracer.Proofs.Surface.Narrowing

/-! # Normals at contacts

The normal at a contact with a sphere is not a unit vector: it is the way from the centre divided by
the radius, and the point it starts at is rounded. `Sphere.bounded_offset` says how far off it can
be, for a ray in a computed unit direction.

That needs no bound on where things are. Where the coordinates are so large that a square overflows
there is no contact, since the discriminant is negative or NaN; so the ray starts near the sphere,
compared with the largest numbers, and what is left is the rounding of the point.
-/

namespace RayTracer

open Number

variable {x y : Float32} {c q r : ℝ}

theorem abs_le_of_square (rounds : roundReal (c * c) ≤ q) (finite : q < 2 ^ 128) :
    |c| ≤ 2 ^ 65 := by
  have square : |roundReal (c * c)| ≤ 2 ^ 128 := by
    rw [abs_of_nonneg (roundReal_nonneg (mul_self_nonneg c))]
    exact rounds.trans finite.le
  have exact := abs_le_of_roundReal_le square (by norm_num)
  rw [abs_mul] at exact
  nlinarith [abs_nonneg c]

/-- A quotient by zero is infinite or NaN. -/
theorem not_reads_div_zero (h : Reads (x / 0) r) : False := by
  obtain ⟨-, -, notZero, -⟩ := isNumber_div_iff.mp h.number
  have quotient := value_div h.number
  have inverse : inverse 0 = ⊤ := rfl
  rw [h.value, inverse] at quotient
  obtain below | zero | above := lt_trichotomy (value x) 0
  · rw [EReal.mul_top_of_neg below, rounded_bot] at quotient
    exact EReal.coe_ne_bot r quotient
  · exact notZero ⟨zero, rfl⟩
  · rw [EReal.mul_top_of_pos above, rounded_top] at quotient
    exact EReal.coe_ne_top r quotient

/-! ## Spheres -/

namespace Sphere

variable {s : Sphere} {ray : Ray} {range : Interval} {t : Float32} {τ : ℝ}

/-- The solutions of a sphere, with the discriminant that both come from. -/
theorem exists_solution (found : s.parameter? ray range = some t) :
    let fromCenter := ray.origin - s.center
    let a := ray.direction.dot ray.direction
    let b := fromCenter.dot ray.direction
    let root := (b * b - a * (fromCenter.dot fromCenter - s.radius * s.radius)).sqrt
    t = (-b - root) / a ∨ t = (-b + root) / a := by
  intro fromCenter a b root
  obtain ⟨near, far, solutions, chosen⟩ := parameter?_eq_some_iff.mp found
  unfold roots? at solutions
  dsimp only at solutions
  split_ifs at solutions
  obtain ⟨rfl, rfl⟩ := Prod.mk.inj (Option.some.inj solutions)
  obtain ⟨-, same⟩ | ⟨-, -, same⟩ := chosen
  · exact .inl same
  · exact .inr same

/-- Where the root of a discriminant is finite, so is all that it is made from. -/
theorem discriminant_bounds {a b c : Float32} {β ρ : ℝ} (root : Reads (b * b - a * c).sqrt ρ)
    (reads : Reads b β) :
    |β| ≤ 2 ^ 65 ∧ |ρ| ≤ 2 ^ 65 ∧ ∃ γ, Reads c γ := by
  obtain ⟨Δ, readsD, nonneg, rfl⟩ := reads_of_sqrt root
  have length : √Δ ≤ 2 ^ 64 := by
    rw [Real.sqrt_le_left (by positivity), ← pow_mul]
    exact readsD.stays.lt.le
  obtain ⟨p, q, readsP, readsQ, -⟩ := reads_of_sub readsD
  obtain ⟨β', readsB, rfl, -⟩ := Vec3.reads_of_square readsP
  obtain rfl := readsB.unique reads
  obtain ⟨-, γ, -, readsC, -⟩ := reads_of_mul readsQ
  refine ⟨abs_le_of_square le_rfl readsP.stays.lt, ?_, γ, readsC⟩
  refine (abs_roundReal_le √Δ).trans ?_
  rw [abs_of_nonneg (Real.sqrt_nonneg Δ)]
  linarith

theorem abs_le_of_dot_self {v : Vec3} {s : Float32} {γ : ℝ} (h : Reads (v.dot v - s) γ)
    (axis : Axis) :
    ∃ f, Reads (v.along axis) f ∧ |f| ≤ 2 ^ 65 := by
  obtain ⟨φ, -, reads, -, -⟩ := reads_of_sub h
  obtain ⟨f, components, -⟩ := Vec3.reads_of_dot_self reads
  obtain ⟨component, square⟩ := components axis
  exact ⟨f axis, component, abs_le_of_square square reads.stays.lt⟩

/-- A ray in a unit direction that meets a sphere at a finite parameter starts near it, and the
parameter is not large. Otherwise a square in the discriminant would have overflowed. -/
theorem near_of_found (found : s.parameter? ray range = some t) (reads : Reads t τ) {d : Vec3}
    (unit : ray.direction = d.normalizeOrZero) :
    |τ| ≤ 2 ^ 74 ∧ ∀ axis, ∃ o c, Reads (ray.origin.along axis) o ∧ Reads (s.center.along axis) c ∧
      |o - c| ≤ 2 ^ 66 := by
  have solution := exists_solution found
  dsimp only at solution
  rw [unit] at solution
  obtain zero | ⟨α, readsA, large⟩ := d.dot_self_normalizeOrZero
  · have divisor : d.normalizeOrZero.dot d.normalizeOrZero = 0 := by rw [zero]; rfl
    rw [divisor] at solution
    obtain rfl | rfl := solution
    · exact (not_reads_div_zero reads).elim
    · exact (not_reads_div_zero reads).elim
  generalize d.normalizeOrZero.dot d.normalizeOrZero = a at *
  generalize (ray.origin - s.center).dot d.normalizeOrZero = b at *
  have pos : 0 < α := by linarith
  -- the numerator, from its two parts
  obtain ⟨β, ρ, ν, readsB, readsRoot, bound, quotient⟩ : ∃ β ρ ν, Reads b β ∧
      Reads (b * b - a * ((ray.origin - s.center).dot (ray.origin - s.center) - s.radius *
        s.radius)).sqrt ρ ∧
      |ν| ≤ 2 * (|β| + |ρ|) ∧ roundReal (ν / α) = τ := by
    obtain rfl | rfl := solution
    · obtain ⟨ν, readsN, quotient⟩ := reads_of_div reads readsA pos.ne'
      obtain ⟨β, ρ, readsB, readsRoot, rfl⟩ := reads_of_sub readsN
      refine ⟨_, ρ, _, reads_of_neg readsB, readsRoot, ?_, quotient⟩
      rw [abs_neg]
      exact (abs_roundReal_le _).trans (mul_le_mul_of_nonneg_left (abs_sub _ _) two_pos.le)
    · obtain ⟨ν, readsN, quotient⟩ := reads_of_div reads readsA pos.ne'
      obtain ⟨β, ρ, readsB, readsRoot, rfl⟩ := reads_of_add readsN
      refine ⟨_, ρ, _, reads_of_neg readsB, readsRoot, ?_, quotient⟩
      rw [abs_neg]
      exact (abs_roundReal_le _).trans (mul_le_mul_of_nonneg_left (abs_add_le _ _) two_pos.le)
  obtain ⟨boundB, boundRoot, γ, readsC⟩ := discriminant_bounds readsRoot readsB
  refine ⟨?_, fun axis => ?_⟩
  · have divided : |ν / α| ≤ 2 ^ 67 * 64 := by
      rw [abs_div, abs_of_pos pos, div_le_iff₀ pos]
      nlinarith
    rw [← quotient]
    exact (abs_roundReal_le _).trans (by linarith)
  · obtain ⟨f, readsF, small⟩ := abs_le_of_dot_self readsC axis
    rw [Vec3.along_sub] at readsF
    obtain ⟨o, c, readsO, readsC, rfl⟩ := reads_of_sub readsF
    exact ⟨o, c, readsO, readsC, (abs_le_of_roundReal_le small (by norm_num)).trans (by norm_num)⟩

/-- The way from the centre of a sphere to a contact. -/
theorem bounded_offset (found : s.parameter? ray range = some t) {d : Vec3}
    (unit : ray.direction = d.normalizeOrZero) (finite : (ray.pointAt t).IsFinite) (axis : Axis) :
    Bounded (2 ^ 106) ((ray.pointAt t - s.center).along axis) := by
  -- the point is the rounded sum of the origin and a rounded product
  obtain ⟨p, readsP⟩ := exists_reads_iff.mpr (finite axis)
  have sum := readsP
  rw [Ray.pointAt, Vec3.along_add, Vec3.along_mul_scalar] at sum
  obtain ⟨o, way, readsO, readsWay, rfl⟩ := reads_of_add sum
  obtain ⟨u, τ, readsU, readsT, rfl⟩ := reads_of_mul readsWay
  obtain ⟨small, near⟩ := near_of_found found readsT unit
  obtain ⟨o', c, readsO', readsC, close⟩ := near axis
  obtain rfl := readsO.unique readsO'
  rw [unit] at readsU
  obtain ⟨u', readsU', short⟩ := d.bounded_normalizeOrZero axis
  obtain rfl := readsU.unique readsU'
  have far : |roundReal (u * τ)| ≤ 2 ^ 76 := by
    refine (abs_roundReal_le _).trans ?_
    rw [abs_mul]
    nlinarith [abs_nonneg u, abs_nonneg τ]
  have largest : |o| ≤ 2 ^ 128 := by
    have opposite := readsO.neg.stays.lt
    exact abs_le.mpr ⟨by linarith, readsO.stays.lt.le⟩
  have moved : |roundReal (o + roundReal (u * τ)) - (o + roundReal (u * τ))| ≤ 2 ^ 105 := by
    refine (abs_roundReal_sub_le _).trans (max_le ?_ (by norm_num))
    have sum := abs_add_le o (roundReal (u * τ))
    linarith
  obtain ⟨number, value⟩ := readsP.sub readsC
  have stays := stays_zpow (k := 106) (by norm_num) (by norm_num)
  rw [Vec3.along_sub]
  refine .of_rounded number value ?_ (by exact_mod_cast stays)
  rw [abs_le] at *
  constructor <;> linarith

end Sphere

/-! ## Shapes -/

/-- A sphere that is not tiny, or a plane whose normal is about as long as `Plane.through` makes
it. -/
def Shape.IsSolid : Shape → Prop
  | .sphere s => 1 / 1024 ≤ s.radius ∧ s.radius.isFinite = true
  | .plane p => ∀ axis, -2 ≤ p.normal.along axis ∧ p.normal.along axis ≤ 2

instance : (s : Shape) → Decidable s.IsSolid
  | .sphere _ => inferInstanceAs (Decidable (_ ∧ _))
  | .plane p =>
    inferInstanceAs (Decidable (∀ axis, -2 ≤ p.normal.along axis ∧ p.normal.along axis ≤ 2))

variable {ray : Ray} {range : Interval} {contact : Contact}

theorem reads_least_radius : Reads (1 / 1024) (2 ^ (-10 : ℤ)) := reads_power (by decide) rfl

theorem reads_two : Reads 2 2 := reads_power (k := 1) (by decide) (by norm_num)

theorem Sphere.bounded_outwardNormal {s : Sphere} {t : Float32}
    (found : s.parameter? ray range = some t) {d : Vec3} (unit : ray.direction = d.normalizeOrZero)
    (solid : Shape.IsSolid (.sphere s)) (finite : (ray.pointAt t).IsFinite) (axis : Axis) :
    Bounded (2 ^ 116) ((s.outwardNormal (ray.pointAt t)).along axis) := by
  obtain ⟨large, finiteRadius⟩ := solid
  obtain ⟨ρ, radius⟩ := exists_reads_iff.mpr finiteRadius
  have least : 2 ^ (-10 : ℤ) ≤ ρ := (reads_least_radius.le_iff radius).mp large
  have pos : 0 < ρ := lt_of_lt_of_le (by positivity) least
  obtain ⟨e, offset, small⟩ := bounded_offset found unit finite axis
  obtain ⟨number, value⟩ := offset.div radius pos.ne'
  have stays := stays_zpow (k := 116) (by norm_num) (by norm_num)
  rw [outwardNormal, Vec3.along_div]
  refine .of_rounded number value ?_ (by exact_mod_cast stays)
  rw [abs_div, abs_of_pos pos, div_le_iff₀ pos]
  calc |e| ≤ 2 ^ 106 := small
    _ = 2 ^ 116 * 2 ^ (-10 : ℤ) := by norm_num
    _ ≤ 2 ^ 116 * ρ := by gcongr

/-- The normal at a contact with a solid shape, where the point is finite. -/
theorem Shape.bounded_normal {s : Shape} (found : s.contact? ray range = some contact) {d : Vec3}
    (unit : ray.direction = d.normalizeOrZero) (solid : s.IsSolid) (finite : contact.point.IsFinite)
    (axis : Axis) :
    Bounded (2 ^ 116) (contact.normal.along axis) := by
  obtain ⟨parameter, described⟩ := contact?_eq_some_iff.mp found
  have point : contact.point = ray.pointAt contact.t := by
    rw [← described]
    rfl
  have outward : Bounded (2 ^ 116) ((s.outwardNormal (ray.pointAt contact.t)).along axis) := by
    cases s with
    | sphere s => exact s.bounded_outwardNormal parameter unit solid (point ▸ finite) axis
    | plane p =>
      obtain ⟨r, reads, least, most⟩ :=
        reads_of_between (solid axis).1 (solid axis).2 reads_two.neg reads_two
      exact ⟨r, reads, abs_le.mpr ⟨by linarith, by linarith⟩⟩
  have normal : contact.normal = s.outwardNormal (ray.pointAt contact.t) ∨
      contact.normal = -s.outwardNormal (ray.pointAt contact.t) := by
    rw [← described]
    exact ite_eq_or_eq _ _ _
  obtain same | opposite := normal
  · rwa [same]
  · rw [opposite, Vec3.along_neg]
    exact outward.neg

/-- The angle between the normal at a contact with a solid shape and a direction, as a number. -/
theorem Shape.bounded_normal_dot {s : Shape}
    (found : s.contact? ray range = some contact) {d : Vec3}
    (unit : ray.direction = d.normalizeOrZero) (solid : s.IsSolid) (finite : contact.point.IsFinite)
    (v : Vec3) :
    Bounded (15 / 4 * 2 ^ 116) (contact.normal.dot v.normalizeOrZero) := by
  have one :=
    stays_natCast_mul (n := 5 * 2 ^ 20) (e := 94) (by norm_num) (by norm_num) (by norm_num)
  have two :=
    stays_natCast_mul (n := 5 * 2 ^ 20) (e := 95) (by norm_num) (by norm_num) (by norm_num)
  have three :=
    stays_natCast_mul (n := 15 * 2 ^ 20) (e := 94) (by norm_num) (by norm_num) (by norm_num)
  have bound := Vec3.bounded_dot (bounded_normal found unit solid finite) v.bounded_normalizeOrZero
  norm_num at one two three bound ⊢
  exact bound one two three

/-- How much a contact with a solid shape faces any point. -/
theorem Shape.bounded_facing {s : Shape} (found : s.contact? ray range = some contact) {d : Vec3}
    (unit : ray.direction = d.normalizeOrZero) (solid : s.IsSolid) (target : Vec3) :
    Bounded (15 / 4 * 2 ^ 116) (maxNum (contact.normal.dot (target - contact.point).normalizeOrZero)
      0) := by
  by_cases finite : (target - contact.point).IsFinite
  · have point : contact.point.IsFinite := fun axis => by
      obtain ⟨r, reads⟩ := exists_reads_iff.mpr (finite axis)
      rw [Vec3.along_sub] at reads
      obtain ⟨-, p, -, readsP, -⟩ := reads_of_sub reads
      exact exists_reads_iff.mp ⟨p, readsP⟩
    exact (bounded_normal_dot found unit solid point _).maxNum_zero (by positivity)
  · rw [Vec3.normalizeOrZero_eq_zero finite, Vec3.dot_zero_eq_zero]
    exact bounded_zero (by positivity)

end RayTracer
