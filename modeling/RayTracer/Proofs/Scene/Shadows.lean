import RayTracer.Proofs.Search.Genuine
import RayTracer.Proofs.Surface.Leaving

/-! # Surfaces that do not shadow themselves

A shadow ray starts `Scene.epsilon` off the contact and its search begins `Scene.epsilon` away from
there. Both are absolute lengths, while the contact is off its surface by rounding errors that grow
with the coordinates. So a surface can shadow itself: `Scene.floor_shadows_itself` is a plane seen
from 3000 above it, with the light straight above the contact.

`Scene.inShadow_eq_false_of_alone` says where the offset is enough: the cosine at which the light is
seen is at least a 16th of an extent that holds the surface, the origin of the ray and the contact.
-/

namespace RayTracer

open Number

/-! ## Extents -/

/-- No component is farther from zero than the extent. -/
def Vec3.Within (v : Vec3) (extent : Float32) : Prop :=
  ∀ axis, -extent ≤ v.along axis ∧ v.along axis ≤ extent

instance (v : Vec3) (extent : Float32) : Decidable (v.Within extent) :=
  inferInstanceAs (Decidable (∀ axis, -extent ≤ v.along axis ∧ v.along axis ≤ extent))

/-- A shape seen from a point has its place within an extent. The radius of a sphere lies within it
too and is not tiny, and so does the square of the distance to its centre, as a multiple of the
radius. -/
def Shape.Within (origin : Vec3) (extent : Float32) : Shape → Prop
  | .plane p => p.point.Within extent
  | .sphere s => s.center.Within extent ∧ 1 / 1024 ≤ s.radius ∧ s.radius ≤ extent ∧
      (origin - s.center).dot (origin - s.center) / s.radius ≤ extent

instance (origin : Vec3) (extent : Float32) : (s : Shape) → Decidable (s.Within origin extent)
  | .plane p => inferInstanceAs (Decidable (p.point.Within extent))
  | .sphere _ => inferInstanceAs (Decidable (_ ∧ _ ∧ _ ∧ _))

/-- The normal of a plane is normalised, as `Plane.through` leaves it. -/
def Shape.HasUnitNormal : Shape → Prop
  | .plane p => ∃ v : Vec3, p.normal = v.normalizeOrZero
  | .sphere _ => True

variable {extent slope : Float32} {k m ς : ℝ}

theorem Vec3.Within.exists_denotes {v : Vec3} (within : v.Within extent) (reads : Reads extent k)
    (le : k ≤ m) :
    ∃ c, v.Denotes c ∧ ∀ axis, |c axis| ≤ m := by
  refine Vec3.exists_denotes fun axis => ?_
  obtain ⟨r, readsR, least, most⟩ :=
    reads_of_between (within axis).1 (within axis).2 reads.neg reads
  exact ⟨r, readsR, abs_le.mpr ⟨by linarith, by linarith⟩⟩

theorem reads_least_extent : Reads (1 / 32) (1 / 32) :=
  reads_power (k := -5) (by decide) (by norm_num)

theorem reads_sixteen : Reads 16 16 := reads_power (k := 4) (by decide) (by norm_num)

/-- The cosine, where 16 times it is at least the extent. -/
theorem slope_bounds (readsS : Reads slope ς) (readsK : Reads extent k) (large : 1 / 32 ≤ k)
    (steep : extent ≤ 16 * slope) :
    1 / 1024 ≤ ς ∧ k ≤ 16.0001 * ς := by
  have below := le_roundReal_of_le readsK (reads_sixteen.mul readsS).2 steep
  have rounding := (abs_le.mp (abs_roundReal_sub_le_add (16 * ς))).2
  have dust : (2 : ℝ) ^ (-150 : ℤ) ≤ 1 / 2 ^ 100 := by norm_num
  obtain nonneg | neg := le_or_gt 0 ς
  · rw [abs_of_nonneg (by linarith)] at rounding
    exact ⟨by linarith, by linarith⟩
  · have := roundReal_mono (show 16 * ς ≤ 0 by linarith)
    rw [roundReal_zero] at this
    linarith

/-! ## Shapes -/

variable {ray : Ray} {range : Interval} {contact : Contact} {v w normal : Vec3}
  {t last : Float32} {s : Shape}

theorem Plane.not_found_within {p : Plane} (found : p.parameter? ray range = some t)
    (unit : ray.direction = v.normalizeOrZero) (normalised : (Shape.plane p).HasUnitNormal)
    (side : normal = p.normal ∨ normal = -p.normal) (readsK : Reads extent k) (large : 1 / 32 ≤ k)
    (origin : ray.origin.Within extent) (contact : (ray.pointAt t).Within extent)
    (within : (Shape.plane p).Within ray.origin extent)
    (steep : extent ≤ 16 * normal.dot w.normalizeOrZero) :
    p.parameter? ⟨ray.pointAt t + Scene.epsilon * w.normalizeOrZero, w.normalizeOrZero⟩
      ⟨Scene.epsilon, last⟩ = none := by
  obtain ⟨n, normalised⟩ := normalised
  have unitN (axis : Axis) : Bounded (5 / 4) (p.normal.along axis) :=
    normalised ▸ n.bounded_normalizeOrZero axis
  have turned (axis : Axis) : Bounded (5 / 4) (normal.along axis) := by
    obtain rfl | rfl := side
    · exact unitN axis
    · rw [Vec3.along_neg]
      exact (unitN axis).neg
  obtain ⟨ς, facing, small⟩ := Vec3.bounded_dot_unit turned w.bounded_normalizeOrZero
  obtain ⟨least, near⟩ := slope_bounds facing readsK large steep
  rw [abs_of_pos (by linarith)] at small
  obtain ⟨q, n', o, d, x, ν, δ, τ, met, smallN, -, -, bounded⟩ :=
    exists_met found unitN fun axis => unit ▸ v.bounded_normalizeOrZero axis
  have scale : k ≤ 16.001 * ς := by linarith
  obtain ⟨q', hq, largeQ⟩ := Vec3.Within.exists_denotes within readsK scale
  obtain ⟨o', ho, largeO⟩ := origin.exists_denotes readsK scale
  obtain ⟨x', hx, largeX⟩ := contact.exists_denotes readsK scale
  obtain rfl := met.point.unique hq
  obtain rfl := met.origin.unique ho
  obtain rfl := met.contact.unique hx
  -- the contact is almost in the plane, and the new ray leads away from it
  have height := met.abs_height_le smallN bounded largeQ largeO largeX (by linarith)
  exact not_found_of_leaving side unitN w.bounded_normalizeOrZero hx hq met.normal facing least
    le_rfl (by linarith) largeX
    largeQ height

/-- The square of a distance, from its rounded quotient by the radius. -/
theorem le_mul_of_div_le {x y : Float32} {κ r : ℝ} (hx : Reads x κ) (hy : Reads y r) (pos : 0 < r)
    (readsK : Reads extent k) (scale : k ≤ 16.0001 * ς) (least : 1 / 1024 ≤ ς)
    (le : x / y ≤ extent) : κ ≤ 16.001 * (r * ς) := by
  have below := roundReal_le_of_le (hx.div hy pos.ne').2 readsK le
  have rounding := (abs_le.mp (abs_roundReal_sub_le_add (κ / r))).1
  have dust : (2 : ℝ) ^ (-150 : ℤ) ≤ 1 / 2 ^ 100 := by norm_num
  suffices κ / r ≤ 16.001 * ς by
    rw [div_le_iff₀ pos] at this
    linarith
  obtain nonneg | neg := le_or_gt 0 (κ / r)
  · rw [abs_of_nonneg nonneg] at rounding
    linarith
  · linarith

theorem Sphere.not_found_within {ball : Sphere} (found : ball.parameter? ray range = some t)
    (unit : ray.direction = v.normalizeOrZero) (readsK : Reads extent k) (large : 1 / 32 ≤ k)
    (origin : ray.origin.Within extent) (contact : (ray.pointAt t).Within extent)
    (within : (Shape.sphere ball).Within ray.origin extent)
    (facing : Reads ((ball.outwardNormal (ray.pointAt t)).dot w.normalizeOrZero) ς)
    (steep : extent ≤ 16 * (ball.outwardNormal (ray.pointAt t)).dot w.normalizeOrZero)
    (finite : last.isFinite = true) :
    ball.parameter? ⟨ray.pointAt t + Scene.epsilon * w.normalizeOrZero, w.normalizeOrZero⟩
      ⟨Scene.epsilon, last⟩ = none := by
  obtain ⟨center, solid, short, reach⟩ := within
  obtain ⟨least, near⟩ := slope_bounds facing readsK large steep
  have scale : k ≤ 16.001 * ς := by linarith
  obtain ⟨c, hc, largeC⟩ := center.exists_denotes readsK scale
  obtain ⟨o, ho, largeO⟩ := origin.exists_denotes readsK scale
  obtain ⟨x, hx, largeX⟩ := contact.exists_denotes readsK scale
  obtain ⟨r, readsR, thick, most⟩ := reads_of_between solid short reads_least_radius readsK
  norm_num at thick
  obtain ⟨-, -, τ, -, -, readsT, -⟩ := Ray.exists_pointAt hx
  obtain ⟨α, β, γ, κ, D, σ, ν, sign, r', solved⟩ := exists_solved found readsT unit
  exact not_found_of_leaving found unit rfl hx ho hc readsR solved.distance facing least thick
    (by linarith) le_rfl (by linarith)
    (le_mul_of_div_le solved.distance readsR (by linarith) readsK near least reach) largeO largeC
      largeX finite

/-- A shape that is left at an angle whose cosine is at least a 16th of the extent is not met again
from the offset. -/
theorem Shape.parameter?_eq_none_of_leaving {s : Shape}
    (found : s.contact? ray range = some contact) (unit : ray.direction = v.normalizeOrZero)
    (normalised : s.HasUnitNormal) (outside : ∀ ball, s = .sphere ball → contact.frontFace = true)
    (finite : extent.isFinite = true) (large : 1 / 32 ≤ extent) (origin : ray.origin.Within extent)
    (point : contact.point.Within extent) (within : s.Within ray.origin extent)
    (steep : extent ≤ 16 * contact.normal.dot w.normalizeOrZero) :
    s.parameter? ⟨contact.point + Scene.epsilon * w.normalizeOrZero, w.normalizeOrZero⟩
      ⟨Scene.epsilon, w.length⟩ = none := by
  obtain ⟨k, readsK⟩ := exists_reads_iff.mpr finite
  have least := (reads_least_extent.le_iff readsK).mp large
  obtain ⟨parameter, described⟩ := contact?_eq_some_iff.mp found
  have place : contact.point = ray.pointAt contact.t := by
    rw [← described]
    rfl
  have normal : contact.normal = if contact.frontFace then s.outwardNormal contact.point
      else -s.outwardNormal contact.point := by
    rw [place, ← described]
    rfl
  rw [place] at point normal ⊢
  cases s with
  | plane p =>
    refine Plane.not_found_within parameter unit normalised ?_ readsK least origin point
      within steep
    rw [normal]
    exact ite_eq_or_eq _ _ _
  | sphere ball =>
    rw [outside ball rfl, if_pos rfl] at normal
    obtain ⟨x, hx, -⟩ := point.exists_denotes readsK le_rfl
    obtain ⟨r, readsR, -, -⟩ := reads_of_between within.2.1 within.2.2.1 reads_least_radius readsK
    -- the radius is finite, since it is at most the extent
    have solid : (Shape.sphere ball).IsSolid := ⟨within.2.1, exists_reads_iff.mp ⟨r, readsR⟩⟩
    obtain ⟨ς, facing, -⟩ :=
      bounded_normal_dot found unit solid (place ▸ fun axis => exists_reads_iff.mp ⟨_, hx axis⟩) w
    rw [normal] at facing steep
    have pos : 0 < ς := by linarith [(slope_bounds facing readsK least steep).1]
    exact Sphere.not_found_within parameter unit readsK least origin point within facing steep
      (Vec3.isFinite_length (Vec3.ne_zero_of_reads_dot facing pos))

/-! ## Scenes of one shape -/

namespace Scene

variable {scene : Scene}

/-- Whatever hierarchy is searched, what is found is a contact with the only shape. -/
theorem contact_of_trace {hit : Hit} (alone : scene.shapes = #[s])
    (found : scene.trace ray range = some hit) :
    s.contact? ray range = some hit.toContact := by
  obtain ⟨s', there, contact⟩ := meets_of_trace (.inl found)
  rw [alone, List.getElem?_toArray, List.getElem?_singleton] at there
  split_ifs at there
  rwa [Option.some.inj there]

/-- The only surface of a scene, built or not, does not shadow what is seen of it from a light on
the side of the normal, if the cosine at which the light is seen is at least a 16th of an extent
that holds the surface, the start of the ray and the contact. A sphere is seen from outside. -/
theorem inShadow_eq_false_of_alone (scene : Scene) (s : Shape) (alone : scene.shapes = #[s])
    (normalised : s.HasUnitNormal) (start v target : Vec3) (hit : Hit)
    (found : scene.trace ⟨start, v.normalizeOrZero⟩ ⟨epsilon, infinity⟩ = some hit)
    (outside : ∀ ball, s = .sphere ball → hit.frontFace = true) (extent : Float32)
    (finite : extent.isFinite = true) (large : 1 / 32 ≤ extent) (origin : start.Within extent)
    (point : hit.point.Within extent) (within : s.Within start extent)
    (steep : extent ≤ 16 * hit.normal.dot (target - hit.point).normalizeOrZero) :
    scene.inShadow hit.point (target - hit.point).normalizeOrZero (target - hit.point).length =
      false := by
  have none :=
    Shape.parameter?_eq_none_of_leaving (contact_of_trace alone found) rfl normalised outside finite
      large origin point
    within steep
  rw [← Bool.not_eq_true]
  intro shadow
  obtain ⟨again, blocked⟩ := Option.isSome_iff_exists.mp shadow
  have parameter := (Shape.contact?_eq_some_iff.mp (contact_of_trace alone blocked)).1
  exact Option.some_ne_none _ (parameter.symm.trans none)

/-- A ball, the eye above it, and the light to the side. -/
theorem inShadow_eq_false_of_ball :
    let ball := Sphere.around .zero 1 default
    let start : Vec3 := ⟨0, 0, 3⟩
    let v : Vec3 := ⟨0, 0, -1⟩
    let target : Vec3 := ⟨2, 0, 3⟩
    ∃ scene hit, ((lit default).add (.sphere ball)).build .longest = .ok scene ∧
      scene.shapes = #[.sphere ball] ∧ (Shape.sphere ball).HasUnitNormal ∧
      scene.trace ⟨start, v.normalizeOrZero⟩ ⟨epsilon, infinity⟩ = some hit ∧
      hit.frontFace = true ∧ (10 : Float32).isFinite = true ∧ (1 / 32 : Float32) ≤ 10 ∧
      start.Within 10 ∧ hit.point.Within 10 ∧ (Shape.sphere ball).Within start 10 ∧
      10 ≤ 16 * hit.normal.dot (target - hit.point).normalizeOrZero ∧
      scene.inShadow hit.point (target - hit.point).normalizeOrZero
        (target - hit.point).length = false := by
  intro ball start v target
  have items : Hierarchy.items #[.sphere ball] ≠ [] := List.cons_ne_nil _ _
  have built : ((lit default).add (.sphere ball)).build .longest =
      .ok ⟨#[.sphere ball], some (.leaf 0 ball.box), default⟩ := by
    have tree : Hierarchy.ofShapes #[.sphere ball] .longest = .ok (.leaf 0 ball.box) := by
      rw [Hierarchy.ofShapes, dif_pos items]
      exact congrArg (fun built => Except.ok built.1) (Hierarchy.build.eq_2 _ _ _)
    exact congrArg (Except.map fun h => (⟨#[.sphere ball], some h, default⟩ : Scene)) tree
  have found : (⟨#[.sphere ball], some (.leaf 0 ball.box), default⟩ : Scene).trace
      ⟨start, v.normalizeOrZero⟩ ⟨epsilon, infinity⟩ =
      some ⟨⟨⟨0, 0, 1⟩, .unitZ, 2, true, default⟩, 0⟩ := by decide +kernel
  have finite : (10 : Float32).isFinite = true := by decide
  have large : (1 / 32 : Float32) ≤ 10 := by decide
  have origin : start.Within 10 := by decide
  have point : (⟨0, 0, 1⟩ : Vec3).Within 10 := by decide
  have within : (Shape.sphere ball).Within start 10 := by decide +kernel
  have steep : 10 ≤ 16 * Vec3.unitZ.dot (target - ⟨0, 0, 1⟩).normalizeOrZero := by decide +kernel
  have clear :=
    inShadow_eq_false_of_alone _ (.sphere ball) rfl trivial start v target _ found (fun _ _ => rfl)
      10 finite large
    origin point within steep
  exact ⟨_, _, built, rfl, trivial, found, rfl, finite, large, origin, point, within, steep, clear⟩

/-- A plane seen from 3000 above it. The contact is 1 / 4096 below the plane, more than the offset,
so a light straight above it is behind the plane. -/
theorem floor_shadows_itself :
    let scene := (lit default).add (.plane (Plane.through .zero .unitY default))
    let start : Vec3 := ⟨0, 3000, 0⟩
    let v : Vec3 := ⟨3, -3, 0⟩
    let target : Vec3 := ⟨3000, 3000, 0⟩
    start.IsFinite ∧ target.IsFinite ∧ v.normalizeOrZero ≠ .zero ∧
      ∃ hit, scene.trace ⟨start, v.normalizeOrZero⟩ ⟨epsilon, infinity⟩ = some hit ∧
        0 < hit.normal.dot (target - hit.point) ∧ 0 < (target - hit.point).length ∧
        scene.inShadow hit.point (target - hit.point).normalizeOrZero
          (target - hit.point).length = true := by
  intro scene start v target
  have found : scene.trace ⟨start, v.normalizeOrZero⟩ ⟨epsilon, infinity⟩ =
      some ⟨⟨⟨3000.000244140625, -0.000244140625, 0⟩, .unitY, 4242.640625, true, default⟩, 0⟩ := by
        decide +kernel
  exact ⟨by decide, by decide, by decide +kernel, _, found, by decide +kernel, by decide +kernel,
    by decide +kernel⟩

end Scene

end RayTracer
