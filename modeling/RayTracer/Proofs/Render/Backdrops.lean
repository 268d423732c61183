import RayTracer.Proofs.Render.Frames
import RayTracer.Proofs.Search.Genuine
import RayTracer.Proofs.Surface.Stillness

/-! # What a ray without a direction shows

A ray of zero direction meets no shape, so no search finds anything along it, with or without a
hierarchy. Two things follow: such a shadow ray is not blocked and such a mirror ray adds nothing.

The third is about a camera that looks at its own eye. Its basis has zero vectors, and whatever it
is scaled by, each point of the image plane is the eye, up to components that are NaN
(`Camera.IsStill`). So all its rays have zero direction and the picture is the background.
-/

namespace RayTracer

open Number

/-! ## Searches -/

namespace Scene

variable {scene : Scene} {ray : Ray}

theorem trace_still (ray : Ray) (still : ray.direction.IsNull) (range : Interval) :
    scene.trace ray range = none ∧ scene.traceLinear ray range = none := by
  have nothing {hit : Hit} :
      ¬(scene.trace ray range = some hit ∨ scene.traceLinear ray range = some hit) := by
    intro found
    obtain ⟨s, -, contact⟩ := meets_of_trace found
    rw [s.contact?_still still] at contact
    cases contact
  exact ⟨Option.eq_none_iff_forall_ne_some.mpr fun hit found => nothing (.inl found),
    Option.eq_none_iff_forall_ne_some.mpr fun hit found => nothing (.inr found)⟩

theorem inShadow_still {direction : Vec3} (still : direction.IsNull) (point : Vec3)
    (distance : Float32) :
    scene.inShadow point direction distance = false := by
  rw [inShadow, (trace_still ⟨_, direction⟩ still _).1, Option.isSome_none]

theorem shade_still {c : Contact} (still : (c.mirrorRay ray).direction.IsNull) (bounces : ℕ) :
    scene.shade ray c bounces = scene.localColor ray c := by
  cases bounces with
  | zero => rw [shade]
  | succ bounces =>
    rw [shade, (trace_still _ still _).1]
    exact ite_self _

theorem rayColor_still (still : ray.direction.IsNull) (bounces : ℕ) (background : Color) :
    scene.rayColor ray bounces background = background := by
  rw [rayColor, (trace_still ray still _).1]

end Scene

/-! ## Points that stay in place -/

/-- Each component that is a number is that of `e`. -/
def Vec3.StaysAt (v e : Vec3) : Prop :=
  ∀ axis, IsNumber (v.along axis) → value (v.along axis) = value (e.along axis)

namespace Vec3

variable {v w e : Vec3}

theorem staysAt_self (e : Vec3) : e.StaysAt e := fun _ _ => rfl

theorem StaysAt.add (h : v.StaysAt e) (null : w.IsNull) : (v + w).StaysAt e := by
  intro axis number
  rw [along_add] at number ⊢
  have same := h axis (add_isNumber_iff.mp number).1
  rw [value_add number, null axis, add_zero, same]
  exact rounded_partsValue (stored_parts (e.along axis))

theorem StaysAt.sub (h : v.StaysAt e) (null : w.IsNull) : (v - w).StaysAt e := by
  intro axis number
  rw [along_sub] at number ⊢
  have same := h axis (isNumber_of_sub number).1
  rw [value_sub number, null axis, sub_zero, same]
  exact rounded_partsValue (stored_parts (e.along axis))

theorem StaysAt.isNull_sub (h : v.StaysAt e) : (v - e).IsNull := by
  intro axis
  rw [along_sub]
  exact value_eq_zero_of fun number => value_sub_eq_zero (h axis (isNumber_of_sub number).1)

end Vec3

/-! ## Cameras that look at their own eye -/

namespace Camera

/-- The edges of the image plane have no length and it is at the eye. -/
structure IsStill (c : Camera) : Prop where
  horizontal : c.horizontal.IsNull
  vertical : c.vertical.IsNull
  lowerLeft : c.lowerLeft.StaysAt c.origin

theorem IsStill.direction_ray {c : Camera} (still : c.IsStill) (s t : Float32) :
    (c.ray s t).direction = .zero := by
  have target : (c.lowerLeft + s * c.horizontal + t * c.vertical).StaysAt c.origin :=
    (still.lowerLeft.add (still.horizontal.smul s)).add (still.vertical.smul t)
  exact target.isNull_sub.normalizeOrZero_eq

theorem isStill_lookAt {eye target : Vec3}
    (same : ∀ axis, value (eye.along axis) = value (target.along axis)) (up : Vec3)
    (fieldOfView aspect : Float32) : (lookAt eye target up fieldOfView aspect).IsStill := by
  have back : (eye - target).normalizeOrZero = .zero := by
    refine Vec3.IsNull.normalizeOrZero_eq fun axis => ?_
    rw [Vec3.along_sub]
    exact value_sub_eq_zero (same axis)
  have right : (up.cross .zero).normalizeOrZero = .zero :=
    (Vec3.isNull_zero.cross up).normalizeOrZero_eq
  have upward : (Vec3.zero.cross .zero).IsNull := Vec3.isNull_zero.cross .zero
  unfold lookAt
  dsimp only
  rw [back, right]
  have horizontal := Vec3.isNull_zero.smul (aspect * (2 * Number.tan (fieldOfView * degree / 2)))
  have vertical := upward.smul (2 * Number.tan (fieldOfView * degree / 2))
  exact ⟨horizontal, vertical,
    ((eye.staysAt_self.sub (horizontal.div 2)).sub (vertical.div 2)).sub Vec3.isNull_zero⟩

variable {camera : Camera} {scene : Scene} {settings : Settings}

theorem IsStill.pixel_eq (still : camera.IsStill) (x y : UInt32) :
    camera.pixel scene settings x y = Color.clamp settings.background := by
  unfold pixel
  dsimp only
  rw [Scene.rayColor_still]
  rw [still.direction_ray]
  exact Vec3.isNull_zero

/-- The picture of one colour. -/
theorem IsStill.plain_eq (still : camera.IsStill) : camera.plain scene settings =
    ⟨settings.width.toNat, settings.height.toNat,
      Array.replicate (settings.width.toNat * settings.height.toNat)
        (Color.clamp settings.background)⟩ := by
  unfold plain
  simp only [colorAt, still.pixel_eq, Picture.mk.injEq, true_and]
  refine Array.ext (Array.size_ofFn.trans Array.size_replicate.symm) fun place _ _ => ?_
  rw [Array.getElem_ofFn, Array.getElem_replicate]

end Camera

/-- A ray of zero direction meets nothing, whatever the shapes are made of, with and without a
hierarchy. So a zero direction to the light is not in shadow, and a mirror ray whose direction
normalises to zero adds nothing. A camera that looks at its own eye takes pictures of the background
only. -/
theorem zero_direction_meets_nothing (scene : Scene) (direction : Vec3) (zero : direction.IsZero)
    (eye target : Vec3) (same : ∀ axis, (eye.along axis == target.along axis) = true) :
    (∀ origin range, scene.trace ⟨origin, direction⟩ range = none ∧
        scene.traceLinear ⟨origin, direction⟩ range = none) ∧
      (∀ point distance, scene.inShadow point direction distance = false) ∧
      (∀ (ray : Ray) (c : Contact) (bounces : ℕ),
        (ray.direction.reflect c.normal).normalizeOrZero.IsZero →
        scene.shade ray c bounces = scene.localColor ray c) ∧
      ∀ up fieldOfView aspect (settings : Settings),
        (∀ x y, (Camera.lookAt eye target up fieldOfView aspect).pixel scene settings x y =
            Color.clamp settings.background) ∧
          ∀ machine,
            (Camera.lookAt eye target up fieldOfView aspect).render? scene settings machine =
            if Buffer.Fits Picture.pixelSize (settings.width.toNat * settings.height.toNat) then
              some ⟨settings.width.toNat, settings.height.toNat,
                Array.replicate (settings.width.toNat * settings.height.toNat)
                  (Color.clamp settings.background)⟩
            else none := by
  have still (up : Vec3) (fieldOfView aspect : Float32) :
      (Camera.lookAt eye target up fieldOfView aspect).IsStill :=
    Camera.isStill_lookAt (fun axis => ((beq_iff _ _).mp (same axis)).2.2) up fieldOfView aspect
  refine ⟨fun origin range => Scene.trace_still ⟨origin, direction⟩ zero.isNull range,
    fun point => Scene.inShadow_still zero.isNull point,
    fun ray c bounces mirror => Scene.shade_still mirror.isNull bounces,
    fun up fieldOfView aspect settings =>
      ⟨(still up fieldOfView aspect).pixel_eq, fun machine => ?_⟩⟩
  split_ifs with fits
  · rw [Camera.render?_of_fits machine fits, (still up fieldOfView aspect).plain_eq]
  · exact Camera.render?_of_not_fits machine fits

/-- A sphere without end around the eye and a plane through nowhere, a camera whose basis is NaN,
and a background too bright to be displayed. -/
theorem zero_direction_meets_nothing_infinite :
    let scene := ((Scene.lit default).add (.sphere ⟨.zero, infinity, default⟩)).add
      (.plane ⟨⟨notANumber, 0, 0⟩, .unitY, default⟩)
    let direction : Vec3 := ⟨0, -0, 0⟩
    let eye : Vec3 := ⟨3, -0, 1e30⟩
    let target : Vec3 := ⟨3, 0, 1e30⟩
    let camera := Camera.lookAt eye target ⟨infinity, notANumber, 1⟩ 90 notANumber
    direction.IsZero ∧ (∀ axis, (eye.along axis == target.along axis) = true) ∧
      scene.trace ⟨.one, direction⟩ .all = none ∧ scene.inShadow .one direction infinity = false ∧
      camera.render? scene { width := 2, height := 1, background := .splat 2 } 4 =
        some ⟨2, 1, #[.one, .one]⟩ := by
  intro scene direction eye target camera
  have zero : direction.IsZero := by decide
  have same : ∀ axis, (eye.along axis == target.along axis) = true := by decide +kernel
  obtain ⟨searches, shadows, -, pictures⟩ :=
    zero_direction_meets_nothing scene direction zero eye target same
  refine ⟨zero, same, (searches .one .all).1, shadows .one infinity, ?_⟩
  rw [(pictures _ _ _ _).2 4, if_pos (by decide)]
  decide

end RayTracer
