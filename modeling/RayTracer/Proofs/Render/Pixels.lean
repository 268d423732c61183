import RayTracer.Command.Demo
import RayTracer.Proofs.Render.Frames
import RayTracer.Proofs.Shading.Channels

/-! # Pixels are colours

Clamping moves each number into the unit interval and lets NaN pass. So a channel of a pixel lies in
the interval exactly if the channel of what is seen is a number, and `Scene.Unbroken` says when that
is.
-/

namespace RayTracer

open Number

theorem Number.clampUnit_of_not_isNumber {x : Float32} (h : ¬IsNumber x) : clampUnit x = x := by
  unfold clampUnit clamp
  rw [if_neg, if_neg]
  · exact fun above => h ((lt_iff _ _).mp above).2.1
  · exact fun below => h ((lt_iff _ _).mp below).1

theorem Number.clampUnit_mem_iff {x : Float32} :
    0 ≤ clampUnit x ∧ clampUnit x ≤ 1 ↔ IsNumber x := by
  constructor
  · rintro ⟨least, -⟩
    by_contra nan
    rw [clampUnit_of_not_isNumber nan] at least
    exact nan (zero_le_iff.mp least).1
  · intro number
    unfold clampUnit clamp
    split_ifs with below above
    · decide
    · decide
    · have zero : IsNumber 0 := rfl
      have one : IsNumber 1 := rfl
      exact ⟨(number_not_lt number zero).mp below, (number_not_lt one number).mp above⟩

theorem Number.isNaN_clampUnit_iff {x : Float32} : (clampUnit x).isNaN = true ↔ ¬IsNumber x := by
  constructor
  · intro nan number
    obtain ⟨least, -⟩ := clampUnit_mem_iff.mpr number
    have number := (zero_le_iff.mp least).1
    rw [IsNumber, nan] at number
    cases number
  · intro h
    rw [clampUnit_of_not_isNumber h]
    exact (isNumber_or_isNaN x).resolve_left h

variable {camera : Camera} {scene : Scene} {settings : Settings}

/-- The ray through the centre of a pixel. -/
def Camera.pixelRay (camera : Camera) (settings : Settings) (x y : UInt32) : Ray :=
  camera.ray (settings.samplePoint x y).1 (settings.samplePoint x y).2

theorem Camera.along_pixel (camera : Camera) (scene : Scene) (settings : Settings) (x y : UInt32)
    (axis : Axis) :
    (camera.pixel scene settings x y).along axis =
      clampUnit ((scene.rayColor (camera.pixelRay settings x y) settings.maxDepth.toNat
        settings.background).along axis) := by
  cases axis <;> rfl

theorem Scene.isNumber_rayColor_iff (light : scene.light.IsFinite)
    (materials : ∀ shape ∈ scene.shapes, shape.material.IsFinite) {background : Color}
    (finite : background.IsFinite) (ray : Ray) {d : Vec3} (unit : ray.direction = d.normalizeOrZero)
    (bounces : ℕ) (axis : Axis) :
    IsNumber ((scene.rayColor ray bounces background).along axis) ↔
      ∀ seen, scene.sighting? ray = some seen →
        scene.Unbroken (scene.mirrorPath seen bounces) axis := by
  rw [rayColor_eq_pathColor]
  cases found : scene.sighting? ray with
  | none => exact iff_of_true (isNumber_of_isFinite (finite axis)) nofun
  | some seen =>
    have sees := sees_of_sighting? unit found
    simp only [Option.some.injEq, forall_eq']
    exact isNumber_pathColor_iff light materials sees bounces axis

/-- A channel of a pixel lies in the unit interval or is NaN. With a finite light, finite materials
and a finite background it lies there exactly if nothing breaks it on the path from mirror to mirror
that the pixel shows, so always if all shapes are steady. These are the pixels of the rendered
picture. -/
theorem pixel_mem_unit_iff (camera : Camera) (scene : Scene) (settings : Settings)
    (light : scene.light.IsFinite) (materials : ∀ shape ∈ scene.shapes, shape.material.IsFinite)
    (background : settings.background.IsFinite) :
    (∀ x y axis,
      let channel := (camera.pixel scene settings x y).along axis
      (channel.isNaN = true ↔ ¬(0 ≤ channel ∧ channel ≤ 1)) ∧
      (0 ≤ channel ∧ channel ≤ 1 ↔
        ∀ seen, scene.sighting? (camera.pixelRay settings x y) = some seen →
          scene.Unbroken (scene.mirrorPath seen settings.maxDepth.toNat) axis) ∧
      ((∀ shape ∈ scene.shapes, shape.Steady scene.light axis) → 0 ≤ channel ∧ channel ≤ 1)) ∧
    ∀ machine picture, camera.render? scene settings machine = some picture →
      ∀ x y, x < settings.width → y < settings.height →
        picture.get? x.toNat y.toNat = some (camera.pixel scene settings x y) := by
  refine ⟨fun x y axis => ?_, fun machine picture rendered x y hx hy => ?_⟩
  · dsimp only
    rw [Camera.along_pixel, isNaN_clampUnit_iff, clampUnit_mem_iff]
    have number :=
      Scene.isNumber_rayColor_iff light materials background (camera.pixelRay settings x y) rfl
      settings.maxDepth.toNat axis
    refine ⟨Iff.rfl, number, fun steady => number.mpr fun seen found => ?_⟩
    exact (Scene.unbroken_of_steady light materials steady (Scene.sees_of_sighting? rfl found) _).1
  · have fits :=
      (Camera.render?_isSome_iff camera scene settings machine).mp (by rw [rendered]; rfl)
    rw [Camera.render?_of_fits machine fits] at rendered
    obtain rfl := Option.some.inj rendered
    exact Camera.plain_pixel x y hx hy

/-- All channels of a picture of the demo scene lie in the unit interval. -/
theorem pixel_mem_unit_demo :
    let scene := Demo.scene
    let settings : Settings := { width := 4, height := 3 }
    let camera := Demo.camera settings.aspectRatio
    scene.light.IsFinite ∧ (∀ shape ∈ scene.shapes, shape.material.IsFinite) ∧
      settings.background.IsFinite ∧
      (∀ shape ∈ scene.shapes, ∀ axis, shape.Steady scene.light axis) ∧
      ∃ picture, camera.render? scene settings 1 = some picture ∧
        ∀ x y, x < settings.width → y < settings.height →
          ∃ color, picture.get? x.toNat y.toNat = some color ∧
            ∀ axis, 0 ≤ color.along axis ∧ color.along axis ≤ 1 := by
  intro scene settings camera
  have light : scene.light.IsFinite := by decide +kernel
  have materials : ∀ shape ∈ scene.shapes, shape.material.IsFinite := by decide +kernel
  have background : settings.background.IsFinite := by decide +kernel
  have steady : ∀ shape ∈ scene.shapes, ∀ axis, shape.Steady scene.light axis := by decide +kernel
  have fits : (camera.render? scene settings 1).isSome = true := by
    rw [Camera.render?_isSome_iff]
    decide
  obtain ⟨picture, rendered⟩ := Option.isSome_iff_exists.mp fits
  obtain ⟨channels, pixels⟩ := pixel_mem_unit_iff camera scene settings light materials background
  refine ⟨light, materials, background, steady, picture, rendered, fun x y hx hy => ?_⟩
  refine ⟨_, pixels 1 picture rendered x y hx hy, fun axis => ?_⟩
  exact (channels x y axis).2.2 fun shape there => steady shape there axis

/-- A surface that mirrors no light, but whose shininess is negative: where the highlight would be
dark an infinity meets a zero, and the pixel is NaN. -/
theorem pixel_isNaN_glossless :
    let glossless : Material := { (default : Material) with specular := .zero, shininess := -1 }
    let scene := (Scene.lit (.white ⟨10, 0, 1⟩ 1)).add (.sphere (.around .zero 1 glossless))
    let settings : Settings := { width := 1, height := 1 }
    let camera := Camera.lookAt ⟨0, 0, 3⟩ .zero .unitY 60 1
    scene.light.IsFinite ∧ (∀ shape ∈ scene.shapes, shape.material.IsFinite) ∧
      settings.background.IsFinite ∧ ∀ axis,
        let channel := (camera.pixel scene settings 0 0).along axis
        channel.isNaN = true ∧ ¬(0 ≤ channel ∧ channel ≤ 1) := by
  decide +kernel

end RayTracer
