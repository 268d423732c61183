import RayTracer.Camera
import RayTracer.Picture.Basic
import RayTracer.Render.Band
import RayTracer.Settings
import RayTracer.Shading

/-!
# Frames

The picture that a camera takes of a scene: one ray through the centre of each pixel, its colour
clamped. The rows are rendered in bands, each into its region of the picture. `render?_isSome_iff`
says that there is a picture exactly if its pixels fit into a buffer: no step after that can fail.
-/

namespace RayTracer

/-- The place of a pixel's centre on the image plane; row 0 is at the top. -/
def Settings.samplePoint (s : Settings) (x y : UInt32) : Float32 × Float32 :=
  ((x.toFloat32 + 0.5) / s.width.toFloat32, 1 - (y.toFloat32 + 0.5) / s.height.toFloat32)

/-- The colour of a pixel. -/
def Camera.pixel (camera : Camera) (scene : Scene) (settings : Settings) (x y : UInt32) : Color :=
  let (s, t) := settings.samplePoint x y
  Color.clamp (scene.rayColor (camera.ray s t) settings.maxDepth.toNat settings.background)

namespace Band

/-- The colour of the `k`-th pixel of a band. Its rows have the width of the settings. -/
def pixel (b : Band) (camera : Camera) (scene : Scene) (settings : Settings) (k : Nat) : Color :=
  let width := settings.width.toNat
  camera.pixel scene settings (UInt32.ofNat (k % width)) (UInt32.ofNat (b.startRow + k / width))

/-- Renders a band into a region of the pixels. The region decides how many rows that are, the band
where they begin; a band without rows leaves the region alone. Rows without width cannot be told
apart, so there is no result for them. -/
def render? (b : Band) (camera : Camera) (scene : Scene) (settings : Settings) (region : Region)
    (pixels : Array Color) : Option (Array Color) :=
  if b.isEmpty then some pixels
  else if settings.width = 0 then none
  else some (region.fill (b.pixel camera scene settings) pixels)

end Band

namespace Camera

/-- The most workers that a picture is shared out to. -/
def maxWorkers : Nat := 65535

/-- The number of workers: that of the settings, or else that of the machine, and at least one. -/
def workers (settings : Settings) (machine : Nat) : Nat :=
  let wanted := match settings.threads with
    | none => machine
    | some n => n.toNat
  min (max wanted 1) maxWorkers

/-- Renders bands into their regions, one after the other. The regions do not overlap, so the order
makes no difference. -/
def renderBands? (camera : Camera) (scene : Scene) (settings : Settings) :
    List (Band × Region) → Array Color → Option (Array Color)
  | [], pixels => some pixels
  | (band, region) :: rest, pixels =>
    (band.render? camera scene settings region pixels).bind
      (renderBands? camera scene settings rest)

/-- The picture of a scene, rendered band by band, for a machine with a number of workers. There is
none if its pixels do not fit into a buffer. -/
def render? (camera : Camera) (scene : Scene) (settings : Settings) (machine : Nat) :
    Option Picture :=
  let width := settings.width.toNat
  let height := settings.height.toNat
  (Picture.black? width height).bind fun black =>
    if width * height = 0 then some black
    else
      (Band.generate? height (workers settings machine)).bind fun bands =>
        (Band.regions? (width * height) width bands).bind fun regions =>
          (renderBands? camera scene settings (bands.zip regions) black.pixels).map fun pixels =>
            { width, height, pixels }

theorem renderBands?_isSome (camera : Camera) (scene : Scene) {settings : Settings}
    (wide : settings.width ≠ 0) (work : List (Band × Region)) :
    ∀ pixels, (renderBands? camera scene settings work pixels).isSome := by
  induction work with
  | nil => intro _; rfl
  | cons task rest ih =>
    intro pixels
    obtain ⟨band, region⟩ := task
    unfold renderBands? Band.render?
    rw [if_neg wide]
    split <;> exact ih _

theorem workers_le (settings : Settings) (machine : Nat) : workers settings machine ≤ maxWorkers :=
  Nat.min_le_right ..

/-- The workers are so few that their bands always fit into a buffer. -/
theorem generate?_workers (height : Nat) (settings : Settings) (machine : Nat) :
    Band.generate? height (workers settings machine) =
      some (Band.generate height (workers settings machine)) := by
  have few := workers_le settings machine
  have fits : Buffer.Fits Band.bandSize (max (workers settings machine) 1) := by
    unfold maxWorkers at few
    unfold Buffer.Fits Band.bandSize Buffer.maxBytes
    omega
  exact if_pos fits

theorem render?_isSome_iff (camera : Camera) (scene : Scene) (settings : Settings) (machine : Nat) :
    (camera.render? scene settings machine).isSome ↔
      Buffer.Fits Picture.pixelSize (settings.width.toNat * settings.height.toNat) := by
  simp only [render?, Picture.black?]
  split
  · rename_i fits
    refine iff_of_true ?_ fits
    rw [Option.bind_some]
    split
    · rfl
    · rename_i some_pixels
      have wide : settings.width ≠ 0 := by
        intro zero
        simp [zero] at some_pixels
      have enough := Band.regions?_isSome (Nat.le_of_eq ((Band.totalPixels_generate
        settings.height.toNat (workers settings machine) settings.width.toNat).trans
          (Nat.mul_comm ..)))
      obtain ⟨regions, carved⟩ := Option.isSome_iff_exists.1 enough
      rw [generate?_workers, Option.bind_some, carved, Option.bind_some, Option.isSome_map]
      exact renderBands?_isSome camera scene wide _ _
  · rename_i large
    simp [large]

end Camera

end RayTracer
