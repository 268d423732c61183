import RayTracer.Geometry.Ray
import RayTracer.Number.Tangent

/-!
# Pinhole cameras

The image plane stands one unit in front of the eye. Its points have coordinates `(s, t)` from
`(0, 0)` at the lower left to `(1, 1)` at the upper right.
-/

namespace RayTracer

structure Camera where
  origin : Vec3
  lowerLeft : Vec3
  /-- From the left edge of the image plane to the right one. -/
  horizontal : Vec3
  /-- From the lower edge to the upper one. -/
  vertical : Vec3
  /-- To the right. -/
  u : Vec3
  /-- Up. -/
  v : Vec3
  /-- Backwards. -/
  w : Vec3
deriving DecidableEq, Inhabited

namespace Camera

/-- One degree in radians: the rounded quotient of the rounded π by 180. -/
def degree : Float32 := 3.14159274 / 180

/-- The camera at `eye` that looks at `target`, with a vertical field of view in degrees and a ratio
of width to height. Where the directions are parallel or the points equal, the basis has zero
vectors. -/
def lookAt (eye target up : Vec3) (fieldOfView aspect : Float32) : Camera :=
  let height := 2 * Number.tan (fieldOfView * degree / 2)
  let width := aspect * height
  let w := (eye - target).normalizeOrZero
  let u := (up.cross w).normalizeOrZero
  let v := w.cross u
  let horizontal := width * u
  let vertical := height * v
  let lowerLeft := eye - horizontal / (2 : Float32) - vertical / (2 : Float32) - w
  { origin := eye, lowerLeft, horizontal, vertical, u, v, w }

/-- The ray from the eye through a point of the image plane. -/
def ray (c : Camera) (s t : Float32) : Ray :=
  let target := c.lowerLeft + s * c.horizontal + t * c.vertical
  ⟨c.origin, (target - c.origin).normalizeOrZero⟩

end Camera

end RayTracer
