import RayTracer.Geometry.Vec3

/-!
# Rays

A ray is a half line with a parameter. Nothing normalises its direction: a zero direction is allowed
and leads to parameters that are NaN or infinite.
-/

namespace RayTracer

@[ext] structure Ray where
  origin : Vec3
  direction : Vec3
deriving DecidableEq

namespace Ray

/-- From the origin along z. -/
instance : Inhabited Ray := ⟨⟨.zero, .unitZ⟩⟩

/-- The point at parameter `t`. -/
def pointAt (r : Ray) (t : Float32) : Vec3 := r.origin + r.direction * t

end Ray

end RayTracer
