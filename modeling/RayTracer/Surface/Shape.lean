import RayTracer.Geometry.Box
import RayTracer.Surface.Hit

/-!
# Spheres and planes

A shape answers one question in two steps. `parameter?` finds the parameter at which a ray first
meets the shape within a search range, both ends included; `contactAt` describes the contact at that
parameter. `contact?` joins them. So what a contact holds depends on the range through its parameter
alone.
-/

namespace RayTracer

open Number (maxNum)

@[ext] structure Sphere where
  center : Vec3
  radius : Float32
  material : Material
deriving DecidableEq, Inhabited

namespace Sphere

/-- The sphere around a point; a radius below zero counts as zero. -/
def around (center : Vec3) (radius : Float32) (material : Material) : Sphere :=
  ⟨center, maxNum radius 0, material⟩

def box (s : Sphere) : Box :=
  Box.ofCorners (s.center - Vec3.splat s.radius) (s.center + Vec3.splat s.radius)

/-- The two solutions of `a t² + 2 b t + c = 0`, the nearer first. There are none if the
discriminant is negative; a NaN discriminant gives NaN solutions, which lie in no range. -/
def roots? (s : Sphere) (ray : Ray) : Option (Float32 × Float32) :=
  let fromCenter := ray.origin - s.center
  let a := ray.direction.dot ray.direction
  let b := fromCenter.dot ray.direction
  let c := fromCenter.dot fromCenter - s.radius * s.radius
  let discriminant := b * b - a * c
  if discriminant < 0 then none
  else
    let root := discriminant.sqrt
    some ((-b - root) / a, (-b + root) / a)

/-- The nearer solution if it lies in the range, else the farther one if that does. -/
def parameter? (s : Sphere) (ray : Ray) (range : Interval) : Option Float32 := do
  let (near, far) ← s.roots? ray
  if range.contains near then some near
  else if range.contains far then some far
  else none

/-- The outward normal at a point of the surface. -/
def outwardNormal (s : Sphere) (p : Vec3) : Vec3 := (p - s.center) / s.radius

end Sphere

/-- A plane, of which only the part within `Plane.bounds` can be met. -/
@[ext] structure Plane where
  point : Vec3
  normal : Vec3
  material : Material
deriving DecidableEq, Inhabited

namespace Plane

/-- The plane through a point. Its normal is normalised here. -/
def through (point normal : Vec3) (material : Material) : Plane :=
  ⟨point, normal.normalizeOrZero, material⟩

/-- Half the edge of the cube that a plane is confined to. -/
def extent : Float32 := 1e5

/-- The cube around the origin that bounds every plane. -/
def bounds : Box := Box.ofCorners (.splat (-extent)) (.splat extent)

/-- A ray that runs this close to parallel never meets the plane, not even from a point on it. -/
def parallelTolerance : Float32 := 1e-8

/-- The solution of `(point - origin - t direction) · normal = 0`, if it lies in the range and its
point in the bounds. -/
def parameter? (s : Plane) (ray : Ray) (range : Interval) : Option Float32 :=
  let slope := s.normal.dot ray.direction
  if slope.abs < parallelTolerance then none
  else
    let t := (s.point - ray.origin).dot s.normal / slope
    let p := ray.pointAt t
    if range.contains t && bounds.x.contains p.x && bounds.y.contains p.y &&
      bounds.z.contains p.z then some t
    else none

end Plane

/-- What a scene is made of. -/
inductive Shape where
  | sphere (s : Sphere)
  | plane (p : Plane)
deriving DecidableEq, Inhabited

namespace Shape

def material : Shape → Material
  | sphere s => s.material
  | plane p => p.material

def box : Shape → Box
  | sphere s => s.box
  | plane _ => Plane.bounds

/-- The outward normal at a point of the surface. -/
def outwardNormal : Shape → Vec3 → Vec3
  | sphere s, p => s.outwardNormal p
  | plane s, _ => s.normal

/-- Where a ray first meets the shape within a range. -/
def parameter? : Shape → Ray → Interval → Option Float32
  | sphere s => s.parameter?
  | plane p => p.parameter?

/-- The contact at parameter `t`. -/
def contactAt (s : Shape) (ray : Ray) (t : Float32) : Contact :=
  let point := ray.pointAt t
  let facing : Contact := { point, normal := .zero, t, frontFace := false, material := s.material }
  facing.turned ray (s.outwardNormal point)

/-- The first contact of a ray with the shape within a range. -/
def contact? (s : Shape) (ray : Ray) (range : Interval) : Option Contact :=
  (s.parameter? ray range).map (s.contactAt ray)

/-- Tests the shape and writes the contact into a hit. -/
def probe (s : Shape) (ray : Ray) (range : Interval) (hit : Hit) : Bool × Hit :=
  hit.overwrite (s.contact? ray range)

end Shape

end RayTracer
