import RayTracer.Geometry.Ray
import RayTracer.Surface.Material

/-!
# Contacts and hits

A `Contact` is where a ray meets one surface. A `Hit` is a contact together with the number of the
object in its scene, which a surface by itself does not know.
-/

namespace RayTracer

/-- Where a ray meets a surface. -/
@[ext] structure Contact where
  point : Vec3
  /-- The unit normal on the side from which the ray comes. -/
  normal : Vec3
  /-- The ray's parameter at the point. -/
  t : Float32
  /-- The ray comes from outside. -/
  frontFace : Bool
  material : Material
deriving DecidableEq, Inhabited

namespace Contact

/-- The contact with its normal turned against the ray: the outward normal if the ray runs against
it, and its opposite if not. -/
def turned (c : Contact) (ray : Ray) (outward : Vec3) : Contact :=
  let front : Bool := ray.direction.dot outward < 0
  { c with frontFace := front, normal := if front then outward else -outward }

end Contact

/-- A contact with a numbered object of a scene. -/
@[ext] structure Hit extends Contact where
  object : Nat
deriving DecidableEq, Inhabited

namespace Hit

/-- Closer along the ray, or as close and of a lower number. -/
def isCloser (a b : Hit) : Bool := a.t < b.t || (a.t == b.t && a.object < b.object)

/-- Turns the normal of the contact against the ray. -/
def turned (h : Hit) (ray : Ray) (outward : Vec3) : Hit :=
  { h with toContact := h.toContact.turned ray outward }

/-- Writes a contact over the one that the hit holds and keeps the object's number. The flag tells
whether there was one; without one the hit stays as it is. -/
def overwrite (h : Hit) : Option Contact → Bool × Hit
  | none => (false, h)
  | some c => (true, { h with toContact := c })

end Hit

end RayTracer
