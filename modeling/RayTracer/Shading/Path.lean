import RayTracer.Shading

/-!
# Mirror paths

The contacts that light visits from mirror to mirror. A path starts at a contact seen along a ray
and goes on as long as the contact's material is a mirror and the mirror ray meets something. It
does not depend on how many bounces shading allows.
-/

namespace RayTracer

/-- A contact with the ray along which it is seen. -/
structure Sighting where
  ray : Ray
  contact : Contact

namespace Scene

/-- What is seen in the mirror of a contact, if it is one. -/
def bounce? (s : Scene) (seen : Sighting) : Option Sighting :=
  if seen.contact.material.isReflective then
    let ray := seen.contact.mirrorRay seen.ray
    (s.trace ray anyDistance).map fun hit => ⟨ray, hit.toContact⟩
  else none

/-- What is seen after a number of bounces, if the path is that long. -/
def bounces? (s : Scene) (seen : Sighting) : Nat → Option Sighting
  | 0 => some seen
  | n + 1 => (s.bounces? seen n).bind s.bounce?

/-- The path up to a number of bounces, as far as it goes. -/
def mirrorPath (s : Scene) (seen : Sighting) : (bounces : Nat) → List Sighting
  | 0 => [seen]
  | n + 1 =>
    match s.bounce? seen with
    | none => [seen]
    | some next => seen :: s.mirrorPath next n

/-- The colour at the start of a path: each local colour, plus the colour behind it weighted by the
reflectivity. -/
def pathColor (s : Scene) : List Sighting → Color
  | [] => .zero
  | [last] => s.localColor last.ray last.contact
  | first :: rest =>
    s.localColor first.ray first.contact + first.contact.material.reflectivity * s.pathColor rest

end Scene

end RayTracer
