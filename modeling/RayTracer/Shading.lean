import RayTracer.Number.Power
import RayTracer.Scene

/-!
# Shading

The colour of a contact is its local colour, plus the colour in its mirror weighted by its
reflectivity as long as bounces are left. The local colour is an ambient share and, if the light is
in sight, a diffuse and a specular term. Terms are summed and not normalised, so a colour may leave
the displayed range.
-/

namespace RayTracer

open Number (maxNum pow infinity)

/-- A vector mirrored at the plane with a normal. -/
def Vec3.reflect (v n : Vec3) : Vec3 := v - 2 * v.dot n * n

/-- The ray that leaves a contact as in a mirror. -/
def Contact.mirrorRay (c : Contact) (ray : Ray) : Ray :=
  let direction := (ray.direction.reflect c.normal).normalizeOrZero
  ⟨c.point + direction * Scene.epsilon, direction⟩

namespace Scene

/-- The share of the diffuse colour that needs no light. -/
def ambient : Float32 := 0.05

/-- The search range of rays that leave a surface or the eye. -/
def anyDistance : Interval := ⟨epsilon, infinity⟩

/-- The Lambertian term for light from a unit direction. -/
def diffuseTerm (light : Light) (c : Contact) (toLight : Vec3) : Color :=
  maxNum (c.normal.dot toLight) 0 * light.intensity * (c.material.diffuse * light.color)

/-- The Phong term for light from a unit direction, seen along a ray. -/
def specularTerm (light : Light) (ray : Ray) (c : Contact) (toLight : Vec3) : Color :=
  let toEye := (-ray.direction).normalizeOrZero
  let mirrored := (-toLight.reflect c.normal).normalizeOrZero
  pow (maxNum (toEye.dot mirrored) 0) c.material.shininess * (c.material.specular * light.intensity)

/-- The colour of a contact without its mirror. -/
def localColor (s : Scene) (ray : Ray) (c : Contact) : Color :=
  let toLight := s.light.position - c.point
  let direction := toLight.normalizeOrZero
  let base := ambient * c.material.diffuse
  if s.inShadow c.point direction toLight.length then base
  else base + (diffuseTerm s.light c direction + specularTerm s.light ray c direction)

/-- The colour of a contact seen along a ray, with at most `bounces` mirrors in a row. A mirror ray
that meets nothing adds nothing. -/
def shade (s : Scene) (ray : Ray) (c : Contact) : (bounces : Nat) → Color
  | 0 => s.localColor ray c
  | bounces + 1 =>
    let color := s.localColor ray c
    if c.material.isReflective then
      match s.trace (c.mirrorRay ray) anyDistance with
      | none => color
      | some hit =>
        color + c.material.reflectivity * s.shade (c.mirrorRay ray) hit.toContact bounces
    else color

/-- The colour seen along a ray from the eye: that of the closest contact, or the background. -/
def rayColor (s : Scene) (ray : Ray) (bounces : Nat) (background : Color) : Color :=
  match s.trace ray anyDistance with
  | none => background
  | some hit => s.shade ray hit.toContact bounces

end Scene

end RayTracer
