import RayTracer.Geometry.Vec3
import RayTracer.Number.Extrema

/-!
# Materials and light

A surface has a Phong material with an optional mirror term; a scene has one point light.
-/

namespace RayTracer

open Number (clampUnit)

/-- Red, green and blue. Displayed channels lie in `[0, 1]`, sums of light may leave it. -/
abbrev Color := Vec3

/-- How a surface answers light. -/
@[ext] structure Material where
  diffuse : Color
  /-- The colour of the highlight. -/
  specular : Color
  /-- The exponent that narrows the highlight. -/
  shininess : Float32
  /-- The share of the mirrored colour that is added to the local one. -/
  reflectivity : Float32
deriving DecidableEq

namespace Material

/-- Light grey with a soft highlight and no mirror. -/
instance : Inhabited Material := ⟨⟨.splat 0.8, .splat 0.5, 32, 0⟩⟩

/-- Replaces the mirror share, clamped to `[0, 1]`. -/
def withReflectivity (m : Material) (reflectivity : Float32) : Material :=
  { m with reflectivity := clampUnit reflectivity }

/-- Replaces the highlight. -/
def withSpecular (m : Material) (specular : Color) (shininess : Float32) : Material :=
  { m with specular, shininess }

/-- The material with the given parts; the mirror share is clamped to `[0, 1]`. -/
def ofParts (diffuse specular : Color) (shininess reflectivity : Float32) : Material :=
  { diffuse, specular, shininess, reflectivity := clampUnit reflectivity }

/-- The default material in another colour. -/
def ofDiffuse (diffuse : Color) : Material := { (default : Material) with diffuse }

/-- Whether shading follows a mirror ray. -/
def isReflective (m : Material) : Bool := m.reflectivity > 0

end Material

/-- A point light. -/
@[ext] structure Light where
  position : Vec3
  color : Color
  intensity : Float32
deriving DecidableEq

namespace Light

/-- A white light. -/
def white (position : Vec3) (intensity : Float32) : Light := ⟨position, .one, intensity⟩

/-- White, of intensity 1, at the origin. -/
instance : Inhabited Light := ⟨white .zero 1⟩

def withColor (l : Light) (color : Color) : Light := { l with color }

end Light

end RayTracer
