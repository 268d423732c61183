import RayTracer.Hierarchy.Build
import RayTracer.Hierarchy.Search

/-!
# Scenes

Shapes in the order in which they were added, one light, and the hierarchy over the shapes if it has
been built. Adding a shape drops the hierarchy, so one that is there is always up to date. Every
search works with and without it.
-/

namespace RayTracer

structure Scene where
  shapes : Array Shape
  hierarchy : Option Hierarchy
  light : Light
deriving Inhabited

namespace Scene

/-- How far secondary rays start from their surface, and where their search begins. It keeps a
surface from shadowing and reflecting itself. -/
def epsilon : Float32 := 1e-4

/-- The scene with a light and no shapes. -/
def lit (light : Light) : Scene := ⟨#[], none, light⟩

def add (s : Scene) (shape : Shape) : Scene :=
  { s with shapes := s.shapes.push shape, hierarchy := none }

def setLight (s : Scene) (light : Light) : Scene := { s with light }

def size (s : Scene) : Nat := s.shapes.size

def isBuilt (s : Scene) : Bool := s.hierarchy.isSome

/-- Builds the hierarchy, or builds it anew. -/
def build (s : Scene) (policy : SplitPolicy) : Except RenderError Scene := do
  let h ← Hierarchy.ofShapes s.shapes policy
  return { s with hierarchy := some h }

/-- The closest hit, by testing every shape. -/
def traceLinear (s : Scene) (ray : Ray) (range : Interval) : Option Hit := scan s.shapes ray range

/-- The closest hit, through the hierarchy if there is one. -/
def trace (s : Scene) (ray : Ray) (range : Interval) : Option Hit :=
  match s.hierarchy with
  | none => s.traceLinear ray range
  | some h => h.trace s.shapes ray range

/-- Whether anything blocks the way from a point to a light in the given direction and distance. The
end of the way counts, so a shape exactly at the light's distance casts a shadow. -/
def inShadow (s : Scene) (point direction : Vec3) (distance : Float32) : Bool :=
  (s.trace ⟨point + epsilon * direction, direction⟩ ⟨epsilon, distance⟩).isSome

end Scene

end RayTracer
