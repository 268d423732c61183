import RayTracer.Render.Frame

/-!
# The demo scene

Three spheres (red, green and a mirror) on a grey floor, lit from the upper right.
-/

namespace RayTracer.Demo

def light : Light := .white ⟨5, 5, 5⟩ 1.2

def shapes : List Shape := [
  .sphere (.around ⟨-1, 0.5, 0⟩ 0.5 (.ofParts ⟨0.9, 0.2, 0.2⟩ (.splat 0.5) 16 0.2)),
  .sphere (.around ⟨1, 0.5, -0.5⟩ 0.5 (.ofParts ⟨0.2, 0.9, 0.2⟩ (.splat 0.4) 16 0)),
  .sphere (.around ⟨0, 1, -1.5⟩ 0.7 (.ofParts (.splat 0.8) .one 64 0.6)),
  .plane (.through .zero .unitY (.ofParts (.splat 0.75) (.splat 0.2) 8 0))]

def scene : Scene := shapes.foldl Scene.add (.lit light)

/-- The camera for pictures with a ratio of width to height. -/
def camera (aspect : Float32) : Camera := .lookAt ⟨0, 1, 5⟩ ⟨0, 0.5, 0⟩ .unitY 60 aspect

end RayTracer.Demo
