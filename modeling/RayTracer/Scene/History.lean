import RayTracer.Scene

/-!
# Histories of a scene

The edits that a scene can go through, and the scene that a list of them leads to. An edit that
fails leaves the scene as it was.
-/

namespace RayTracer.Scene

inductive Edit where
  | add (shape : Shape)
  | light (light : Light)
  | build (policy : SplitPolicy)

/-- The scene after an edit, or why the edit failed. -/
def edit? (s : Scene) : Edit → Except RenderError Scene
  | .add shape => .ok (s.add shape)
  | .light light => .ok (s.setLight light)
  | .build policy => s.build policy

/-- The scene after an edit, whether it failed or not. -/
def edit (s : Scene) (e : Edit) : Scene := (s.edit? e).toOption.getD s

/-- The scene after a list of edits. -/
def editAll (s : Scene) (edits : List Edit) : Scene := edits.foldl edit s

/-- The shapes that the edits add. -/
def added (edits : List Edit) : List Shape :=
  edits.filterMap fun
    | .add shape => some shape
    | _ => none

/-- The lights that the edits set. -/
def lights (edits : List Edit) : List Light :=
  edits.filterMap fun
    | .light light => some light
    | _ => none

/-- The policies under which the edits build, whether that succeeds or not. -/
def policies (edits : List Edit) : List SplitPolicy :=
  edits.filterMap fun
    | .build policy => some policy
    | _ => none

end RayTracer.Scene
