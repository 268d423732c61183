/-!
# What can go wrong

Building a hierarchy fails on an empty scene, and writing an image fails when the sink takes no
more.
-/

namespace RayTracer

/-- Why a sink refused bytes. -/
inductive WriteError where
  /-- The sink accepted no byte of a chunk that still had some. -/
  | full
  /-- There is no room on the device. -/
  | noSpace
deriving Repr, DecidableEq

def WriteError.message : WriteError → String
  | .full => "failed to write whole buffer"
  | .noSpace => "No space left on device (os error 28)"

/-- Why a scene could not be built or an image not be written. -/
inductive RenderError where
  | emptyScene
  | io (cause : WriteError)
deriving Repr, DecidableEq

def RenderError.message : RenderError → String
  | .emptyScene => "cannot build a BVH over an empty scene"
  | .io cause => "IO error: " ++ cause.message

end RayTracer
