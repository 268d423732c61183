import RayTracer.Surface.Material

/-!
# Render settings

The size of the image, the number of mirrors in a row, the number of workers and the background.
-/

namespace RayTracer

structure Settings where
  width : UInt32 := 640
  height : UInt32 := 360
  maxDepth : UInt32 := 3
  /-- `none` leaves the number of workers to the machine. -/
  threads : Option UInt64 := none
  background : Color := .zero
deriving DecidableEq

namespace Settings

instance : Inhabited Settings := ⟨{}⟩

/-- Width over height. -/
def aspectRatio (s : Settings) : Float32 := s.width.toFloat32 / s.height.toFloat32

end Settings

end RayTracer
