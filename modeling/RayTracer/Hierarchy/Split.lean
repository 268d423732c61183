import RayTracer.Hierarchy.Item
import RayTracer.Random.AxisStream

/-!
# Split policies

At every branch the items are split along one axis. The choice changes how fast a search is and not
which hit is the closest.
-/

namespace RayTracer

open RayTracer.Random (AxisStream)

inductive SplitPolicy where
  /-- The axis along which the centres of the items are spread widest. -/
  | longest
  /-- Always the axis of this number. -/
  | fixed (axis : Nat)
  /-- A uniformly random axis, which the seed determines. -/
  | random (seed : UInt64)
deriving Repr, DecidableEq

/-- A policy being followed: the axes that are still to come. -/
inductive AxisSource where
  | longest
  | fixed (axis : Axis)
  | random (stream : AxisStream)

namespace AxisSource

def ofPolicy : SplitPolicy → AxisSource
  | .longest => longest
  | .fixed axis => fixed (Axis.ofIndex axis)
  | .random seed => random (AxisStream.ofSeed seed)

/-- The axis for a branch over the items. A random source draws once. -/
def next (items : List Item) : AxisSource → Axis × AxisSource
  | longest => ((Item.centroidBounds items).longestAxis, longest)
  | fixed axis => (axis, fixed axis)
  | random stream => (stream.next.1, random stream.next.2)

end AxisSource

end RayTracer
