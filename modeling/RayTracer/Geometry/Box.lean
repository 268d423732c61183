import RayTracer.Geometry.Interval
import RayTracer.Geometry.Ray

/-!
# Axis-aligned boxes

One interval per axis. Boxes bound the shapes and the branches of a hierarchy.

* `ofExtents` and `ofCorners` pad flat extents, so that a box has a volume; `hull` does not pad.
* `isHit` is the slab test. The reciprocal of a zero direction component is an infinity of its sign,
  so a ray parallel to a slab needs no case of its own. Both ends count, so a ray that touches a box
  hits it.
-/

namespace RayTracer

open Number (minNum maxNum)

@[ext] structure Box where
  x : Interval
  y : Interval
  z : Interval
deriving DecidableEq

namespace Box

/-- Holds nothing, and is neutral for `hull`. -/
def empty : Box := ⟨.empty, .empty, .empty⟩

instance : Inhabited Box := ⟨empty⟩

/-- The box with the given extents, where flat ones are padded. -/
def ofExtents (x y z : Interval) : Box := ⟨x.padded, y.padded, z.padded⟩

/-- The padded box that two opposite corners span, in either order. -/
def ofCorners (a b : Vec3) : Box :=
  ofExtents
    ⟨minNum a.x b.x, maxNum a.x b.x⟩
    ⟨minNum a.y b.y, maxNum a.y b.y⟩
    ⟨minNum a.z b.z, maxNum a.z b.z⟩

/-- The smallest box that holds both. -/
def hull (a b : Box) : Box := ⟨a.x.hull b.x, a.y.hull b.y, a.z.hull b.z⟩

/-- The extent along an axis. -/
def along (b : Box) : Axis → Interval
  | .x => b.x
  | .y => b.y
  | .z => b.z

def minCorner (b : Box) : Vec3 := ⟨b.x.lo, b.y.lo, b.z.lo⟩

def maxCorner (b : Box) : Vec3 := ⟨b.x.hi, b.y.hi, b.z.hi⟩

def centroid (b : Box) : Vec3 :=
  ⟨(b.x.lo + b.x.hi) * 0.5, (b.y.lo + b.y.hi) * 0.5, (b.z.lo + b.z.hi) * 0.5⟩

/-- The axis of the longest extent. Of equal extents the later axis wins. -/
def longestAxis (b : Box) : Axis :=
  if b.x.size > b.y.size && b.x.size > b.z.size then .x
  else if b.y.size > b.z.size then .y
  else .z

/-- The part of a search range in which the ray is between the two planes of an axis. A product that
is NaN bounds nothing. -/
def clip (b : Box) (ray : Ray) (axis : Axis) (range : Interval) : Interval :=
  let slab := b.along axis
  let inverse := 1 / ray.direction.along axis
  let origin := ray.origin.along axis
  let t₀ := (slab.lo - origin) * inverse
  let t₁ := (slab.hi - origin) * inverse
  -- A negative reciprocal means that the ray meets the upper plane first.
  let near := if inverse < 0 then t₁ else t₀
  let far := if inverse < 0 then t₀ else t₁
  ⟨maxNum near range.lo, minNum far range.hi⟩

/-- Whether the ray meets the box within the range: no axis, taken in turn, clips the range to
nothing. -/
def isHit (b : Box) (ray : Ray) (range : Interval) : Bool :=
  let rx := b.clip ray .x range
  !rx.isEmpty &&
    let ry := b.clip ray .y rx
    !ry.isEmpty &&
      let rz := b.clip ray .z ry
      !rz.isEmpty

end Box

end RayTracer
