import RayTracer.Geometry.Box

/-!
# Boxes as an overlap of times

The slab test of `Box.isHit` multiplies by reciprocals and lets infinities stand for parallel rays.
Here is the same question asked the plain way: between which parameters is the ray inside each slab,
found by division, and do these ranges and the search range have a parameter in common? A ray
parallel to a slab must run inside it.
-/

namespace RayTracer

open Number (minNum maxNum)

namespace Box

/-- The parameters at which the ray enters and leaves the slab of an axis to which it is not
parallel. -/
def crossing (b : Box) (ray : Ray) (axis : Axis) : Interval :=
  let slab := b.along axis
  let t₀ := (slab.lo - ray.origin.along axis) / ray.direction.along axis
  let t₁ := (slab.hi - ray.origin.along axis) / ray.direction.along axis
  ⟨minNum t₀ t₁, maxNum t₀ t₁⟩

/-- The range that an axis leaves of a range; `none` if the ray runs parallel outside the slab. -/
def cross? (b : Box) (ray : Ray) (range : Interval) (axis : Axis) : Option Interval :=
  if ray.direction.along axis == 0 then
    if (b.along axis).contains (ray.origin.along axis) then some range else none
  else
    let times := b.crossing ray axis
    some ⟨maxNum range.lo times.lo, minNum range.hi times.hi⟩

/-- Whether some parameter of the range lies between all the crossings. -/
def overlaps (b : Box) (ray : Ray) (range : Interval) : Bool :=
  match [Axis.x, Axis.y, Axis.z].foldlM (b.cross? ray) range with
  | none => false
  | some common => common.lo ≤ common.hi

end Box

end RayTracer
