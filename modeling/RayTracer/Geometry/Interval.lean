import RayTracer.Number.Binary32
import RayTracer.Number.Extrema

/-!
# Closed intervals

A range of binary32 numbers with both ends included: the range in which a ray is searched, the
extent of a box along an axis, the range of a colour channel. The ends may be in any order; an
interval whose upper end is below its lower one holds nothing. A NaN end holds nothing either, but
does not make the interval empty in the sense of `isEmpty`, since it is not below anything.
-/

namespace RayTracer

open Number (minNum maxNum clamp infinity)

/-- The numbers from `lo` to `hi`. -/
@[ext] structure Interval where
  lo : Float32
  hi : Float32
deriving DecidableEq, Inhabited

namespace Interval

/-- Holds nothing, and is neutral for `hull`. -/
def empty : Interval := ⟨infinity, -infinity⟩

/-- Holds every number. -/
def all : Interval := ⟨-infinity, infinity⟩

/-- The range of a colour channel. -/
def unit : Interval := ⟨0, 1⟩

def size (i : Interval) : Float32 := i.hi - i.lo

/-- The upper end is below the lower one. -/
def isEmpty (i : Interval) : Bool := i.hi < i.lo

def contains (i : Interval) (x : Float32) : Bool := i.lo ≤ x && x ≤ i.hi

theorem contains_iff (i : Interval) (x : Float32) : i.contains x = true ↔ i.lo ≤ x ∧ x ≤ i.hi := by
  simp [contains]

/-- `x` lies strictly between the ends. -/
def surrounds (i : Interval) (x : Float32) : Bool := i.lo < x && x < i.hi

/-- `x` moved into the interval; defined only where the ends are in order. A NaN `x` stays NaN. -/
def clamp? (i : Interval) (x : Float32) : Option Float32 :=
  if i.lo ≤ i.hi then some (clamp i.lo i.hi x) else none

/-- Moves each end outwards by half of `delta`. -/
def expand (i : Interval) (delta : Float32) : Interval :=
  let padding := delta / 2
  ⟨i.lo - padding, i.hi + padding⟩

/-- The same lower end with another upper end, as a search is cut back to the closest hit so far. -/
def withHi (i : Interval) (hi : Float32) : Interval := ⟨i.lo, hi⟩

/-- The smallest interval that holds both. -/
def hull (a b : Interval) : Interval := ⟨minNum a.lo b.lo, maxNum a.hi b.hi⟩

/-- The thickness below which an extent counts as flat. -/
def minThickness : Float32 := 0.0001

/-- A flat interval grows by the least thickness; any other stays. -/
def padded (i : Interval) : Interval := if i.size < minThickness then i.expand minThickness else i

end Interval

end RayTracer
