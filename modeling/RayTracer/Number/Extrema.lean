/-!
# Extrema that pass over NaN

The usual order on `Float32` leaves NaN incomparable. `minNum` and `maxNum` take it for a missing
value: if exactly one argument is NaN the other is the result, so NaN comes out only where both are
NaN. `clamp` does not pass over NaN.
-/

namespace RayTracer.Number

/-- The smaller of two numbers, where a NaN counts as missing. -/
def minNum (a b : Float32) : Float32 :=
  if a.isNaN then b else if b.isNaN then a else if a < b then a else b

/-- The larger of two numbers, where a NaN counts as missing. -/
def maxNum (a b : Float32) : Float32 :=
  if a.isNaN then b else if b.isNaN then a else if b < a then a else b

/-- `x` moved to the nearer end where it lies outside `[lo, hi]`. NaN lies on neither side and
stays. -/
def clamp (lo hi x : Float32) : Float32 :=
  if x < lo then lo else if hi < x then hi else x

/-- `x` clamped to `[0, 1]`. -/
def clampUnit (x : Float32) : Float32 := clamp 0 1 x

end RayTracer.Number
