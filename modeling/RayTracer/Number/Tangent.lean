import RayTracer.Number.Binary32
import RayTracer.Number.Series

/-!
# The tangent, correctly rounded

The angle is an exact rational. It is reduced by the nearest multiple of π/2 at a scale of 320 bits:
a finite binary32 angle is below `2 ^ 128` and keeps at least `2 ^ -40` distance from every multiple
but zero, so more than 130 significant bits remain. No tangent of a nonzero rational is rational, so
the rounded quotient of the two series is the rounded tangent.
-/

namespace RayTracer.Number

/-- The scale at which angles are reduced. -/
def angleBits : Nat := 320

/-- A finite angle at that scale. The last bit of a binary32 number weighs at least `2 ^ -149`, so
this is exact. -/
def angle (x : Float32) : Int :=
  let magnitude : Int := (significand x <<< (exponent x + angleBits).toNat : Nat)
  if isNegative x then -magnitude else magnitude

/-- The tangent of an angle in radians. Below `2 ^ -12` the cubic term is less than half a unit in
the last place, so the angle is its own tangent; this covers the two zeros. -/
def tan (x : Float32) : Float32 :=
  if !x.isFinite then notANumber
  else if exponentField x < 115 then x
  else
    let one := twoPow angleBits
    let quarter := Series.halfPi one
    let a := angle x
    -- the nearest multiple of a quarter turn, and the angle that is left
    let turns := (2 * a + quarter) / (2 * quarter)
    let r := a - turns * quarter
    let s := Series.sin one r
    let c := Series.cos one r
    -- An odd number of quarter turns swaps sine and cosine.
    let (num, den) := if turns % 2 = 0 then (s, c) else (-c, s)
    withSign ((num < 0) != (den < 0)) (nearest num.natAbs den.natAbs 0)

end RayTracer.Number
