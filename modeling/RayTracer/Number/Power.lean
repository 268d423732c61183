import RayTracer.Number.Binary32
import RayTracer.Number.Series

/-!
# Powers, correctly rounded

`pow x y` is the binary32 number nearest to `x ^ y`.

* A power that is a dyadic rational may be a tie, so it is rounded from its exact value:
  `Dyadic.root` takes square roots as long as the exponent is fractional and they come out even.
* Any other power is no tie, so `Dyadic.series` may round it from the series for `exp (y * ln x)`.
* Zeros, infinities, NaN and negative bases are the cases of `pow` itself.
-/

namespace RayTracer.Number

/-- The largest `r + s` with `(r + s) ^ 2 ≤ n` among the sums `s` of distinct powers `2 ^ i`,
`i < bits`. -/
def sqrtBits (n : Nat) : (bits r : Nat) → Nat
  | 0, r => r
  | bits + 1, r =>
    let r' := r + twoPow bits
    sqrtBits n bits (if r' * r' ≤ n then r' else r)

/-- A positive dyadic rational `odd * 2 ^ exp`. -/
structure Dyadic where
  odd : Nat
  exp : Int

namespace Dyadic

/-- Moves factors of two from the significand to the exponent, at most `fuel` of them. -/
def strip : (fuel : Nat) → Dyadic → Dyadic
  | 0, d => d
  | fuel + 1, d => if d.odd % 2 = 0 then strip fuel ⟨d.odd / 2, d.exp + 1⟩ else d

/-- The magnitude of a finite number other than zero, with an odd significand. -/
def ofFloat32 (x : Float32) : Dyadic := strip 23 ⟨significand x, exponent x⟩

/-- The square root, where that is a dyadic rational. -/
def sqrt? (d : Dyadic) : Option Dyadic :=
  let r := sqrtBits d.odd 12 0
  if d.exp % 2 = 0 ∧ r * r = d.odd then some ⟨r, d.exp / 2⟩ else none

/-- The base and exponent of `x ^ y` after as many square roots as there are halvings in `y`, or as
far as square roots are dyadic rationals. -/
def root : (halvings : Nat) → (x y : Dyadic) → Dyadic × Dyadic
  | 0, x, y => (x, y)
  | halvings + 1, x, y =>
    match x.sqrt? with
    | some r => root halvings r ⟨y.odd, y.exp + 1⟩
    | none => (x, y)

/-- The fixed-point scale of the power series. The logarithm of a binary32 number other than 1 is at
least `2 ^ -25`, so an exponent that keeps the power in range is below `2 ^ 32` and leaves more than
140 significant bits. -/
def scale : Nat := twoPow 192

/-- The natural logarithm, from `ln x = k ln 2 + 2 artanh ((m - 2 ^ t) / (m + 2 ^ t))`, where
`2 ^ t` is the power of two for which the quotient is at most 1/5. -/
def ln (x : Dyadic) : Int :=
  let k := x.odd.log2
  let t := if 3 * twoPow k < 2 * x.odd then k + 1 else k
  let z := (((x.odd : Int) - twoPow t) * scale).tdiv (x.odd + twoPow t)
  (x.exp + t) * Series.ln2 scale + 2 * Series.artanh scale z

/-- `x ^ y`, or `x ^ (-y)` if the flag is set, for a power that is no tie. -/
def series (x : Dyadic) (negative : Bool) (y : Dyadic) : Float32 :=
  let product := x.ln * y.odd
  let scaled :=
    if 0 ≤ y.exp then product * twoPow y.exp.toNat else product.tdiv (twoPow (-y.exp).toNat)
  let l := if negative then -scaled else scaled
  -- `2 ^ k` times the exponential of what is left, which lies between 0 and `ln 2`
  let k := l / Series.ln2 scale
  nearest (Series.exp scale (l - k * Series.ln2 scale)).toNat scale k

/-- The integer exponents up to here are raised exactly. Past it a power of an odd number above 1
has more bits than a tie. -/
def exactLimit : Nat := 256

/-- The binary32 number nearest to `x ^ y`, or to `x ^ (-y)` if the flag is set. -/
def pow (x : Dyadic) (negative : Bool) (y : Dyadic) : Float32 :=
  let (x, y) := root (-y.exp).toNat x y
  let sign : Int := if negative then -1 else 1
  if y.exp < 0 then series x negative y
  else
    let n := y.odd * twoPow y.exp.toNat
    if x.odd = 1 then nearest 1 1 (sign * x.exp * n)
    else if n ≤ exactLimit then
      if negative then nearest 1 (x.odd.pow n) (-(x.exp * n))
      else nearest (x.odd.pow n) 1 (x.exp * n)
    else series x negative y

end Dyadic

/-- A finite number other than zero is an odd integer if the last set bit of its significand weighs
1. -/
def isOddInteger (y : Float32) : Bool := y.isFinite && y != 0 && (Dyadic.ofFloat32 y).exp == 0

/-- A finite number without a fractional part. -/
def isInteger (y : Float32) : Bool := y.isFinite && (y == 0 || 0 ≤ (Dyadic.ofFloat32 y).exp)

/-- The power of a base of magnitude `m` (zero, finite or infinite, not NaN) and an exponent other
than zero and NaN. -/
def powMagnitude (m y : Float32) : Float32 :=
  let negative := isNegative y
  if m == 1 then 1
  else if m == 0 || (!y.isFinite && m < 1) then if negative then infinity else 0
  else if !m.isFinite || !y.isFinite then if negative then 0 else infinity
  else (Dyadic.ofFloat32 m).pow negative (Dyadic.ofFloat32 y)

/-- `x` to the power `y`, correctly rounded. A zero exponent and a base of 1 give 1 whatever the
other argument is; a negative base has a power at integer exponents alone, negative at odd ones. -/
def pow (x y : Float32) : Float32 :=
  if y == 0 || x == 1 then 1
  else if x.isNaN || y.isNaN then notANumber
  else if isNegative x && x.isFinite && x != 0 && y.isFinite && !isInteger y then notANumber
  else withSign (isNegative x && isOddInteger y) (powMagnitude x.abs y)

end RayTracer.Number
