/-!
# Binary32 numbers as dyadic rationals

Arithmetic runs on `Float32`. Where a value comes from somewhere else (a decimal, a series, a
power), it is first an exact rational and is then rounded once:

* `significand` and `exponent` take a finite number apart: its magnitude is
  `significand x * 2 ^ exponent x`.
* `nearest num den e` is the binary32 number nearest to `num / den * 2 ^ e`, ties to even.
* `narrow` rounds a binary64 number.
-/

namespace RayTracer.Number

/-- Two to the power `n`. -/
def twoPow (n : Nat) : Nat := Nat.pow 2 n

def infinity : Float32 := Float32.ofBits 0x7f800000

def notANumber : Float32 := Float32.ofBits 0x7fc00000

/-- The sign bit; it tells the two zeros apart. -/
def isNegative (x : Float32) : Bool := 0x80000000 ≤ x.toBits

/-- `-x` if the flag is set, and `x` if not. -/
def withSign (negative : Bool) (x : Float32) : Float32 := if negative then -x else x

/-! ## Taking a number apart -/

/-- The biased exponent: 0 for zeros and subnormal numbers, 255 for infinities and NaN. -/
def exponentField (x : Float32) : Nat := x.toBits.toNat / twoPow 23 % twoPow 8

def fractionField (x : Float32) : Nat := x.toBits.toNat % twoPow 23

/-- The integer significand, with the leading one that normal numbers leave unwritten. -/
def significand (x : Float32) : Nat :=
  if exponentField x = 0 then fractionField x else twoPow 23 + fractionField x

/-- The weight of the significand's last bit. Subnormal numbers share it with the smallest normal
ones. -/
def exponent (x : Float32) : Int := (max (exponentField x) 1 : Nat) - 150

/-! ## Rounding -/

/-- The integer nearest to `num / den`; of two equally near ones the even one. -/
def roundQuotient (num den : Nat) : Nat :=
  let q := num / den
  match compare (2 * (num % den)) den with
  | .lt => q
  | .gt => q + 1
  | .eq => q + q % 2

/-- The largest `k` with `2 ^ k ≤ num / den`, for positive `num` and `den`. -/
def log2Quotient (num den : Nat) : Int :=
  let k : Int := (num.log2 : Int) - den.log2
  if den <<< k.toNat ≤ num <<< (-k).toNat then k else k - 1

/-- The binary32 number nearest to `num / den * 2 ^ e`, ties to even, for positive `den`.

The last bit weighs `2 ^ unit`. The encoding of a positive number counts the numbers below it, so a
significand that rounds up to the next power of two carries into the exponent field, and past the
largest number into the encoding of infinity. -/
def nearest (num den : Nat) (e : Int) : Float32 :=
  let top := log2Quotient num den + e
  if num = 0 then 0
  else if top ≥ 128 then infinity
  else if top < -150 then 0
  else
    let unit := max (top - 23) (-149)
    let scale := e - unit
    let m := roundQuotient (num <<< scale.toNat) (den <<< (-scale).toNat)
    Float32.ofBits (UInt32.ofNat ((unit + 149).toNat * twoPow 23 + m))

/-- The binary32 number nearest to a binary64 number. -/
def narrow (x : Float) : Float32 :=
  let bits : Nat := x.toBits.toNat
  let field : Nat := bits / twoPow 52 % twoPow 11
  let fraction : Nat := bits % twoPow 52
  let magnitude :=
    if field = 0 then nearest fraction 1 (-1074)
    else if field < 2047 then nearest (twoPow 52 + fraction) 1 ((field : Int) - 1075)
    else if fraction = 0 then infinity
    else notANumber
  withSign (twoPow 63 ≤ bits) magnitude

end RayTracer.Number
