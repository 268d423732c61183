import RayTracer.Number.Binary32

/-!
# Numerals

The written form of a number: sign, digits, and perhaps a fraction and an exponent. Two readings are
used:

* `natural?` takes unsigned integers only. A numeral with a sign, a fraction or an exponent is none,
  so `3.0`, `1e2` and `-0` are not.
* `toFloat32?` takes every numeral. An integer of at most 64 bits is rounded at once. Any other
  numeral is read as a significand of at most 64 bits, the further digits cut off, times a power of
  ten, and this is multiplied out in binary64 before it is rounded.
-/

namespace RayTracer

structure Numeral where
  negative : Bool
  /-- The digits before the point. -/
  whole : List Nat
  /-- The digits behind the point, if there is one. -/
  fraction : Option (List Nat)
  exponent : Option Int
deriving Repr, DecidableEq, Inhabited

namespace Numeral

/-- The digits' value in base ten. -/
def ofDigits (digits : List Nat) : Nat := digits.foldl (10 * · + ·) 0

/-- The value of an unsigned integer numeral below a bound. -/
def natural? (bound : Nat) (n : Numeral) : Option Nat :=
  let value := ofDigits n.whole
  if !n.negative && n.fraction.isNone && n.exponent.isNone && value < bound then some value
  else none

/-- Appends digits to a significand as long as it stays below `2 ^ 64`, and gives the digits left
over. -/
def append (significand : Nat) : List Nat → Nat × List Nat
  | [] => (significand, [])
  | d :: rest =>
    if 10 * significand + d < UInt64.size then append (10 * significand + d) rest
    else (significand, d :: rest)

/-- The significand and the power of ten of a numeral, without its sign. -/
def scientific (n : Numeral) : Nat × Int :=
  let fraction := n.fraction.getD []
  let (significand, dropped) := append 0 n.whole
  let (significand, left) := append significand fraction
  (significand, (n.exponent.getD 0) + dropped.length - (fraction.length - left.length))

/-- The largest power of ten that is multiplied at once. -/
def maxPower : Nat := 308

def powerOfTen (n : Nat) : Float := Float.ofNat (Nat.pow 10 n)

/-- `x` times a power of ten, in binary64. There is no result past the largest number. -/
def scale? (x : Float) (power : Int) : Option Float :=
  if maxPower < power then if x == 0 then some x else none
  else if 0 ≤ power then
    let y := x * powerOfTen power.toNat
    if y.isInf then none else some y
  else if -maxPower ≤ power then some (x / powerOfTen (-power).toNat)
  else if x == 0 then some x
  else scale? (x / powerOfTen maxPower) (power + maxPower)
termination_by (-power).toNat
decreasing_by simp only [maxPower] at *; omega

/-- The numeral in binary64, unless it is past the largest number. -/
def toFloat? (n : Numeral) : Option Float :=
  let (significand, power) := n.scientific
  (scale? (Float.ofNat significand) power).map fun x => if n.negative then -x else x

/-- An integer numeral that 64 bits hold, signed or not. -/
def isWord (n : Numeral) : Bool :=
  let value := ofDigits n.whole
  n.fraction.isNone && n.exponent.isNone && if n.negative then value ≤ Number.twoPow 63
    else value < UInt64.size

/-- The numeral in binary32, which may be infinite, unless it is past the largest binary64
number. -/
def toFloat32? (n : Numeral) : Option Float32 :=
  if n.isWord then some (Number.withSign n.negative (Number.nearest (ofDigits n.whole) 1 0))
  else n.toFloat?.map Number.narrow

end Numeral

end RayTracer
