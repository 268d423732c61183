import Mathlib
import RayTracer.Number.Power

/-! # What binary32 numbers mean

A binary32 number is a real number, an infinity or NaN, and its arithmetic is that of the real
numbers, rounded. The definitions are here, what holds of them is in the modules beside this one.

* `rounded` is the value of the binary32 number nearest to a real number: `roundEven` rounds to an
  integer, `lastPlace` says at which place, `overflow` sends what is too large to an infinity.
* `Keeps` is what the mantissa of a number knows about it while it is being rounded.
* `value` and `sign` read a binary32 number. The sign tells the two zeros apart; NaN has neither.
-/

namespace RayTracer.Number

open Float.Model (UnpackedFloat)
open Float.Model.UnpackedFloat (ExtendedMantissa Sign)

/-! ## Rounding -/

/-- The nearest integer, and of two equally near ones the even one. -/
noncomputable def roundEven (x : ℝ) : ℤ :=
  if Int.fract x < 1 / 2 then ⌊x⌋
  else if 1 / 2 < Int.fract x then ⌊x⌋ + 1
  else ⌊x⌋ + ⌊x⌋ % 2

/-- The exponent of the last place of a binary32 number as large as `x`. -/
noncomputable def lastPlace (x : ℝ) : ℤ := max (Int.log 2 |x| - 23) (-149)

/-- The nearest number with 24 digits above `2 ^ -149`, however large. -/
noncomputable def roundReal (x : ℝ) : ℝ := roundEven (x / 2 ^ lastPlace x) * 2 ^ lastPlace x

/-- What the binary32 numbers hold of a number with a binary32 significand: past the largest number
comes infinity. -/
noncomputable def overflow (x : ℝ) : EReal :=
  if 2 ^ 128 ≤ x then ⊤ else if x ≤ -2 ^ 128 then ⊥ else x

/-- The value of the binary32 number nearest to a real number or an infinity. -/
noncomputable def rounded : EReal → EReal
  | ⊤ => ⊤
  | ⊥ => ⊥
  | (x : ℝ) => overflow (roundReal x)

/-! ## Mantissas -/

/-- The mantissa is the integer part of `x`; the round bit and the sticky bit place the fraction. -/
def Keeps (x : ℝ) : ExtendedMantissa → Prop
  | ⟨m, false, false⟩ => x = m
  | ⟨m, false, true⟩ => m < x ∧ x < m + 1 / 2
  | ⟨m, true, false⟩ => x = m + 1 / 2
  | ⟨m, true, true⟩ => m + 1 / 2 < x ∧ x < m + 1

/-! ## Values -/

/-- A binary32 number, taken apart. -/
def parts (x : Float32) : UnpackedFloat := x.toModel.unpack

/-- A magnitude with its sign. -/
def signed : Sign → ℝ → ℝ
  | .positive, r => r
  | .negative, r => -r

/-- The number that the parts stand for. -/
noncomputable def partsValue : UnpackedFloat → EReal
  | .infinity .positive => ⊤
  | .infinity .negative => ⊥
  | .notANumber => 0
  | .zero _ => 0
  | .finite s m e _ => (signed s (m * 2 ^ e) : ℝ)

def partsSign : UnpackedFloat → Sign
  | .infinity s => s
  | .notANumber => .positive
  | .zero s => s
  | .finite s _ _ _ => s

/-- The number that a dyadic rational stands for. -/
noncomputable def Dyadic.toReal (d : Dyadic) : ℝ := d.odd * 2 ^ d.exp

/-- The real number or infinity that a binary32 number stands for; both zeros stand for zero. -/
noncomputable def value (x : Float32) : EReal := partsValue (parts x)

/-- The sign bit. -/
def sign (x : Float32) : Sign := partsSign (parts x)

/-- Not NaN. -/
def IsNumber (x : Float32) : Prop := x.isNaN = false

instance (x : Float32) : Decidable (IsNumber x) := inferInstanceAs (Decidable (_ = _))

end RayTracer.Number
