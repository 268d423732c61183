/-!
# Fixed-point power series

A fixed-point number with scale `one` is an integer `v` that stands for `v / one`. The series below
stop at the first term that is zero at their scale, and at a term count that no argument in use
reaches. Every step drops less than one unit, so the error stays within a few hundred units in the
last place.
-/

namespace RayTracer.Number.Series

/-- The product at scale `one`, cut towards zero. -/
def mul (one : Nat) (a b : Int) : Int := (a * b).tdiv one

/-- `term + term * s / divisor k + …`: each term is the one before times `s`, divided by
`divisor k`. -/
def sumFactorial (one : Nat) (s : Int) (divisor : Nat → Nat) : (terms k : Nat) → (term : Int) → Int
  | 0, _, _ => 0
  | terms + 1, k, term =>
    if term = 0 then 0
    else term + sumFactorial one s divisor terms (k + 1) ((mul one term s).tdiv (divisor k))

/-- `power / (2k + 1) + power * s / (2k + 3) + …`. -/
def sumOdd (one : Nat) (s : Int) : (terms k : Nat) → (power : Int) → Int
  | 0, _, _ => 0
  | terms + 1, k, power =>
    if power = 0 then 0
    else power.tdiv (2 * k + 1) + sumOdd one s terms (k + 1) (mul one power s)

/-- The most terms that any series takes. Each argument in use halves at least once a term, so this
suffices for scales up to `2 ^ 512`. -/
def maxTerms : Nat := 512

/-- The exponential of `r`, for `0 ≤ r < 1`. -/
def exp (one : Nat) (r : Int) : Int := sumFactorial one r (· + 1) maxTerms 0 one

/-- The sine of `r`, for `|r| < 1`. -/
def sin (one : Nat) (r : Int) : Int :=
  sumFactorial one (-mul one r r) (fun k => (2 * k + 2) * (2 * k + 3)) maxTerms 0 r

/-- The cosine of `r`, for `|r| < 1`. -/
def cos (one : Nat) (r : Int) : Int :=
  sumFactorial one (-mul one r r) (fun k => (2 * k + 1) * (2 * k + 2)) maxTerms 0 one

/-- The inverse hyperbolic tangent of `z`, for `|z| < 1/2`. -/
def artanh (one : Nat) (z : Int) : Int := sumOdd one (mul one z z) maxTerms 0 z

/-- The angle whose tangent is `1 / n`, for `n` at least 2. -/
def arctanInverse (one n : Nat) : Int :=
  let z : Int := (one / n : Nat)
  sumOdd one (-mul one z z) maxTerms 0 z

/-- The natural logarithm of 2, as twice the inverse hyperbolic tangent of 1/3. -/
def ln2 (one : Nat) : Int := 2 * artanh one (one / 3 : Nat)

/-- Half of π: `π / 4 = 4 arctan (1/5) - arctan (1/239)`. -/
def halfPi (one : Nat) : Int := 8 * arctanInverse one 5 - 2 * arctanInverse one 239

end RayTracer.Number.Series
