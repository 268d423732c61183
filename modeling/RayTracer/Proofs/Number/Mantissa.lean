import RayTracer.Proofs.Number.Rounding

/-! # Rounding of mantissas

Core's model of binary32 rounds a number by shifting its mantissa to the right, with a round bit and
a sticky bit for what falls off. Here that procedure is shown to compute `roundReal`.

* `Keeps` says what an extended mantissa knows about the number that it stands for. A shift keeps it
  (`Keeps.shiftRight`), and rounding needs nothing else (`Keeps.roundedMantissa`).
* `Represents` is the result of rounding before it is packed: a sign, and a mantissa of at most 24
  digits whose last place is no lower than `2 ^ -149`.
* `roundWithAccuracy_represents` is the main result. `round` and `normalize` only choose the
  exponent from which the shift starts.
-/

namespace RayTracer.Number

open Float.Model Float.Model.UnpackedFloat

/-! ## What is kept of a number -/

theorem Keeps.bounds {x : ℝ} {em : ExtendedMantissa} (kept : Keeps x em) :
    em.mantissa ≤ x ∧ x < em.mantissa + 1 := by
  obtain ⟨m, round, sticky⟩ := em
  cases round <;> cases sticky <;> simp only [Keeps] at kept ⊢ <;> constructor <;> linarith

theorem Keeps.shiftRightOne {x : ℝ} {em : ExtendedMantissa} (kept : Keeps x em) :
    Keeps (x / 2) em.shiftRightOne := by
  obtain ⟨m, round, sticky⟩ := em
  have parts : (m : ℝ) = 2 * (m / 2 : ℕ) + (m % 2 : ℕ) := mod_cast (Nat.div_add_mod m 2).symm
  obtain even | odd := Nat.mod_two_eq_zero_or_one m
  · rw [even] at parts
    cases round <;> cases sticky <;> simp only [Keeps, ExtendedMantissa.shiftRightOne,
      even] at kept ⊢
    all_goals simp [parts] at kept ⊢
    all_goals first | linarith | (constructor <;> linarith)
  · rw [odd] at parts
    cases round <;> cases sticky <;> simp only [Keeps, ExtendedMantissa.shiftRightOne,
      odd] at kept ⊢
    all_goals simp [parts] at kept ⊢
    all_goals first | linarith | (constructor <;> linarith)

theorem Keeps.shiftRight {x : ℝ} {em : ExtendedMantissa} (kept : Keeps x em) (n : ℕ) :
    Keeps (x / 2 ^ n) (em >>> n) := by
  induction n with
  | zero =>
    show Keeps (x / 2 ^ 0) em
    simpa using kept
  | succ n ih =>
    rw [pow_succ, ← div_div]
    exact ih.shiftRightOne

theorem Keeps.roundedMantissa {x : ℝ} {em : ExtendedMantissa} (kept : Keeps x em) :
    (em.roundedMantissa : ℤ) = roundEven x := by
  have floor : ⌊x⌋ = em.mantissa := Int.floor_eq_iff.mpr (mod_cast kept.bounds)
  have fraction : Int.fract x = x - em.mantissa := by rw [Int.fract, floor, Int.cast_natCast]
  rw [roundEven, floor, fraction]
  obtain ⟨m, round, sticky⟩ := em
  cases round <;> cases sticky <;> simp only [Keeps] at kept
  all_goals
    simp only [ExtendedMantissa.roundedMantissa, ExtendedMantissa.accuracy,
      Accuracy.roundToNearestEven]
  · rw [if_pos (by linarith)]
  · rw [if_pos (by linarith)]
  · rw [if_neg (by linarith), if_neg (by linarith)]
    push_cast
    rfl
  · rw [if_neg (by linarith), if_pos (by linarith)]
    push_cast
    rfl

/-! ## The place to round at -/

theorem targetExponent_eq (t : ℤ) : Format.binary32.targetExponent t = max (t - 24) (-149) := rfl

theorem two_pow_log2_le {m : ℕ} (pos : 0 < m) : (2 : ℝ) ^ m.log2 ≤ m :=
  mod_cast Nat.log2_self_le pos.ne'

theorem lt_two_pow_log2 (m : ℕ) : (m : ℝ) + 1 ≤ 2 ^ (m.log2 + 1) :=
  mod_cast Nat.lt_log2_self (n := m)

/-- The exponent of a number's first digit, read off the integer part of its mantissa. -/
theorem log_eq_of_mantissa {x : ℝ} {m : ℕ} {e : ℤ} (pos : 0 < m) (lower : m ≤ x / 2 ^ e)
    (upper : x / 2 ^ e < m + 1) : Int.log 2 x = m.log2 + e := by
  have unit : (0 : ℝ) < 2 ^ e := by positivity
  rw [le_div_iff₀ unit] at lower
  rw [div_lt_iff₀ unit] at upper
  have posX : 0 < x := (mul_pos (mod_cast pos) unit).trans_le lower
  have above : (m.log2 + e : ℤ) ≤ Int.log 2 x := by
    rw [le_log_iff posX, zpow_add₀ two_ne_zero, zpow_natCast]
    exact (mul_le_mul_of_nonneg_right (two_pow_log2_le pos) unit.le).trans lower
  have below : Int.log 2 x < ((m.log2 + 1 : ℕ) + e : ℤ) := by
    rw [log_lt_iff posX, zpow_add₀ two_ne_zero, zpow_natCast]
    exact upper.trans_le (mul_le_mul_of_nonneg_right (lt_two_pow_log2 m) unit.le)
  push_cast at below
  omega

theorem targetExponent_of_mantissa {x : ℝ} {m : ℕ} {e : ℤ} (pos : 0 < m) (lower : m ≤ x / 2 ^ e)
    (upper : x / 2 ^ e < m + 1) :
    Format.binary32.targetExponent (totalExponent m e) = lastPlace x := by
  have posX : 0 < x := by
    have unit : (0 : ℝ) < 2 ^ e := by positivity
    rw [le_div_iff₀ unit] at lower
    exact (mul_pos (mod_cast pos) unit).trans_le lower
  rw [targetExponent_eq, totalExponent, lastPlace, abs_of_pos posX,
    log_eq_of_mantissa pos lower upper]
  omega

/-- A shift that starts below the last place ends there, also if the mantissa has no digit left. -/
theorem targetExponent_of_keeps {x : ℝ} {em : ExtendedMantissa} {e : ℤ} (pos : 0 < x)
    (kept : Keeps (x / 2 ^ e) em) (fine : e ≤ lastPlace x) :
    Format.binary32.targetExponent (totalExponent em.mantissa e) = lastPlace x := by
  obtain ⟨lower, upper⟩ := kept.bounds
  -- without a digit in the mantissa the place is the lowest one, since `e` is not above it
  obtain none | some := Nat.eq_zero_or_pos em.mantissa
  · rw [none, Nat.cast_zero, zero_add, div_lt_one (by positivity)] at upper
    have first : Int.log 2 x < e := (log_lt_iff pos e).mpr upper
    rw [lastPlace, abs_of_pos pos] at fine ⊢
    rw [none, targetExponent_eq, totalExponent, Nat.log2_zero]
    omega
  · exact targetExponent_of_mantissa some lower upper

/-! ## The result of rounding -/

/-- A mantissa of at most 24 digits, which are exactly 24 above the lowest last place. -/
structure InPlace (m : ℕ) (e : ℤ) : Prop where
  digits : m < 2 ^ 24
  least : -149 ≤ e
  normal : e = -149 ∨ 2 ^ 23 ≤ m

/-- A rounded number of magnitude `r`, whose exponent may still be too large. -/
inductive Represents (s : Sign) : ℝ → UnpackedFloat → Prop
  | zero : Represents s 0 (.zero s)
  | finite {m : ℕ} {e : ℤ} (pos : 0 < m) (place : InPlace m e) :
      Represents s (m * 2 ^ e) (.finite s m e pos)

theorem shiftToTargetExponent_exact (m : ℕ) (e : ℤ) :
    shiftToTargetExponent .binary32 m e .exact =
      ((⟨m, false, false⟩ : ExtendedMantissa) >>> (max (m.log2 + 1 + e - 24) (-149) - e).toNat,
        e + (max (m.log2 + 1 + e - 24) (-149) - e).toNat) := rfl

theorem log2_of_digits {m : ℕ} (lower : 2 ^ 23 ≤ m) (upper : m < 2 ^ 24) : m.log2 = 23 := by
  have above : 23 ≤ m.log2 := (Nat.le_log2 (by omega)).mpr lower
  have below : m.log2 < 24 := (Nat.log2_lt (by omega)).mpr upper
  omega

theorem log2_of_few_digits {m : ℕ} (upper : m < 2 ^ 23) : m.log2 ≤ 22 := by
  obtain rfl | pos := Nat.eq_zero_or_pos m
  · simp
  · have below : m.log2 < 23 := (Nat.log2_lt pos.ne').mpr upper
    omega

/-- The second shift of rounding does nothing, unless the mantissa was rounded up to 25 digits. -/
theorem represents_of_rounded (s : Sign) {m : ℕ} {e : ℤ} (digits : m ≤ 2 ^ 24) (least : -149 ≤ e)
    (normal : e = -149 ∨ 2 ^ 23 ≤ m) :
    Represents s (m * 2 ^ e)
      (let (em, e') := shiftToTargetExponent .binary32 m e .exact
       if h : em.mantissa = 0 then .zero s else .finite s em.mantissa e'
         (Nat.pos_of_ne_zero h)) := by
  rw [shiftToTargetExponent_exact]
  -- rounding up may give one digit too many, but then it gives a power of two
  obtain fits | carry := digits.lt_or_eq
  · have still : (max (m.log2 + 1 + e - 24) (-149) - e).toNat = 0 := by
      obtain few | full := Nat.lt_or_ge m (2 ^ 23)
      · have := log2_of_few_digits few
        omega
      · have := log2_of_digits full fits
        omega
    rw [still]
    show Represents s _ (if h : m = 0 then _ else .finite s m (e + (0 : ℕ)) _)
    split_ifs with zero
    · subst zero
      rw [Nat.cast_zero, zero_mul]
      exact .zero
    · simp only [Nat.cast_zero, add_zero]
      exact .finite _ ⟨fits, least, normal⟩
  · have once : (max (m.log2 + 1 + e - 24) (-149) - e).toNat = 1 := by
      rw [carry, Nat.log2_two_pow]
      omega
    rw [once, carry]
    show Represents s _ (UnpackedFloat.finite s (2 ^ 23) (e + 1) _)
    have value : ((2 ^ 24 : ℕ) : ℝ) * 2 ^ e = ((2 ^ 23 : ℕ) : ℝ) * 2 ^ (e + 1) := by
      rw [zpow_add_one₀ two_ne_zero]
      push_cast
      ring
    rw [value]
    exact .finite _ ⟨by norm_num, by omega, .inr le_rfl⟩

/-- Rounding from an exponent that is not above the last place. -/
theorem roundWithAccuracy_represents (s : Sign) {x : ℝ} {m : ℕ} {e : ℤ} {accuracy : Accuracy}
    (pos : 0 < x) (kept : Keeps (x / 2 ^ e) (.ofMantissaAndAccuracy m accuracy))
    (fine : e ≤ lastPlace x) :
    Represents s (roundReal x) (roundWithAccuracy .binary32 s m e accuracy) := by
  have mantissa : (ExtendedMantissa.ofMantissaAndAccuracy m accuracy).mantissa = m := by
    rcases accuracy with _ | (_ | _ | _) <;> rfl
  have target := targetExponent_of_keeps pos kept fine
  rw [mantissa] at target
  obtain ⟨n, place⟩ : ∃ n : ℕ, lastPlace x = e + n := ⟨(lastPlace x - e).toNat, by omega⟩
  have shifted : shiftToTargetExponent .binary32 m e accuracy =
      (ExtendedMantissa.ofMantissaAndAccuracy m accuracy >>> n, lastPlace x) := by
    have amount : (lastPlace x - e).toNat = n := by omega
    rw [shiftToTargetExponent, target, shiftToExponent, amount, place]
  have keptThere :
      Keeps (x / 2 ^ lastPlace x) (ExtendedMantissa.ofMantissaAndAccuracy m accuracy >>> n) := by
    rw [place, zpow_add₀ two_ne_zero, zpow_natCast, ← div_div]
    exact kept.shiftRight n
  unfold roundWithAccuracy
  rw [shifted]
  generalize ExtendedMantissa.ofMantissaAndAccuracy m accuracy >>> n = em at keptThere
  have rounds : (em.roundedMantissa : ℤ) = roundEven (x / 2 ^ lastPlace x) :=
    keptThere.roundedMantissa
  have upper : em.roundedMantissa ≤ 2 ^ 24 := by
    have : roundEven (x / 2 ^ lastPlace x) ≤ 2 ^ 24 := by
      refine roundEven_le ?_
      rw [div_le_iff₀ (by positivity)]
      refine (lt_two_zpow_lastPlace pos).le.trans_eq ?_
      rw [zpow_add₀ two_ne_zero, mul_comm]
      norm_num
    omega
  have lower : lastPlace x = -149 ∨ 2 ^ 23 ≤ em.roundedMantissa := by
    obtain lowest | normal := (least_le_lastPlace x).eq_or_lt
    · exact .inl lowest.symm
    · have : 2 ^ 23 ≤ roundEven (x / 2 ^ lastPlace x) := by
        refine le_roundEven ?_
        rw [le_div_iff₀ (by positivity)]
        refine Eq.trans_le ?_ (two_zpow_lastPlace_le pos normal)
        rw [zpow_add₀ two_ne_zero, mul_comm]
        norm_num
      omega
  -- what was rounded has at most 25 digits, and that is what the second shift asks for
  have result := represents_of_rounded s upper (least_le_lastPlace x) lower
  have value : (em.roundedMantissa : ℝ) * 2 ^ lastPlace x = roundReal x := by
    rw [roundReal, ← rounds, Int.cast_natCast]
  rw [value] at result
  exact result

theorem keeps_exact (m : ℕ) : Keeps m (.ofMantissaAndAccuracy m .exact) := rfl

/-- Rounding an exact number, from whatever exponent. -/
theorem round_represents (s : Sign) {m : ℕ} (pos : 0 < m) (e : ℤ) :
    Represents s (roundReal (m * 2 ^ e)) (UnpackedFloat.round .binary32 s m e) := by
  have posX : (0 : ℝ) < m * 2 ^ e := mul_pos (mod_cast pos) (by positivity)
  have quotient : (m : ℝ) * 2 ^ e / 2 ^ e = m := mul_div_cancel_right₀ _ (by positivity)
  have target : Format.binary32.targetExponent (totalExponent m e) = lastPlace (m * 2 ^ e) :=
    targetExponent_of_mantissa pos quotient.ge (by rw [quotient]; linarith)
  unfold UnpackedFloat.round decreaseExponent
  rw [target]
  -- an exponent above the last place is lowered to it first, which changes no value
  refine roundWithAccuracy_represents s posX ?_ (by omega)
  generalize (e - lastPlace (m * 2 ^ e)).toNat = n
  have shifted : (m : ℝ) * 2 ^ e / 2 ^ (e - n : ℤ) = (m <<< n : ℕ) := by
    rw [Nat.shiftLeft_eq, zpow_sub₀ two_ne_zero, zpow_natCast]
    push_cast
    field_simp
  rw [shifted]
  exact keeps_exact _

end RayTracer.Number
