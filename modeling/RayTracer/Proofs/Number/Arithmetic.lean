import RayTracer.Proofs.Number.Order

/-! # Arithmetic of binary32 numbers

Each operation computes the exact result and rounds it once:
`value (x + y) = rounded (value x + value y)` and so on, infinities included, wherever the result is
a number. The lemmas `isNumber_add_iff` and its companions say where it is one.

Only a division by zero asks for more than values, since there the sign of the zero counts.
-/

namespace RayTracer.Number

open Float.Model (Format UnpackedFloat)
open Float.Model.UnpackedFloat

/-! ## Signs -/

theorem signed_mul (s t : Sign) (p q : ℝ) : signed (s * t) (p * q) = signed s p * signed t q := by
  cases s <;> cases t
  · exact (neg_mul_neg p q).symm
  · exact (neg_mul p q).symm
  · exact (mul_neg p q).symm
  · rfl

theorem signed_div (s t : Sign) (p q : ℝ) : signed (s / t) (p / q) = signed s p / signed t q := by
  cases s <;> cases t
  · exact (neg_div_neg_eq p q).symm
  · exact neg_div' q p
  · exact (div_neg p).symm
  · rfl

theorem signed_apply (s : Sign) (n : ℕ) (r : ℝ) : ((s.apply n : ℤ) : ℝ) * r = signed s (n * r) := by
  cases s
  · show ((-(n : ℤ) : ℤ) : ℝ) * r = -(n * r)
    push_cast
    ring
  · exact congrArg (· * r) (Int.cast_natCast n)

theorem overflow_signed (s : Sign) (r : ℝ) :
    overflow (signed s (roundReal r)) = rounded (signed s r : ℝ) := by
  cases s
  · show overflow (-roundReal r) = overflow (roundReal (-r))
    rw [roundReal_neg]
  · rfl

/-! ## Rounded results -/

/-- A stored number is not rounded. -/
theorem rounded_partsValue {u : UnpackedFloat} (h : Stored u) :
    rounded (partsValue u) = partsValue u := by
  cases h with
  | notANumber => exact rounded_zero
  | infinity s => cases s <;> rfl
  | zero s => exact rounded_zero
  | @finite s m e pos place fits =>
    have magnitude := magnitude_pos pos e
    have digits : (m : ℝ) * 2 ^ e < 2 ^ (e + 24) := by
      have few : (m : ℝ) < 2 ^ 24 := mod_cast place.digits
      rw [zpow_add₀ two_ne_zero, mul_comm]
      exact mul_lt_mul_of_pos_left (mod_cast few) (by positivity)
    have normal : e = -149 ∨ (2 : ℝ) ^ (e + 23) ≤ m * 2 ^ e := by
      refine place.normal.imp_right fun full => ?_
      have many : (2 : ℝ) ^ 23 ≤ m := mod_cast full
      rw [zpow_add₀ two_ne_zero, mul_comm]
      exact mul_le_mul_of_nonneg_right (mod_cast many) (by positivity)
    -- 24 digits, or the least exponent: there is no digit past the last place
    have last : lastPlace (m * 2 ^ e) = e := lastPlace_eq magnitude digits place.least normal
    have still : roundReal (m * 2 ^ e) = m * 2 ^ e :=
      roundReal_of_multiple (n := m) (by rw [last, Int.cast_natCast])
    show rounded (signed s (m * 2 ^ e) : ℝ) = (signed s (m * 2 ^ e) : ℝ)
    rw [← overflow_signed, still, overflow_of_abs_lt]
    rw [abs_signed, abs_of_pos magnitude]
    exact place.lt_of_fits fits

/-- A sum of two mantissas over one exponent, rounded and stored. -/
theorem stored_normalize (n : ℤ) (e : ℤ) (s : Sign) :
    stored (UnpackedFloat.normalize .binary32 n e s) ≠ .notANumber ∧
      partsValue (stored (UnpackedFloat.normalize .binary32 n e s)) =
        rounded ((n * 2 ^ e : ℝ) : EReal) := by
  unfold UnpackedFloat.normalize
  -- the sign is taken off, and what is rounded is a natural number
  obtain neg | rfl | pos := lt_trichotomy n 0
  · rw [compare_lt_iff_lt.mpr neg]
    have represents := round_represents .negative (show 0 < (-n).toNat by omega) e
    have magnitude : signed .negative (((-n).toNat : ℝ) * 2 ^ e) = n * 2 ^ e := by
      have cast : (((-n).toNat : ℤ) : ℝ) = -n := by
        rw [Int.toNat_of_nonneg (by omega)]
        push_cast
        rfl
      rw [Int.cast_natCast] at cast
      rw [signed, cast]
      ring
    rw [← magnitude, ← overflow_signed]
    exact ⟨stored_ne_notANumber represents, value_stored represents⟩
  · rw [compare_eq_iff_eq.mpr rfl, Int.cast_zero, zero_mul, EReal.coe_zero, rounded_zero]
    exact ⟨by simp [stored_zero], by rw [stored_zero]; rfl⟩
  · rw [compare_gt_iff_gt.mpr pos]
    have represents := round_represents .positive (show 0 < n.toNat by omega) e
    have magnitude : signed .positive ((n.toNat : ℝ) * 2 ^ e) = n * 2 ^ e := by
      have cast : ((n.toNat : ℤ) : ℝ) = n := by rw [Int.toNat_of_nonneg pos.le]
      rw [Int.cast_natCast] at cast
      rw [signed, cast]
    rw [← magnitude, ← overflow_signed]
    exact ⟨stored_ne_notANumber represents, value_stored represents⟩

theorem partsSign_normalize {n : ℤ} (nonneg : 0 ≤ n) (e : ℤ) :
    partsSign (stored (UnpackedFloat.normalize .binary32 n e .positive)) = .positive := by
  unfold UnpackedFloat.normalize
  obtain rfl | pos := nonneg.eq_or_lt
  · rw [compare_eq_iff_eq.mpr rfl]
    show partsSign (stored (.zero .positive)) = .positive
    rw [stored_zero]
    rfl
  · rw [compare_gt_iff_gt.mpr pos]
    exact sign_stored (round_represents .positive (show 0 < n.toNat by omega) e)

/-! ## Sums -/

theorem decreaseExponent_value (s : Sign) (m : ℕ) {e target : ℤ} (h : target ≤ e) :
    ((s.apply (decreaseExponent m e target).1 : ℤ) : ℝ) * 2 ^ target = signed s (m * 2 ^ e) := by
  obtain ⟨n, rfl⟩ : ∃ n : ℕ, e = target + n := ⟨(e - target).toNat, by omega⟩
  have amount : (target + (n : ℤ) - target).toNat = n := by omega
  rw [signed_apply, decreaseExponent, amount, Nat.shiftLeft_eq, zpow_add₀ two_ne_zero, zpow_natCast]
  congr 1
  push_cast
  ring

/-- The result is a number exactly if `defined` holds, and then it is the rounded `exact`. -/
structure Computes (u : UnpackedFloat) (defined : Prop) (exact : EReal) : Prop where
  isNumber : stored u ≠ .notANumber ↔ defined
  value : defined → partsValue (stored u) = rounded exact

theorem Computes.undefined {defined : Prop} (exact : EReal) (h : ¬defined) :
    Computes .notANumber defined exact :=
  ⟨by simp [stored_notANumber, h], fun given => absurd given h⟩

theorem Computes.number {u : UnpackedFloat} {defined : Prop} {exact : EReal} (h : defined)
    (isNumber : stored u ≠ .notANumber) (value : partsValue (stored u) = rounded exact) :
    Computes u defined exact :=
  ⟨by simp [isNumber, h], fun _ => value⟩

/-- An exact result that is already stored. -/
theorem Computes.stored {u : UnpackedFloat} {defined : Prop} {exact : EReal} (hu : Stored u)
    (h : defined) (isNumber : u ≠ .notANumber) (value : partsValue u = exact) :
    Computes u defined exact := by
  refine .number h ?_ ?_
  · rwa [stored_of_stored hu]
  · rw [stored_of_stored hu, ← value, rounded_partsValue hu]

theorem Computes.infinity {s : Sign} {defined : Prop} {exact : EReal} (h : defined)
    (value : partsValue (.infinity s) = exact) : Computes (.infinity s) defined exact :=
  .stored (.infinity s) h (infinity_ne_notANumber s) value

theorem Computes.zero {s : Sign} {defined : Prop} {exact : EReal} (h : defined)
    (value : partsValue (.zero s) = exact) : Computes (.zero s) defined exact :=
  .stored (.zero s) h (zero_ne_notANumber s) value

theorem Computes.represents {s : Sign} {r : ℝ} {u : UnpackedFloat} {defined : Prop} {exact : EReal}
    (h : defined) (represents : Represents s (roundReal r) u) (value : (signed s r : ℝ) = exact) :
    Computes u defined exact :=
  .number h (stored_ne_notANumber represents)
    (by rw [value_stored represents, overflow_signed, value])

theorem add_notANumber_left (format : Format) (v : UnpackedFloat) :
    UnpackedFloat.add format .notANumber v = .notANumber := by
  rcases v with (_ | _) | _ | _ | _ <;> rfl

/-- Parts of two numbers that are not opposite infinities. -/
def Addable (u v : UnpackedFloat) : Prop :=
  u ≠ .notANumber ∧ v ≠ .notANumber ∧
    ¬(partsValue u = ⊤ ∧ partsValue v = ⊥) ∧ ¬(partsValue u = ⊥ ∧ partsValue v = ⊤)

theorem add_computes {u v : UnpackedFloat} (hu : Stored u) (hv : Stored v) :
    Computes (UnpackedFloat.add .binary32 u v) (Addable u v) (partsValue u + partsValue v) := by
  cases hu with
  | notANumber => exact .undefined _ fun h => h.1 rfl
  | infinity s =>
    cases hv with
    | notANumber => cases s <;> exact .undefined _ fun h => h.2.1 rfl
    | infinity t =>
      cases s <;> cases t
      · exact .infinity (by simp [Addable, partsValue]) rfl
      · exact .undefined _ fun h => h.2.2.2 ⟨rfl, rfl⟩
      · exact .undefined _ fun h => h.2.2.1 ⟨rfl, rfl⟩
      · exact .infinity (by simp [Addable, partsValue]) rfl
    | zero t => cases s <;> exact .infinity (by simp [Addable, partsValue]) rfl
    | finite t => cases s <;> exact .infinity (by simp [Addable, partsValue]) rfl
  | zero s =>
    cases hv with
    | notANumber => cases s <;> exact .undefined _ fun h => h.2.1 rfl
    | infinity t => cases t <;> exact .infinity (by simp [Addable, partsValue]) rfl
    | zero t =>
      cases s <;> cases t <;>
        exact .zero (by simp [Addable, partsValue]) (add_zero 0).symm
    | finite t pos place fits =>
      exact .stored (.finite t pos place fits) (by simp [Addable, partsValue])
        (finite_ne_notANumber t pos) (zero_add _).symm
  | @finite s m e pos place fits =>
    cases hv with
    | notANumber => exact .undefined _ fun h => h.2.1 rfl
    | infinity t => cases t <;> exact .infinity (by simp [Addable, partsValue]) rfl
    | zero t =>
      exact .stored (.finite s pos place fits) (by simp [Addable, partsValue])
        (finite_ne_notANumber s pos) (add_zero _).symm
    | @finite t n f pos' =>
      -- both mantissas are moved to the lower exponent and added there, without loss
      obtain ⟨isNumber, value⟩ := stored_normalize
        (s.apply (decreaseExponent m e (min e f)).1 + t.apply (decreaseExponent n f (min e f)).1)
        (min e f) .positive
      refine .number (by simp [Addable, partsValue]) isNumber (value.trans ?_)
      rw [Int.cast_add, add_mul, decreaseExponent_value s m (min_le_left e f),
        decreaseExponent_value t n (min_le_right e f)]
      rfl

/-! ## Opposites and differences -/

theorem stored_neg {u : UnpackedFloat} (hu : Stored u) : Stored u.neg := by
  cases hu with
  | notANumber => exact .notANumber
  | infinity s => exact .infinity _
  | zero s => exact .zero _
  | finite s pos place fits => exact .finite _ pos place fits

theorem partsValue_opposite (u : UnpackedFloat) : partsValue u.neg = -partsValue u := by
  obtain (_ | _) | _ | _ | ⟨_ | _, m, e, _⟩ := u
  · exact EReal.neg_bot.symm
  · exact EReal.neg_top.symm
  · exact neg_zero.symm
  · exact neg_zero.symm
  · exact congrArg Real.toEReal (neg_neg ((m : ℝ) * 2 ^ e)).symm
  · rfl

theorem neg_ne_notANumber (u : UnpackedFloat) : u.neg ≠ .notANumber ↔ u ≠ .notANumber := by
  cases u <;> simp [UnpackedFloat.neg]

theorem apply_opposite (s : Sign) (n : ℤ) : (-s).apply n = -s.apply n := by
  cases s
  · exact (neg_neg n).symm
  · rfl

theorem sub_eq_add_opposite (format : Format) (u v : UnpackedFloat) :
    UnpackedFloat.sub format u v = UnpackedFloat.add format u v.neg := by
  rcases u with (_ | _) | _ | _ | ⟨s, m, e, _⟩ <;>
    rcases v with (_ | _) | _ | (_ | _) | ⟨t, n, f, _⟩ <;>
    try rfl
  -- what is left is the difference of two mantissas
  simp only [UnpackedFloat.sub, UnpackedFloat.add, UnpackedFloat.neg, apply_opposite,
    Int.sub_eq_add_neg]

/-! ## Products -/

theorem partsValue_finite_ne_zero (s : Sign) {m : ℕ} (e : ℤ) (pos : 0 < m) :
    partsValue (.finite s m e pos) ≠ 0 := by
  cases s
  · exact (partsValue_neg pos e).ne
  · exact (partsValue_pos pos e).ne'

/-- Parts of two numbers that are not a zero and an infinity. -/
def Multipliable (u v : UnpackedFloat) : Prop :=
  u ≠ .notANumber ∧ v ≠ .notANumber ∧
    ¬(partsValue u = 0 ∧ (partsValue v = ⊤ ∨ partsValue v = ⊥)) ∧
    ¬((partsValue u = ⊤ ∨ partsValue u = ⊥) ∧ partsValue v = 0)

/-- The last place of a product is not below the place at which its mantissas are multiplied. -/
theorem mul_exponent_le_lastPlace {m n : ℕ} {e f : ℤ} (posM : 0 < m) (posN : 0 < n)
    (left : InPlace m e) (right : InPlace n f) : e + f ≤ lastPlace ((m * n : ℕ) * 2 ^ (e + f)) := by
  have pos : 0 < m * n := Nat.mul_pos posM posN
  have magnitude := magnitude_pos pos (e + f)
  have least := least_le_lastPlace ((m * n : ℕ) * 2 ^ (e + f))
  by_cases few : e = -149 ∧ f = -149
  · omega
  · -- one factor has all its digits, so the product has at least as many
    have digits : 2 ^ 23 ≤ m * n := by
      obtain lowest | full := left.normal
      · have full := right.normal.resolve_left fun other => few ⟨lowest, other⟩
        exact full.trans (Nat.le_mul_of_pos_left n posM)
      · exact full.trans (Nat.le_mul_of_pos_right m posN)
    have first : e + f + 23 ≤ Int.log 2 (((m * n : ℕ) : ℝ) * 2 ^ (e + f)) := by
      have many : (2 : ℝ) ^ 23 ≤ (m * n : ℕ) := mod_cast digits
      rw [le_log_iff magnitude, zpow_add₀ two_ne_zero, mul_comm]
      exact mul_le_mul_of_nonneg_right (mod_cast many) (by positivity)
    rw [lastPlace, abs_of_pos magnitude]
    omega

theorem multiply_represents (s : Sign) {m n : ℕ} {e f : ℤ} (posM : 0 < m) (posN : 0 < n)
    (left : InPlace m e) (right : InPlace n f) :
    Represents s (roundReal ((m : ℝ) * 2 ^ e * (n * 2 ^ f)))
      (roundWithAccuracy .binary32 s (m * n) (e + f) .exact) := by
  have product : (m : ℝ) * 2 ^ e * (n * 2 ^ f) = (m * n : ℕ) * 2 ^ (e + f) := by
    rw [zpow_add₀ two_ne_zero]
    push_cast
    ring
  have quotient : ((m * n : ℕ) : ℝ) * 2 ^ (e + f) / 2 ^ (e + f) = (m * n : ℕ) :=
    mul_div_cancel_right₀ _ (by positivity)
  rw [product]
  refine roundWithAccuracy_represents s (magnitude_pos (Nat.mul_pos posM posN) _) ?_
    (mul_exponent_le_lastPlace posM posN left right)
  rw [quotient]
  exact keeps_exact _

theorem mul_computes {u v : UnpackedFloat} (hu : Stored u) (hv : Stored v) :
    Computes (UnpackedFloat.mul .binary32 u v) (Multipliable u v)
      (partsValue u * partsValue v) := by
  cases hu with
  | notANumber => exact .undefined _ fun h => h.1 rfl
  | infinity s =>
    cases hv with
    | notANumber => cases s <;> exact .undefined _ fun h => h.2.1 rfl
    | infinity t =>
      cases s <;> cases t <;> exact .infinity (by simp [Multipliable, partsValue]) rfl
    | zero t => cases s <;> exact .undefined _ fun h => h.2.2.2 (by simp [partsValue])
    | @finite t n f pos =>
      have defined : Multipliable (.infinity s) (.finite t n f pos) :=
        ⟨infinity_ne_notANumber s, finite_ne_notANumber t pos,
          fun h => by cases s <;> simp [partsValue] at h,
          fun h => partsValue_finite_ne_zero t f pos h.2⟩
      refine .infinity defined ?_
      cases s <;> cases t
      · exact (EReal.bot_mul_of_neg (partsValue_neg pos _)).symm
      · exact (EReal.bot_mul_of_pos (partsValue_pos pos _)).symm
      · exact (EReal.top_mul_of_neg (partsValue_neg pos _)).symm
      · exact (EReal.top_mul_of_pos (partsValue_pos pos _)).symm
  | zero s =>
    cases hv with
    | notANumber => exact .undefined _ fun h => h.2.1 rfl
    | infinity t => cases t <;> exact .undefined _ fun h => h.2.2.1 (by simp [partsValue])
    | zero t => exact .zero (by simp [Multipliable, partsValue]) (zero_mul 0).symm
    | finite t => exact .zero (by simp [Multipliable, partsValue]) (zero_mul _).symm
  | @finite s m e pos place =>
    cases hv with
    | notANumber => exact .undefined _ fun h => h.2.1 rfl
    | infinity t =>
      have defined : Multipliable (.finite s m e pos) (.infinity t) :=
        ⟨finite_ne_notANumber s pos, infinity_ne_notANumber t,
          fun h => partsValue_finite_ne_zero s e pos h.1,
          fun h => by cases t <;> simp [partsValue] at h⟩
      refine .infinity defined ?_
      cases s <;> cases t
      · exact (EReal.mul_bot_of_neg (partsValue_neg pos _)).symm
      · exact (EReal.mul_top_of_neg (partsValue_neg pos _)).symm
      · exact (EReal.mul_bot_of_pos (partsValue_pos pos _)).symm
      · exact (EReal.mul_top_of_pos (partsValue_pos pos _)).symm
    | zero t => exact .zero (by simp [Multipliable, partsValue]) (mul_zero _).symm
    | @finite t n f pos' place' =>
      -- only here is anything rounded
      refine .represents (by simp [Multipliable, partsValue])
        (multiply_represents (s * t) pos pos' place place') ?_
      rw [signed_mul]
      rfl

/-! ## Signs of sums and products -/

/-- A sum is negative only if a summand is, since an exact zero counts as positive. -/
theorem partsSign_add_positive {u v : UnpackedFloat} (hu : Stored u) (hv : Stored v)
    (su : partsSign u = .positive) (sv : partsSign v = .positive) :
    partsSign (stored (UnpackedFloat.add .binary32 u v)) = .positive := by
  cases hu with
  | notANumber =>
    rw [add_notANumber_left]
    exact congrArg partsSign stored_notANumber
  | infinity s =>
    obtain rfl : s = .positive := su
    cases hv with
    | notANumber => exact congrArg partsSign stored_notANumber
    | infinity t =>
      obtain rfl : t = .positive := sv
      exact congrArg partsSign (stored_infinity .positive)
    | zero t => exact congrArg partsSign (stored_infinity .positive)
    | finite t => exact congrArg partsSign (stored_infinity .positive)
  | zero s =>
    obtain rfl : s = .positive := su
    cases hv with
    | notANumber => exact congrArg partsSign stored_notANumber
    | infinity t => exact (congrArg partsSign (stored_infinity t)).trans sv
    | zero t =>
      obtain rfl : t = .positive := sv
      exact congrArg partsSign (stored_zero .positive)
    | finite t pos place fits =>
      exact (congrArg partsSign (stored_of_stored (.finite t pos place fits))).trans sv
  | @finite s m e pos place fits =>
    obtain rfl : s = .positive := su
    cases hv with
    | notANumber => exact congrArg partsSign stored_notANumber
    | infinity t => exact (congrArg partsSign (stored_infinity t)).trans sv
    | zero t => exact congrArg partsSign (stored_of_stored (.finite .positive pos place fits))
    | @finite t n f pos' =>
      obtain rfl : t = .positive := sv
      -- the sum of two positive significands is normalised, and is not negative
      exact partsSign_normalize (add_nonneg (Int.natCast_nonneg _) (Int.natCast_nonneg _)) _

theorem partsSign_mul_self {u : UnpackedFloat} (hu : Stored u) :
    partsSign (stored (UnpackedFloat.mul .binary32 u u)) = .positive := by
  have square (s : Sign) : s * s = .positive := by cases s <;> rfl
  cases hu with
  | notANumber => rfl
  | infinity s => cases s <;> rfl
  | zero s => cases s <;> rfl
  | finite s pos place =>
    exact (sign_stored (multiply_represents (s * s) pos pos place place)).trans (square s)

end RayTracer.Number
