import RayTracer.Proofs.Number.Meaning

/-! # Rounding of real numbers

The binary32 number nearest to a real number, as a function on real numbers and infinities.

* `roundEven` is the nearest integer, a tie going to the even one.
* `lastPlace x` is the exponent of the last place that a number as large as `x` has: 24 digits from
  its first one, but none below `2 ^ -149`.
* `roundReal` rounds at that place, and `rounded` sends what is then too large to an infinity.

The non-trivial ingredient is that `roundReal` is monotone across a power of two, where the last
place moves: a number below the power rounds at most up to it, one above at most down to it.
-/

namespace RayTracer.Number

/-! ## To the nearest integer -/

theorem floor_le_roundEven (x : ℝ) : ⌊x⌋ ≤ roundEven x := by
  unfold roundEven
  split_ifs <;> omega

theorem roundEven_le_floor_add_one (x : ℝ) : roundEven x ≤ ⌊x⌋ + 1 := by
  unfold roundEven
  split_ifs <;> omega

@[simp] theorem roundEven_intCast (n : ℤ) : roundEven n = n := by
  simp [roundEven]

theorem roundEven_mono : Monotone roundEven := by
  intro x y h
  -- different whole parts leave room for rounding up, equal ones leave the fractions to compare
  obtain lower | same := (Int.floor_mono h).lt_or_eq
  · calc roundEven x ≤ ⌊x⌋ + 1 := roundEven_le_floor_add_one x
      _ ≤ ⌊y⌋ := lower
      _ ≤ roundEven y := floor_le_roundEven y
  · have fractions : Int.fract x ≤ Int.fract y := by
      have := Int.floor_add_fract x
      have := Int.floor_add_fract y
      rw [same] at *
      linarith
    unfold roundEven
    rw [same]
    split_ifs <;> first | omega | (exfalso; linarith)

/-- Between two integers the distance to the lower one turns into that to the upper one. -/
theorem roundEven_neg (x : ℝ) : roundEven (-x) = -roundEven x := by
  by_cases whole : Int.fract x = 0
  · obtain ⟨n, rfl⟩ : ∃ n : ℤ, x = n := ⟨⌊x⌋, by linarith [Int.floor_add_fract x]⟩
    rw [← Int.cast_neg, roundEven_intCast, roundEven_intCast]
  · have fraction : Int.fract (-x) = 1 - Int.fract x := Int.fract_neg whole
    have floor : ⌊-x⌋ = -⌊x⌋ - 1 := by
      have sum : (⌊-x⌋ : ℝ) = -⌊x⌋ - 1 := by
        linarith [Int.floor_add_fract x, Int.floor_add_fract (-x)]
      exact_mod_cast sum
    unfold roundEven
    rw [fraction, floor]
    split_ifs <;> first | omega | (exfalso; linarith)

theorem roundEven_le {x : ℝ} {n : ℤ} (h : x ≤ n) : roundEven x ≤ n :=
  (roundEven_mono h).trans_eq (roundEven_intCast n)

theorem le_roundEven {x : ℝ} {n : ℤ} (h : n ≤ x) : n ≤ roundEven x :=
  (roundEven_intCast n).symm.trans_le (roundEven_mono h)

/-! ## The last place -/

theorem log_lt_iff {x : ℝ} (pos : 0 < x) (n : ℤ) : Int.log 2 x < n ↔ x < 2 ^ n :=
  mod_cast (Int.lt_zpow_iff_log_lt (b := 2) one_lt_two pos).symm

theorem le_log_iff {x : ℝ} (pos : 0 < x) (n : ℤ) : n ≤ Int.log 2 x ↔ 2 ^ n ≤ x :=
  mod_cast (Int.zpow_le_iff_le_log (b := 2) one_lt_two pos).symm

theorem least_le_lastPlace (x : ℝ) : -149 ≤ lastPlace x := le_max_right ..

theorem lastPlace_neg (x : ℝ) : lastPlace (-x) = lastPlace x := by
  rw [lastPlace, abs_neg, lastPlace]

theorem lastPlace_mono {x y : ℝ} (pos : 0 < x) (h : x ≤ y) : lastPlace x ≤ lastPlace y := by
  have larger : Int.log 2 |x| ≤ Int.log 2 |y| := by
    rw [abs_of_pos pos, abs_of_pos (pos.trans_le h)]
    exact Int.log_mono_right pos h
  unfold lastPlace
  omega

/-- No more than 24 digits come before the last place. -/
theorem lt_two_zpow_lastPlace {x : ℝ} (pos : 0 < x) : x < 2 ^ (lastPlace x + 24) := by
  refine (log_lt_iff pos _).mp ?_
  have large : Int.log 2 |x| - 23 ≤ lastPlace x := le_max_left ..
  rw [abs_of_pos pos] at large
  omega

/-- All 24 digits come before a last place above the lowest one. -/
theorem two_zpow_lastPlace_le {x : ℝ} (pos : 0 < x) (normal : -149 < lastPlace x) :
    2 ^ (lastPlace x + 23) ≤ x := by
  refine (le_log_iff pos _).mp ?_
  rw [lastPlace, abs_of_pos pos] at normal ⊢
  omega

/-- The last place of a number that is given by a whole number of places, not more than 24
digits. -/
theorem lastPlace_eq {x : ℝ} {e : ℤ} (pos : 0 < x) (digits : x < 2 ^ (e + 24)) (least : -149 ≤ e)
    (normal : e = -149 ∨ 2 ^ (e + 23) ≤ x) : lastPlace x = e := by
  have below : Int.log 2 x < e + 24 := (log_lt_iff pos _).mpr digits
  rw [lastPlace, abs_of_pos pos]
  obtain lowest | leading := normal
  · omega
  · have above : e + 23 ≤ Int.log 2 x := (le_log_iff pos _).mpr leading
    omega

/-! ## To the last place -/

@[simp] theorem roundReal_zero : roundReal 0 = 0 := by
  have zero : roundEven 0 = 0 := mod_cast roundEven_intCast 0
  simp [roundReal, zero]

theorem roundReal_neg (x : ℝ) : roundReal (-x) = -roundReal x := by
  rw [roundReal, lastPlace_neg, neg_div, roundEven_neg, Int.cast_neg, neg_mul, roundReal]

/-- A whole number of last places is not rounded. -/
theorem roundReal_of_multiple {x : ℝ} {n : ℤ} (h : x = n * 2 ^ lastPlace x) : roundReal x = x := by
  have quotient : x / 2 ^ lastPlace x = n := by
    rw [div_eq_iff (by positivity)]
    exact h
  rw [roundReal, quotient, roundEven_intCast]
  exact h.symm

theorem roundReal_nonneg {x : ℝ} (h : 0 ≤ x) : 0 ≤ roundReal x := by
  have quotient : (0 : ℤ) ≤ roundEven (x / 2 ^ lastPlace x) :=
    le_roundEven (by simpa using div_nonneg h (by positivity))
  exact mul_nonneg (mod_cast quotient) (by positivity)

/-- A rounded number has at most `2 ^ 24` last places. -/
theorem roundEven_lastPlace_le {x : ℝ} (pos : 0 < x) :
    roundEven (x / 2 ^ lastPlace x) ≤ 2 ^ 24 := by
  refine roundEven_le ?_
  rw [div_le_iff₀ (by positivity)]
  refine (lt_two_zpow_lastPlace pos).le.trans_eq ?_
  rw [zpow_add₀ two_ne_zero, mul_comm]
  norm_num

/-- Above the lowest last place it has at least `2 ^ 23` of them. -/
theorem le_roundEven_lastPlace {x : ℝ} (pos : 0 < x) (normal : -149 < lastPlace x) :
    2 ^ 23 ≤ roundEven (x / 2 ^ lastPlace x) := by
  refine le_roundEven ?_
  rw [le_div_iff₀ (by positivity)]
  refine Eq.trans_le ?_ (two_zpow_lastPlace_le pos normal)
  rw [zpow_add₀ two_ne_zero, mul_comm]
  norm_num

theorem roundReal_mono_pos {x y : ℝ} (pos : 0 < x) (h : x ≤ y) : roundReal x ≤ roundReal y := by
  have posY : 0 < y := pos.trans_le h
  obtain lower | same := (lastPlace_mono pos h).lt_or_eq
  · -- the two are rounded at different places, so they are compared with the power between them
    have upTo := roundEven_lastPlace_le pos
    have downTo := le_roundEven_lastPlace posY ((least_le_lastPlace x).trans_lt lower)
    calc roundReal x ≤ 2 ^ 24 * 2 ^ lastPlace x := by
          exact mul_le_mul_of_nonneg_right (mod_cast upTo) (by positivity)
      _ = 2 ^ 23 * 2 ^ (lastPlace x + 1) := by
          rw [zpow_add_one₀ two_ne_zero]
          ring
      _ ≤ 2 ^ 23 * 2 ^ lastPlace y := by
          refine mul_le_mul_of_nonneg_left ?_ (by positivity)
          exact zpow_le_zpow_right₀ one_le_two lower
      _ ≤ roundReal y := mul_le_mul_of_nonneg_right (mod_cast downTo) (by positivity)
  · unfold roundReal
    rw [same]
    have quotients : roundEven (x / 2 ^ lastPlace y) ≤ roundEven (y / 2 ^ lastPlace y) :=
      roundEven_mono (div_le_div_of_nonneg_right h (by positivity))
    exact mul_le_mul_of_nonneg_right (mod_cast quotients) (by positivity)

theorem roundReal_mono : Monotone roundReal := by
  intro x y h
  obtain pos | zero | neg := lt_trichotomy 0 x
  · exact roundReal_mono_pos pos h
  · rw [← zero, roundReal_zero]
    exact roundReal_nonneg (zero.trans_le h)
  · obtain negY | nonneg := lt_or_ge y 0
    · have mirrored := roundReal_mono_pos (neg_pos.mpr negY) (neg_le_neg h)
      rw [roundReal_neg, roundReal_neg] at mirrored
      exact neg_le_neg_iff.mp mirrored
    · have mirrored := roundReal_nonneg (neg_nonneg.mpr neg.le)
      rw [roundReal_neg] at mirrored
      exact (neg_nonneg.mp mirrored).trans (roundReal_nonneg nonneg)

/-! ## To the nearest binary32 number -/

theorem overflow_mono : Monotone overflow := by
  intro x y h
  unfold overflow
  split_ifs
  all_goals first
    | exact le_top
    | exact bot_le
    | exact EReal.coe_le_coe_iff.mpr h
    | (exfalso; linarith)

theorem overflow_of_abs_lt {x : ℝ} (h : |x| < 2 ^ 128) : overflow x = x := by
  obtain ⟨above, below⟩ := abs_lt.mp h
  rw [overflow, if_neg below.not_ge, if_neg above.not_ge]

@[simp] theorem rounded_top : rounded ⊤ = ⊤ := rfl

@[simp] theorem rounded_bot : rounded ⊥ = ⊥ := rfl

theorem rounded_coe (x : ℝ) : rounded x = overflow (roundReal x) := rfl

@[simp] theorem rounded_zero : rounded 0 = 0 := by
  rw [← EReal.coe_zero, rounded_coe, roundReal_zero, overflow_of_abs_lt (by norm_num)]

theorem rounded_mono : Monotone rounded := by
  intro x y h
  induction x with
  | bot => exact bot_le
  | top =>
    rw [top_le_iff] at h
    rw [h]
  | coe x =>
    induction y with
    | bot => exact absurd h (by simp)
    | top => exact le_top
    | coe y => exact overflow_mono (roundReal_mono (EReal.coe_le_coe_iff.mp h))

end RayTracer.Number
