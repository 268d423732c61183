import RayTracer.Proofs.Number.Opposite

/-! # Bounds of rounding

* `abs_roundReal_sub_le`: rounding moves a number by at most a `2 ^ 24`th part of it, or else by
  half of the lowest last place. So it does not more than double, and keeps at least half of what is
  not tiny.
* `Stays`: the numbers that rounding leaves alone. Since rounding is monotone they bound rounded
  numbers without an error term.
-/

namespace RayTracer.Number

variable {r s b : ℝ}

/-! ## How far rounding moves a number -/

theorem abs_roundEven_sub_le (x : ℝ) : |(roundEven x : ℝ) - x| ≤ 1 / 2 := by
  have whole := Int.floor_add_fract x
  have low := Int.fract_nonneg x
  have high := Int.fract_lt_one x
  unfold roundEven
  split_ifs with below above
  · rw [abs_le]
    constructor <;> linarith
  · push_cast
    rw [abs_le]
    constructor <;> linarith
  · -- a tie goes up or down by exactly a half
    have tie : Int.fract x = 1 / 2 := le_antisymm (not_lt.mp above) (not_lt.mp below)
    obtain even | odd := Int.emod_two_eq_zero_or_one ⌊x⌋
    · rw [even, abs_le]
      push_cast
      constructor <;> linarith
    · rw [odd, abs_le]
      push_cast
      constructor <;> linarith

theorem abs_roundReal_sub_le_lastPlace (x : ℝ) : |roundReal x - x| ≤ 2 ^ lastPlace x / 2 := by
  have unit : (0 : ℝ) < 2 ^ lastPlace x := by positivity
  have exact : roundReal x - x = (roundEven (x / 2 ^ lastPlace x) - x / 2 ^ lastPlace x) *
      2 ^ lastPlace x := by
    rw [roundReal, sub_mul, div_mul_cancel₀ _ unit.ne']
  rw [exact, abs_mul, abs_of_pos unit]
  calc _ ≤ 1 / 2 * 2 ^ lastPlace x := mul_le_mul_of_nonneg_right (abs_roundEven_sub_le _) unit.le
    _ = 2 ^ lastPlace x / 2 := by ring

theorem abs_roundReal_sub_le (x : ℝ) : |roundReal x - x| ≤ max (|x| / 2 ^ 24) (2 ^ (-150 : ℤ)) := by
  obtain rfl | nonzero := eq_or_ne x 0
  · rw [roundReal_zero, sub_zero, abs_zero]
    positivity
  · refine (abs_roundReal_sub_le_lastPlace x).trans ?_
    have size : (0 : ℝ) < |x| := abs_pos.mpr nonzero
    -- the last place is 23 places below the first digit, or else it is the lowest one
    obtain normal | lowest := max_choice (Int.log 2 |x| - 23) (-149)
    · refine le_max_of_le_left ?_
      rw [lastPlace, normal, zpow_sub₀ two_ne_zero]
      have first : (2 : ℝ) ^ Int.log 2 |x| ≤ |x| := (le_log_iff size _).mp le_rfl
      rw [div_div, show ((2 : ℝ) ^ (23 : ℤ) * 2) = 2 ^ 24 by norm_num]
      gcongr
    · refine le_max_of_le_right ?_
      rw [lastPlace, lowest]
      norm_num

theorem abs_roundReal_sub_le_add (x : ℝ) : |roundReal x - x| ≤ |x| / 2 ^ 24 + 2 ^ (-150 : ℤ) :=
  (abs_roundReal_sub_le x).trans (max_le_add_of_nonneg (by positivity) (by positivity))

theorem roundReal_of_small (pos : 0 < r) (h : r < 2 ^ (-150 : ℤ)) : roundReal r = 0 := by
  have last : lastPlace r = -149 := lastPlace_eq pos (h.trans (by norm_num)) le_rfl (.inl rfl)
  have low : 0 ≤ r / 2 ^ (-149 : ℤ) := by positivity
  have high : r / 2 ^ (-149 : ℤ) < 1 / 2 := by
    rw [div_lt_iff₀ (by positivity)]
    exact h.trans_eq (by norm_num)
  have floor : ⌊r / 2 ^ (-149 : ℤ)⌋ = 0 := Int.floor_eq_zero_iff.mpr ⟨low, high.trans (by norm_num)⟩
  have none : roundEven (r / 2 ^ (-149 : ℤ)) = 0 := by
    rw [roundEven, Int.fract, floor, Int.cast_zero, sub_zero, if_pos high]
  rw [roundReal, last, none, Int.cast_zero, zero_mul]

theorem half_le_roundReal (h : 2 ^ (-149 : ℤ) ≤ r) : r / 2 ≤ roundReal r := by
  have pos : 0 < r := lt_of_lt_of_le (by positivity) h
  have moved := abs_le.mp (abs_roundReal_sub_le r)
  have most : max (|r| / 2 ^ 24) (2 ^ (-150 : ℤ)) ≤ r / 2 := by
    rw [abs_of_pos pos]
    refine max_le (by linarith) ?_
    calc (2 : ℝ) ^ (-150 : ℤ) = 2 ^ (-149 : ℤ) / 2 := by norm_num
      _ ≤ r / 2 := by gcongr
  linarith [moved.1]

theorem abs_roundReal (x : ℝ) : |roundReal x| = roundReal |x| := by
  obtain nonneg | nonpos := le_total 0 x
  · rw [abs_of_nonneg nonneg, abs_of_nonneg (roundReal_nonneg nonneg)]
  · have opposite := roundReal_nonneg (neg_nonneg.mpr nonpos)
    rw [abs_of_nonpos nonpos, roundReal_neg]
    rw [roundReal_neg] at opposite
    exact abs_of_nonpos (neg_nonneg.mp opposite)

theorem abs_roundReal_sub_le_of_normal (h : 2 ^ (-126 : ℤ) ≤ r) :
    |roundReal r - r| ≤ r / 2 ^ 24 := by
  have pos : 0 < r := lt_of_lt_of_le (by positivity) h
  refine (abs_roundReal_sub_le r).trans ?_
  rw [abs_of_pos pos]
  refine max_le le_rfl ?_
  calc (2 : ℝ) ^ (-150 : ℤ) = 2 ^ (-126 : ℤ) / 2 ^ 24 := by norm_num
    _ ≤ r / 2 ^ 24 := by gcongr

theorem roundReal_le_two_mul (nonneg : 0 ≤ r) : roundReal r ≤ 2 * r := by
  obtain rfl | pos := nonneg.eq_or_lt
  · simp
  -- below half of the lowest place nothing is left, and above it the error is at most the number
  obtain small | large := lt_or_ge r (2 ^ (-150 : ℤ))
  · rw [roundReal_of_small pos small]
    positivity
  · have moved := (abs_le.mp (abs_roundReal_sub_le r)).2
    have most : max (|r| / 2 ^ 24) (2 ^ (-150 : ℤ)) ≤ r := by
      rw [abs_of_pos pos]
      exact max_le (by linarith) large
    linarith

theorem abs_roundReal_le (x : ℝ) : |roundReal x| ≤ 2 * |x| := by
  rw [abs_roundReal]
  exact roundReal_le_two_mul (abs_nonneg x)

theorem abs_le_of_roundReal_le (h : |roundReal r| ≤ b) (large : 2 ^ (-149 : ℤ) ≤ 2 * b) :
    |r| ≤ 2 * b := by
  rw [abs_roundReal] at h
  obtain tiny | some := lt_or_ge |r| (2 ^ (-149 : ℤ))
  · exact (tiny.trans_le large).le
  · have half := half_le_roundReal some
    linarith

/-! ## Numbers that rounding leaves alone -/

/-- The value of a finite binary32 number. -/
def Stays (b : ℝ) : Prop := rounded b = b

theorem roundReal_eq_of_rounded (h : rounded r = s) : roundReal r = s := by
  rw [rounded_coe, overflow] at h
  split_ifs at h
  · exact absurd h (EReal.top_ne_coe s)
  · exact absurd h (EReal.bot_ne_coe s)
  · exact EReal.coe_eq_coe_iff.mp h

theorem Stays.roundReal_eq (h : Stays r) : roundReal r = r := roundReal_eq_of_rounded h

theorem Stays.le_roundReal (h : Stays r) (le : r ≤ s) : r ≤ roundReal s :=
  h.roundReal_eq.symm.trans_le (roundReal_mono le)

/-- What exceeds a number by less than half of its last place is rounded down to it at most. -/
theorem Stays.roundReal_le (h : Stays b) (pos : 0 < b) (near : r < b + 2 ^ lastPlace b / 2) :
    roundReal r ≤ b := by
  obtain below | above := le_or_gt r b
  · exact (roundReal_mono below).trans_eq h.roundReal_eq
  have unit : (0 : ℝ) < 2 ^ lastPlace b := by positivity
  have whole : b = roundEven (b / 2 ^ lastPlace b) * 2 ^ lastPlace b := h.roundReal_eq.symm
  generalize roundEven (b / 2 ^ lastPlace b) = n at whole
  have quotient : b / 2 ^ lastPlace b = n := by rw [div_eq_iff unit.ne', ← whole]
  -- the next power of two is a whole last place away, so the last place is the same
  have same : lastPlace r = lastPlace b := by
    refine (lastPlace_mono pos above.le).antisymm' (not_lt.mp fun higher => ?_)
    have least := two_zpow_lastPlace_le (pos.trans above) ((least_le_lastPlace b).trans_lt higher)
    have digits : n + 1 ≤ (2 : ℤ) ^ 24 := by
      have most := lt_two_zpow_lastPlace pos
      rw [zpow_add₀ two_ne_zero, mul_comm, ← div_lt_iff₀ unit, quotient] at most
      have : n < (2 : ℤ) ^ 24 := by exact_mod_cast most
      omega
    have next : (n + 1 : ℝ) * 2 ^ lastPlace b ≤ r := by
      calc (n + 1 : ℝ) * 2 ^ lastPlace b ≤ 2 ^ 24 * 2 ^ lastPlace b :=
            mul_le_mul_of_nonneg_right (mod_cast digits) unit.le
        _ = 2 ^ (lastPlace b + 1 + 23) := by
            rw [add_assoc, zpow_add₀ two_ne_zero, mul_comm]
            norm_num
        _ ≤ 2 ^ (lastPlace r + 23) := zpow_le_zpow_right₀ one_le_two (by omega)
        _ ≤ r := least
    linarith
  have rounds : roundEven (r / 2 ^ lastPlace b) ≤ n := by
    have low : n ≤ r / 2 ^ lastPlace b := by
      rw [← quotient]
      gcongr
    have high : r / 2 ^ lastPlace b < n + 1 / 2 := by
      rw [div_lt_iff₀ unit]
      linarith
    have floor : ⌊r / 2 ^ lastPlace b⌋ = n := Int.floor_eq_iff.mpr ⟨low, by linarith⟩
    rw [roundEven, Int.fract, floor, if_pos (by linarith)]
  calc roundReal r = roundEven (r / 2 ^ lastPlace b) * 2 ^ lastPlace b := by rw [roundReal, same]
    _ ≤ n * 2 ^ lastPlace b := mul_le_mul_of_nonneg_right (mod_cast rounds) unit.le
    _ = b := whole.symm

theorem Stays.le_abs_roundReal (h : Stays r) (le : r ≤ |s|) : r ≤ |roundReal s| := by
  rw [abs_roundReal]
  exact h.le_roundReal le

theorem Stays.neg (h : Stays r) : Stays (-r) := by
  rw [Stays, EReal.coe_neg, rounded_neg, h]

theorem Stays.abs (h : Stays r) : Stays |r| := by
  obtain nonneg | nonpos := le_total 0 r
  · rwa [abs_of_nonneg nonneg]
  · rw [abs_of_nonpos nonpos]
    exact h.neg

theorem Stays.least (h : Stays r) (pos : 0 < r) : 2 ^ (-149 : ℤ) ≤ r := by
  have still := h.roundReal_eq
  have unit : (0 : ℝ) < 2 ^ lastPlace r := by positivity
  rw [roundReal] at still
  have some : 0 < roundEven (r / 2 ^ lastPlace r) := by
    rw [← still] at pos
    exact_mod_cast pos_of_mul_pos_left pos unit.le
  calc (2 : ℝ) ^ (-149 : ℤ) ≤ 2 ^ lastPlace r :=
      zpow_le_zpow_right₀ one_le_two (least_le_lastPlace r)
    _ ≤ roundEven (r / 2 ^ lastPlace r) * 2 ^ lastPlace r :=
      le_mul_of_one_le_left unit.le (mod_cast some)
    _ = r := still

/-- Finite binary32 numbers are whole multiples of their last place, so of each place below it. -/
theorem Stays.exists_multiple (h : Stays r) {e : ℤ} (fine : e ≤ lastPlace r) :
    ∃ n : ℤ, r = n * 2 ^ e := by
  obtain ⟨k, place⟩ : ∃ k : ℕ, lastPlace r = k + e := ⟨(lastPlace r - e).toNat, by omega⟩
  have power : (2 : ℝ) ^ lastPlace r = 2 ^ k * 2 ^ e := by
    rw [place, zpow_add₀ two_ne_zero, zpow_natCast]
  refine ⟨roundEven (r / 2 ^ lastPlace r) * 2 ^ k, ?_⟩
  calc r = roundEven (r / 2 ^ lastPlace r) * 2 ^ lastPlace r := h.roundReal_eq.symm
    _ = roundEven (r / 2 ^ lastPlace r) * (2 ^ k * 2 ^ e) := by rw [← power]
    _ = _ := by
        push_cast
        ring

theorem Stays.lt (h : Stays r) : r < 2 ^ 128 := by
  by_contra large
  have still := h.roundReal_eq
  rw [Stays, rounded_coe, still, overflow, if_pos (not_lt.mp large)] at h
  exact EReal.top_ne_coe r h

theorem stays_natCast_mul {n : ℕ} {e : ℤ} (digits : n < 2 ^ 24) (least : -149 ≤ e)
    (most : e ≤ 104) :
    Stays (n * 2 ^ e) := by
  obtain rfl | pos := Nat.eq_zero_or_pos n
  · simp [Stays]
  have size : (0 : ℝ) < n * 2 ^ e := by positivity
  have few : (n : ℝ) < 2 ^ 24 := mod_cast digits
  have below : (n : ℝ) * 2 ^ e < 2 ^ (e + 24) := by
    rw [zpow_add₀ two_ne_zero, mul_comm]
    exact mul_lt_mul_of_pos_left (mod_cast few) (by positivity)
  -- fewer than 24 digits, so the last place is no higher than the unit
  have last : lastPlace (n * 2 ^ e) ≤ e := by
    have first := (log_lt_iff size (e + 24)).mpr below
    rw [lastPlace, abs_of_pos size]
    omega
  obtain ⟨k, place⟩ : ∃ k : ℕ, e = lastPlace (n * 2 ^ e) + k :=
    ⟨(e - lastPlace (n * 2 ^ e)).toNat, by omega⟩
  have still : roundReal (n * 2 ^ e) = n * 2 ^ e := by
    refine roundReal_of_multiple (n := n * 2 ^ k) ?_
    conv_lhs => rw [place, zpow_add₀ two_ne_zero, zpow_natCast]
    push_cast
    ring
  rw [Stays, rounded_coe, still, overflow_of_abs_lt]
  rw [abs_of_pos size]
  calc (n : ℝ) * 2 ^ e < 2 ^ (e + 24) := below
    _ ≤ 2 ^ (128 : ℤ) := zpow_le_zpow_right₀ one_le_two (by omega)
    _ = 2 ^ 128 := by norm_num

theorem stays_zpow {k : ℤ} (least : -149 ≤ k) (most : k ≤ 127) : Stays (2 ^ k) := by
  obtain low | high := le_or_gt k 104
  · have := stays_natCast_mul (n := 1) (by norm_num) least low
    rwa [Nat.cast_one, one_mul] at this
  · have := stays_natCast_mul (n := 2 ^ 23) (e := k - 23) (by norm_num) (by omega) (by omega)
    rwa [Nat.cast_pow, Nat.cast_ofNat, ← zpow_natCast, ← zpow_add₀ two_ne_zero, Nat.cast_ofNat,
      add_sub_cancel] at this

/-- Adding no more than 1 does not overflow: it is nothing to the numbers that are near the largest
one. -/
theorem Stays.exists_rounded_add (h : Stays r) (nonneg : 0 ≤ s) (small : s ≤ 1) :
    ∃ t : ℝ, rounded (r + s : ℝ) = t ∧ r ≤ t := by
  have above := h.le_roundReal (le_add_of_nonneg_right nonneg)
  have below : roundReal (r + s) < 2 ^ 128 := by
    -- past `2 ^ 30` half a last place is more than 1, so the sum is rounded back at most
    obtain few | many := le_or_gt r (2 ^ (30 : ℤ))
    · have most : r + s ≤ 2 ^ (31 : ℤ) := by
        norm_num at few ⊢
        linarith
      calc roundReal (r + s) ≤ roundReal (2 ^ (31 : ℤ)) := roundReal_mono most
        _ = 2 ^ (31 : ℤ) := (stays_zpow (by norm_num) (by norm_num)).roundReal_eq
        _ < 2 ^ 128 := by norm_num
    · have pos : 0 < r := lt_trans (by positivity) many
      have place : 7 ≤ lastPlace r := by
        have :=
          (zpow_lt_zpow_iff_right₀ (one_lt_two (α := ℝ))).mp
            (many.trans (lt_two_zpow_lastPlace pos))
        omega
      have half : (1 : ℝ) < 2 ^ lastPlace r / 2 := by
        calc (1 : ℝ) < 2 ^ (7 : ℤ) / 2 := by norm_num
          _ ≤ 2 ^ lastPlace r / 2 := by
              gcongr
              exact one_le_two
      exact (h.roundReal_le pos (by linarith)).trans_lt ((le_abs_self r).trans_lt h.abs.lt)
  exact ⟨_, overflow_of_abs_lt (abs_lt.mpr ⟨(abs_lt.mp h.abs.lt).1.trans_le above, below⟩), above⟩

end RayTracer.Number
