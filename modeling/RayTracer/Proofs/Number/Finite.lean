import RayTracer.Proofs.Number.Bounds

/-! # Finite numbers

* `Reads x r`: `x` is the finite number `r`. What an operation makes of finite numbers is the
  rounded exact result, and a finite result has finite operands (`reads_of_add` and its like).
* `Bounded b x`: `x` is finite and at most `b` in magnitude. A bound that rounding leaves alone is
  kept by it, so bounds multiply and add up without an error term.
* `Clash` and `Cancel`: the two ways in which an operation on numbers has no number as its result.
  Among numbers from zero up only the first is left (`zero_le_mul_iff`, `not_cancel`).
-/

namespace RayTracer.Number

open Float.Model (UnpackedFloat)

variable {x y : Float32} {r s a b : ℝ}

/-! ## Finite numbers -/

/-- The finite number `r`. -/
structure Reads (x : Float32) (r : ℝ) : Prop where
  number : IsNumber x
  value : value x = r

theorem Reads.unique (h : Reads x r) (h' : Reads x s) : r = s :=
  EReal.coe_eq_coe_iff.mp (h.value.symm.trans h'.value)

theorem Reads.lt_iff (hx : Reads x r) (hy : Reads y s) : x < y ↔ r < s := by
  rw [Number.lt_iff, hx.value, hy.value, EReal.coe_lt_coe_iff]
  exact ⟨fun h => h.2.2, fun h => ⟨hx.number, hy.number, h⟩⟩

theorem Reads.le_iff (hx : Reads x r) (hy : Reads y s) : x ≤ y ↔ r ≤ s := by
  rw [Number.le_iff, hx.value, hy.value, EReal.coe_le_coe_iff]
  exact ⟨fun h => h.2.2, fun h => ⟨hx.number, hy.number, h⟩⟩

theorem Reads.beq_iff (hx : Reads x r) (hy : Reads y s) : (x == y) = true ↔ r = s := by
  rw [Number.beq_iff, hx.value, hy.value, EReal.coe_eq_coe_iff]
  exact ⟨fun h => h.2.2, fun h => ⟨hx.number, hy.number, h⟩⟩

theorem Reads.minNum (hx : Reads x r) (hy : Reads y s) : Reads (Number.minNum x y) (min r s) :=
  ⟨isNumber_minNum hy.number, by rw [value_minNum hx.number hy.number, hx.value, hy.value,
    EReal.coe_strictMono.monotone.map_min]⟩

theorem Reads.maxNum (hx : Reads x r) (hy : Reads y s) : Reads (Number.maxNum x y) (max r s) :=
  ⟨isNumber_maxNum hy.number, by rw [value_maxNum hx.number hy.number, hx.value, hy.value,
    EReal.coe_strictMono.monotone.map_max]⟩

theorem isFinite_iff : x.isFinite = true ↔ IsNumber x ∧ value x ≠ ⊤ ∧ value x ≠ ⊥ := by
  refine ⟨fun h => ⟨isNumber_of_isFinite h, value_ne_infinity h⟩,
    fun ⟨number, notTop, notBot⟩ => ?_⟩
  rw [isNumber_iff] at number
  show (parts x).isFinite = true
  unfold value at notTop notBot
  cases h : parts x with
  | notANumber => exact absurd h number
  | infinity s =>
    rw [h] at notTop notBot
    cases s
    · exact absurd rfl notBot
    · exact absurd rfl notTop
  | zero s => rfl
  | finite s m e pos => rfl

theorem exists_reads_iff : (∃ r, Reads x r) ↔ x.isFinite = true := by
  rw [isFinite_iff]
  constructor
  · rintro ⟨r, number, value⟩
    exact ⟨number, value ▸ EReal.coe_ne_top r, value ▸ EReal.coe_ne_bot r⟩
  · rintro ⟨number, notTop, notBot⟩
    exact ⟨_, number, (EReal.coe_toReal notTop notBot).symm⟩

theorem reads_of_mem (number : IsNumber x) (low : a ≤ value x) (high : value x ≤ b) :
    ∃ r, Reads x r ∧ a ≤ r ∧ r ≤ b := by
  have notBot : value x ≠ ⊥ := ((EReal.bot_lt_coe a).trans_le low).ne'
  have notTop : value x ≠ ⊤ := (high.trans_lt (EReal.coe_lt_top b)).ne
  have real := EReal.coe_toReal notTop notBot
  refine ⟨_, ⟨number, real.symm⟩, ?_, ?_⟩
  · rwa [← real, EReal.coe_le_coe_iff] at low
  · rwa [← real, EReal.coe_le_coe_iff] at high

theorem Reads.stays (h : Reads x r) : Stays r := by
  rw [Stays, ← h.value]
  exact rounded_partsValue (stored_parts x)

theorem Reads.add (hx : Reads x r) (hy : Reads y s) :
    IsNumber (x + y) ∧ Number.value (x + y) = rounded (r + s : ℝ) := by
  have number : IsNumber (x + y) := by
    refine add_isNumber_iff.mpr ⟨hx.number, hy.number, ?_, ?_⟩
    · exact fun infinite => EReal.coe_ne_top r (hx.value.symm.trans infinite.1)
    · exact fun infinite => EReal.coe_ne_bot r (hx.value.symm.trans infinite.1)
  exact ⟨number, by rw [value_add number, hx.value, hy.value, EReal.coe_add]⟩

theorem Reads.neg (hx : Reads x r) : Reads (-x) (-r) :=
  ⟨isNumber_neg_iff.mpr hx.number, by rw [value_neg, hx.value, EReal.coe_neg]⟩

theorem Reads.sub (hx : Reads x r) (hy : Reads y s) :
    IsNumber (x - y) ∧ Number.value (x - y) = rounded (r - s : ℝ) := by
  have number : IsNumber (x - y) :=
    isNumber_sub_of_isFinite hx.number (exists_reads_iff.mp ⟨s, hy⟩)
  exact ⟨number, by rw [value_sub number, hx.value, hy.value, EReal.coe_sub]⟩

theorem Reads.mul (hx : Reads x r) (hy : Reads y s) :
    IsNumber (x * y) ∧ Number.value (x * y) = rounded (r * s : ℝ) := by
  have finiteX : ¬(Number.value x = ⊤ ∨ Number.value x = ⊥) := by simp [hx.value]
  have finiteY : ¬(Number.value y = ⊤ ∨ Number.value y = ⊥) := by simp [hy.value]
  have number : IsNumber (x * y) :=
    mul_isNumber_iff.mpr ⟨hx.number, hy.number, fun h => finiteY h.2, fun h => finiteX h.1⟩
  exact ⟨number, by rw [value_mul number, hx.value, hy.value, EReal.coe_mul]⟩

/-! ## Magnitudes -/

theorem stored_abs {u : UnpackedFloat} (h : Stored u) : Stored u.abs := by
  cases h with
  | notANumber => exact .notANumber
  | infinity s => exact .infinity .positive
  | zero s => exact .zero .positive
  | finite s pos place fits => exact .finite .positive pos place fits

theorem parts_abs (x : Float32) : parts x.abs = (parts x).abs :=
  stored_of_stored (stored_abs (stored_parts x))

theorem Reads.abs (h : Reads x r) : Reads x.abs |r| := by
  have number := (isNumber_iff x).mp h.number
  have same : partsValue (parts x) = r := h.value
  have result := parts_abs x
  cases parts : parts x with
  | notANumber => exact absurd parts number
  | infinity s =>
    rw [parts] at same
    cases s
    · exact absurd same.symm (EReal.coe_ne_bot r)
    · exact absurd same.symm (EReal.coe_ne_top r)
  | zero s =>
    rw [parts] at same result
    obtain rfl : r = 0 := EReal.coe_eq_zero.mp same.symm
    refine ⟨(isNumber_iff _).mpr (result ▸ zero_ne_notANumber .positive), ?_⟩
    rw [Number.value, result, abs_zero]
    rfl
  | finite s m e pos =>
    rw [parts] at same result
    obtain rfl : r = signed s (m * 2 ^ e) := (EReal.coe_eq_coe_iff.mp same).symm
    refine ⟨(isNumber_iff _).mpr (result ▸ finite_ne_notANumber .positive pos), ?_⟩
    rw [Number.value, result, abs_signed, abs_of_pos (magnitude_pos pos e)]
    rfl

/-! ## Differences -/

/-- Different numbers are apart by the lowest last place, so no difference is lost in rounding. -/
theorem rounded_sub_pos (hr : Stays r) (hs : Stays s) (h : s < r) : 0 < rounded (r - s : ℝ) := by
  obtain ⟨m, rfl⟩ := hr.exists_multiple (least_le_lastPlace r)
  obtain ⟨n, rfl⟩ := hs.exists_multiple (least_le_lastPlace s)
  have unit : (0 : ℝ) < 2 ^ (-149 : ℤ) := by positivity
  have apart : (1 : ℝ) ≤ m - n := by
    have : n < m := by exact_mod_cast (mul_lt_mul_iff_left₀ unit).mp h
    exact_mod_cast (show (1 : ℤ) ≤ m - n by omega)
  have least : (2 : ℝ) ^ (-149 : ℤ) ≤ m * 2 ^ (-149 : ℤ) - n * 2 ^ (-149 : ℤ) := by
    rw [← sub_mul]
    exact le_mul_of_one_le_left unit.le apart
  have stays := stays_zpow (k := -149) (by norm_num) (by norm_num)
  calc (0 : EReal) < (2 ^ (-149 : ℤ) : ℝ) := EReal.coe_pos.mpr unit
    _ = rounded (2 ^ (-149 : ℤ) : ℝ) := stays.symm
    _ ≤ _ := rounded_mono (EReal.coe_le_coe_iff.mpr least)

theorem value_sub_pos_iff (hx : x.isFinite = true) (hy : y.isFinite = true) :
    0 < value (x - y) ↔ y < x := by
  obtain ⟨r, readsX⟩ := exists_reads_iff.mpr hx
  obtain ⟨s, readsY⟩ := exists_reads_iff.mpr hy
  rw [(readsX.sub readsY).2, readsY.lt_iff readsX]
  refine ⟨fun pos => lt_of_not_ge fun le => pos.not_ge ?_,
    rounded_sub_pos readsX.stays readsY.stays⟩
  rw [← rounded_zero]
  exact rounded_mono (EReal.coe_nonpos.mpr (sub_nonpos.mpr le))

theorem value_sub_neg_iff (hx : x.isFinite = true) (hy : y.isFinite = true) :
    value (x - y) < 0 ↔ x < y := by
  obtain ⟨r, readsX⟩ := exists_reads_iff.mpr hx
  obtain ⟨s, readsY⟩ := exists_reads_iff.mpr hy
  rw [← value_sub_pos_iff hy hx, (readsX.sub readsY).2, (readsY.sub readsX).2, ← neg_sub,
    EReal.coe_neg, rounded_neg]
  exact EReal.neg_lt_zero

/-! ## Bounded numbers -/

/-- A finite number of magnitude at most `b`. -/
def Bounded (b : ℝ) (x : Float32) : Prop := ∃ r, Reads x r ∧ |r| ≤ b

theorem Bounded.isFinite (h : Bounded b x) : x.isFinite = true := by
  obtain ⟨r, reads, -⟩ := h
  exact exists_reads_iff.mp ⟨r, reads⟩

theorem Bounded.neg (h : Bounded b x) : Bounded b (-x) := by
  obtain ⟨r, reads, small⟩ := h
  exact ⟨-r, reads.neg, (abs_neg r).trans_le small⟩

theorem bounded_zero (nonneg : 0 ≤ b) : Bounded b 0 := ⟨0, ⟨rfl, rfl⟩, by rwa [abs_zero]⟩

/-- A rounded number does not pass a bound that rounding leaves alone. -/
theorem Bounded.of_rounded (number : IsNumber x) (value : value x = rounded r) (small : |r| ≤ b)
    (stays : Stays b) :
    Bounded b x := by
  obtain ⟨low, high⟩ := abs_le.mp small
  have opposite : rounded (-b : ℝ) = (-b : ℝ) := by
    rw [EReal.coe_neg, rounded_neg, stays]
  obtain ⟨q, reads, above, below⟩ := reads_of_mem (a := -b) (b := b) number
    (by rw [value, ← opposite]; exact rounded_mono (EReal.coe_le_coe_iff.mpr low))
    (by rw [value, ← stays]; exact rounded_mono (EReal.coe_le_coe_iff.mpr high))
  exact ⟨q, reads, abs_le.mpr ⟨above, below⟩⟩

theorem Bounded.add (hx : Bounded a x) (hy : Bounded b y) (stays : Stays (a + b)) :
    Bounded (a + b) (x + y) := by
  obtain ⟨r, readsX, smallX⟩ := hx
  obtain ⟨s, readsY, smallY⟩ := hy
  obtain ⟨number, value⟩ := readsX.add readsY
  exact .of_rounded number value ((abs_add_le r s).trans (add_le_add smallX smallY)) stays

theorem Bounded.mul (hx : Bounded a x) (hy : Bounded b y) (stays : Stays (a * b)) :
    Bounded (a * b) (x * y) := by
  obtain ⟨r, readsX, smallX⟩ := hx
  obtain ⟨s, readsY, smallY⟩ := hy
  obtain ⟨number, value⟩ := readsX.mul readsY
  refine .of_rounded number value ?_ stays
  rw [abs_mul]
  exact mul_le_mul smallX smallY (abs_nonneg s) ((abs_nonneg r).trans smallX)

/-! ## Results that are no numbers -/

/-- One of the two is zero and the other one infinite, so they have no product. -/
def Clash (x y : Float32) : Prop := x == 0 ∧ y.isInf ∨ x.isInf ∧ y == 0

instance : Decidable (Clash x y) := inferInstanceAs (Decidable (_ ∨ _))

/-- The two are infinities of opposite signs, so they have no sum. -/
def Cancel (x y : Float32) : Prop := x.isInf ∧ y == -x

instance : Decidable (Cancel x y) := inferInstanceAs (Decidable (_ ∧ _))

theorem Clash.symm (h : Clash x y) : Clash y x := (Or.symm h).imp And.symm And.symm

theorem isInf_iff : x.isInf = true ↔ value x = ⊤ ∨ value x = ⊥ := by
  show (parts x).isInf = true ↔ _
  unfold value
  cases parts x with
  | notANumber | zero s => exact iff_of_false Bool.false_ne_true (by simp [partsValue])
  | infinity s =>
    refine iff_of_true rfl ?_
    cases s
    · exact .inr rfl
    · exact .inl rfl
  | finite s m e pos =>
    exact iff_of_false Bool.false_ne_true fun infinite =>
      infinite.elim (EReal.coe_ne_top _) (EReal.coe_ne_bot _)

theorem beq_zero_iff (number : IsNumber x) : (x == 0) = true ↔ value x = 0 := by
  have zero : value 0 = 0 := rfl
  rw [beq_iff, zero]
  exact ⟨fun h => h.2.2, fun h => ⟨number, rfl, h⟩⟩

theorem isNumber_mul_iff_not_clash : IsNumber (x * y) ↔ IsNumber x ∧ IsNumber y ∧ ¬Clash x y := by
  rw [mul_isNumber_iff]
  refine and_congr_right fun hx => and_congr_right fun hy => ?_
  rw [Clash, beq_zero_iff hx, beq_zero_iff hy, isInf_iff, isInf_iff, not_or]

theorem isNumber_add_iff_not_cancel : IsNumber (x + y) ↔ IsNumber x ∧ IsNumber y ∧ ¬Cancel x y := by
  rw [add_isNumber_iff]
  refine and_congr_right fun hx => and_congr_right fun hy => ?_
  have opposite : (y == -x) = true ↔ value y = -value x := by
    rw [beq_iff, value_neg]
    exact ⟨fun h => h.2.2, fun h => ⟨hy, isNumber_neg_iff.mpr hx, h⟩⟩
  rw [Cancel, isInf_iff, opposite]
  constructor
  · rintro ⟨up, down⟩ ⟨top | bot, same⟩
    · exact up ⟨top, by rw [same, top, EReal.neg_top]⟩
    · exact down ⟨bot, by rw [same, bot, EReal.neg_bot]⟩
  · intro apart
    refine ⟨?_, ?_⟩
    · exact fun ⟨top, bot⟩ => apart ⟨.inl top, by rw [top, bot, EReal.neg_top]⟩
    · exact fun ⟨bot, top⟩ => apart ⟨.inr bot, by rw [top, bot, EReal.neg_bot]⟩

theorem not_isInf_of_isFinite (h : x.isFinite = true) : ¬x.isInf = true := by
  obtain ⟨-, notTop, notBot⟩ := isFinite_iff.mp h
  rw [isInf_iff, not_or]
  exact ⟨notTop, notBot⟩

theorem not_clash_of_isFinite (hx : x.isFinite = true) (hy : y.isFinite = true) : ¬Clash x y := by
  rintro (⟨-, infinite⟩ | ⟨infinite, -⟩)
  · exact not_isInf_of_isFinite hy infinite
  · exact not_isInf_of_isFinite hx infinite

theorem isNumber_mul_of_isFinite (hx : x.isFinite = true) (hy : y.isFinite = true) :
    IsNumber (x * y) :=
  isNumber_mul_iff_not_clash.mpr ⟨isNumber_of_isFinite hx, isNumber_of_isFinite hy,
    not_clash_of_isFinite hx hy⟩

theorem isNumber_add_iff_of_isFinite (hx : x.isFinite = true) : IsNumber (x + y) ↔ IsNumber y := by
  rw [isNumber_add_iff_not_cancel]
  exact ⟨fun h => h.2.1, fun h =>
    ⟨isNumber_of_isFinite hx, h, fun opposite => not_isInf_of_isFinite hx opposite.1⟩⟩

theorem value_mul_zero (number : IsNumber (x * 0)) : value (x * 0) = 0 := by
  have zero : value 0 = 0 := rfl
  rw [value_mul number, zero, mul_zero, rounded_zero]

/-- A product with an infinity, read as a lower end: where it is NaN it counts as the lower
infinity. -/
theorem lowValue_mul_infinite (hx : IsNumber x) (hy : IsNumber y) (infinite : y.isInf = true) :
    lowValue (x * y) = if 0 < value x * value y then ⊤ else ⊥ := by
  rw [isInf_iff] at infinite
  have nonzero : value y ≠ 0 := by
    rintro zero
    simp [zero] at infinite
  by_cases number : IsNumber (x * y)
  · rw [lowValue_eq number, value_mul_infinite number infinite]
  · obtain ⟨zero, -⟩ := eq_zero_of_mul hx hy nonzero number
    rw [lowValue, if_neg number, zero, zero_mul, if_neg (lt_irrefl 0)]

theorem highValue_mul_infinite (hx : IsNumber x) (hy : IsNumber y) (infinite : y.isInf = true) :
    highValue (x * y) = if value x * value y < 0 then ⊥ else ⊤ := by
  rw [isInf_iff] at infinite
  have nonzero : value y ≠ 0 := by
    rintro zero
    simp [zero] at infinite
  by_cases number : IsNumber (x * y)
  · have notZero : value x ≠ 0 := fun zero => (mul_isNumber_iff.mp number).2.2.1 ⟨zero, infinite⟩
    rw [highValue_eq number, value_mul_infinite number infinite]
    obtain below | above := (mul_ne_zero notZero nonzero).lt_or_gt
    · rw [if_pos below, if_neg below.not_gt]
    · rw [if_neg above.not_gt, if_pos above]
  · obtain ⟨zero, -⟩ := eq_zero_of_mul hx hy nonzero number
    rw [highValue, if_neg number, zero, zero_mul, if_neg (lt_irrefl 0)]

/-- A multiple of zero is zero or NaN. -/
theorem not_cancel_mul_zero (x y : Float32) : ¬Cancel x (y * 0) := by
  rintro ⟨infinite, same⟩
  rw [isInf_iff] at infinite
  rw [beq_iff, value_neg] at same
  have none : value x = 0 := by
    rw [← neg_neg (value x), ← same.2.2, value_mul_zero same.1, neg_zero]
  rw [none] at infinite
  simp at infinite

/-! ## Numbers from zero up -/

theorem zero_le_iff : 0 ≤ x ↔ IsNumber x ∧ 0 ≤ value x := by
  have zero : value 0 = 0 := rfl
  rw [le_iff, zero]
  exact ⟨fun h => h.2, fun h => ⟨rfl, h⟩⟩

theorem zero_lt_iff : 0 < x ↔ IsNumber x ∧ 0 < value x := by
  have zero : value 0 = 0 := rfl
  rw [lt_iff, zero]
  exact ⟨fun h => h.2, fun h => ⟨rfl, h⟩⟩

theorem zero_le_of_pos (h : 0 < x) : 0 ≤ x :=
  zero_le_iff.mpr ((zero_lt_iff.mp h).imp_right le_of_lt)

theorem bounded_of_le (least : 0 ≤ x) (most : x ≤ y) (reads : Reads y b) : Bounded b x := by
  obtain ⟨number, nonneg⟩ := zero_le_iff.mp least
  have below := ((le_iff _ _).mp most).2.2
  rw [reads.value] at below
  obtain ⟨r, reads, low, high⟩ := reads_of_mem (a := 0) number nonneg below
  exact ⟨r, reads, by rwa [abs_of_nonneg low]⟩

theorem reads_of_between {z : Float32} (low : x ≤ y) (high : y ≤ z) (hx : Reads x a)
    (hz : Reads z b) :
    ∃ r, Reads y r ∧ a ≤ r ∧ r ≤ b := by
  obtain ⟨-, number, above⟩ := (le_iff _ _).mp low
  have below := ((le_iff _ _).mp high).2.2
  rw [hx.value] at above
  rw [hz.value] at below
  exact reads_of_mem number above below

/-- What overflows is larger than every finite number. -/
theorem le_roundReal_of_le (hx : Reads x r) (hy : value y = rounded s) (le : x ≤ y) :
    r ≤ roundReal s := by
  have below := ((le_iff _ _).mp le).2.2
  rw [hx.value, hy, rounded_coe, overflow] at below
  split_ifs at below with huge tiny
  · exact hx.stays.lt.le.trans huge
  · exact absurd below (not_le.mpr (EReal.bot_lt_coe r))
  · exact EReal.coe_le_coe_iff.mp below

theorem roundReal_le_of_le (hx : value x = rounded r) (hy : Reads y s) (le : x ≤ y) :
    roundReal r ≤ s := by
  have below := ((le_iff _ _).mp le).2.2
  rw [hx, hy.value, rounded_coe, overflow] at below
  split_ifs at below with huge tiny
  · exact absurd below (not_le.mpr (EReal.coe_lt_top s))
  · have := hy.neg.stays.lt
    linarith
  · exact EReal.coe_le_coe_iff.mp below

theorem rounded_nonneg {x : EReal} (h : 0 ≤ x) : 0 ≤ rounded x := by
  rw [← rounded_zero]
  exact rounded_mono h

theorem zero_le_add (hx : 0 ≤ x) (hy : 0 ≤ y) : 0 ≤ x + y := by
  obtain ⟨numberX, nonnegX⟩ := zero_le_iff.mp hx
  obtain ⟨numberY, nonnegY⟩ := zero_le_iff.mp hy
  have number : IsNumber (x + y) := by
    refine add_isNumber_iff.mpr ⟨numberX, numberY, ?_, ?_⟩
    · exact fun infinite => EReal.bot_lt_zero.not_ge (nonnegY.trans_eq infinite.2)
    · exact fun infinite => EReal.bot_lt_zero.not_ge (nonnegX.trans_eq infinite.1)
  refine zero_le_iff.mpr ⟨number, ?_⟩
  rw [value_add number]
  exact rounded_nonneg (add_nonneg nonnegX nonnegY)

theorem zero_le_mul_iff (hx : 0 ≤ x) (hy : 0 ≤ y) : 0 ≤ x * y ↔ ¬Clash x y := by
  obtain ⟨numberX, nonnegX⟩ := zero_le_iff.mp hx
  obtain ⟨numberY, nonnegY⟩ := zero_le_iff.mp hy
  have defined : IsNumber (x * y) ↔ ¬Clash x y := by
    simp [isNumber_mul_iff_not_clash, numberX, numberY]
  rw [zero_le_iff, defined]
  refine ⟨And.left, fun apart => ⟨apart, ?_⟩⟩
  rw [value_mul (defined.mpr apart)]
  exact rounded_nonneg (EReal.mul_nonneg nonnegX nonnegY)

theorem not_cancel (hx : 0 ≤ x) (hy : 0 ≤ y) : ¬Cancel x y :=
  (isNumber_add_iff_not_cancel.mp (zero_le_iff.mp (zero_le_add hx hy)).1).2.2

/-- A factor that is positive and finite is no obstacle to a product. -/
theorem not_clash_of_pos (hx : 0 < x) (finite : x.isFinite = true) : ¬Clash x y := by
  obtain ⟨number, positive⟩ := zero_lt_iff.mp hx
  rintro (⟨zero, -⟩ | ⟨infinite, -⟩)
  · exact positive.ne' ((beq_zero_iff number).mp zero)
  · exact not_isInf_of_isFinite finite infinite

theorem isNumber_mul_iff_of_pos (hx : 0 < x) (finite : x.isFinite = true) :
    IsNumber (x * y) ↔ IsNumber y := by
  rw [isNumber_mul_iff_not_clash]
  exact ⟨fun h => h.2.1, fun h => ⟨isNumber_of_isFinite finite, h, not_clash_of_pos hx finite⟩⟩

/-! ## Operands of finite results -/

theorem exists_reads_of_value (number : IsNumber x) (notTop : value x ≠ ⊤) (notBot : value x ≠ ⊥) :
    ∃ a, Reads x a :=
  ⟨_, number, (EReal.coe_toReal notTop notBot).symm⟩

theorem reads_of_add (h : Reads (x + y) r) :
    ∃ a b, Reads x a ∧ Reads y b ∧ roundReal (a + b) = r := by
  obtain ⟨numberX, numberY, up, down⟩ := add_isNumber_iff.mp h.number
  have sum := value_add h.number
  rw [h.value] at sum
  have notTop : value x + value y ≠ ⊤ := fun top => by
    rw [top] at sum
    exact EReal.coe_ne_top r sum
  have notBot : value x + value y ≠ ⊥ := fun bot => by
    rw [bot] at sum
    exact EReal.coe_ne_bot r sum
  rw [ne_eq, EReal.add_eq_bot_iff, not_or] at notBot
  -- an infinite summand makes the sum infinite, since the other one is not its opposite
  have topX : value x ≠ ⊤ := fun top => notTop (by rw [top, EReal.top_add_of_ne_bot notBot.2])
  have topY : value y ≠ ⊤ := fun top => notTop (by rw [top, EReal.add_top_of_ne_bot notBot.1])
  obtain ⟨a, readsX⟩ := exists_reads_of_value numberX topX notBot.1
  obtain ⟨b, readsY⟩ := exists_reads_of_value numberY topY notBot.2
  refine ⟨a, b, readsX, readsY, roundReal_eq_of_rounded ?_⟩
  rw [EReal.coe_add, ← readsX.value, ← readsY.value, sum]

theorem reads_of_neg (h : Reads (-x) r) : Reads x (-r) :=
  ⟨isNumber_neg_iff.mp h.number, by rw [EReal.coe_neg, ← h.value, value_neg, neg_neg]⟩

theorem reads_of_sub (h : Reads (x - y) r) :
    ∃ a b, Reads x a ∧ Reads y b ∧ roundReal (a - b) = r := by
  have sum : Reads (x + -y) r := by
    refine ⟨?_, ?_⟩
    · rw [isNumber_iff, ← sub_eq_add_neg, ← isNumber_iff]
      exact h.number
    · rw [value, ← sub_eq_add_neg, ← value]
      exact h.value
  obtain ⟨a, b, readsX, readsY, rounds⟩ := reads_of_add sum
  exact ⟨a, -b, readsX, reads_of_neg readsY, by rwa [sub_neg_eq_add]⟩

/-- A product with an infinity is infinite, unless the other factor is zero. -/
theorem left_finite_of_mul {p q : EReal} (notZero : ¬((p = ⊤ ∨ p = ⊥) ∧ q = 0)) (notTop : p * q ≠ ⊤)
    (notBot : p * q ≠ ⊥) : p ≠ ⊤ ∧ p ≠ ⊥ := by
  refine ⟨?_, ?_⟩
  all_goals
    rintro rfl
    obtain below | zero | above := lt_trichotomy q 0
  · exact notBot (EReal.top_mul_of_neg below)
  · exact notZero ⟨.inl rfl, zero⟩
  · exact notTop (EReal.top_mul_of_pos above)
  · exact notTop (EReal.bot_mul_of_neg below)
  · exact notZero ⟨.inr rfl, zero⟩
  · exact notBot (EReal.bot_mul_of_pos above)

theorem reads_of_mul (h : Reads (x * y) r) :
    ∃ a b, Reads x a ∧ Reads y b ∧ roundReal (a * b) = r := by
  obtain ⟨numberX, numberY, zeroX, zeroY⟩ := mul_isNumber_iff.mp h.number
  have product := value_mul h.number
  rw [h.value] at product
  have notTop : value x * value y ≠ ⊤ := fun top => by
    rw [top] at product
    exact EReal.coe_ne_top r product
  have notBot : value x * value y ≠ ⊥ := fun bot => by
    rw [bot] at product
    exact EReal.coe_ne_bot r product
  obtain ⟨topX, botX⟩ := left_finite_of_mul zeroY notTop notBot
  rw [mul_comm] at notTop notBot
  obtain ⟨topY, botY⟩ := left_finite_of_mul (fun h => zeroX h.symm) notTop notBot
  obtain ⟨a, readsX⟩ := exists_reads_of_value numberX topX botX
  obtain ⟨b, readsY⟩ := exists_reads_of_value numberY topY botY
  refine ⟨a, b, readsX, readsY, roundReal_eq_of_rounded ?_⟩
  rw [EReal.coe_mul, ← readsX.value, ← readsY.value, product]

/-- To divide by a finite number other than zero is to multiply by its reciprocal. -/
theorem inverse_eq {b : ℝ} (h : Reads y b) (nonzero : b ≠ 0) : inverse y = (b⁻¹ : ℝ) := by
  have value : partsValue (parts y) = b := h.value
  unfold inverse
  cases parts : parts y with
  | notANumber => exact absurd parts ((isNumber_iff y).mp h.number)
  | infinity s | finite s =>
    rw [parts] at value
    rw [partsInverse, value, EReal.coe_inv]
    nofun
  | zero s =>
    rw [parts] at value
    exact absurd (EReal.coe_eq_coe_iff.mp value).symm nonzero

theorem Reads.div {b : ℝ} (hx : Reads x r) (hy : Reads y b) (nonzero : b ≠ 0) :
    IsNumber (x / y) ∧ Number.value (x / y) = rounded (r / b : ℝ) := by
  have finiteX : ¬(Number.value x = ⊤ ∨ Number.value x = ⊥) := by simp [hx.value]
  have divisor : Number.value y ≠ 0 := by
    rw [hy.value]
    exact EReal.coe_ne_zero.mpr nonzero
  have number : IsNumber (x / y) :=
    isNumber_div_iff.mpr ⟨(isNumber_iff x).mp hx.number, (isNumber_iff y).mp hy.number,
      fun zeros => divisor zeros.2, fun infinities => finiteX infinities.1⟩
  exact ⟨number, by rw [value_div number, hx.value, inverse_eq hy nonzero, div_eq_mul_inv,
    EReal.coe_mul]⟩

theorem Reads.one_div {b : ℝ} (h : Reads y b) (nonzero : b ≠ 0) :
    IsNumber (1 / y) ∧ Number.value (1 / y) = rounded (b⁻¹ : ℝ) := by
  have number := isNumber_one_div h.number
  exact ⟨number, by rw [value_div number, value_one, one_mul, inverse_eq h nonzero]⟩

theorem isInf_one_div_zero (h : Reads y 0) : (1 / y).isInf = true := by
  have zero : partsValue (parts y) = 0 := h.value
  rw [isInf_iff, value_div (isNumber_one_div h.number), value_one, one_mul, inverse]
  have number := (isNumber_iff y).mp h.number
  cases parts : parts y with
  | notANumber => exact absurd parts number
  | infinity s =>
    rw [parts] at zero
    cases s <;> simp [partsValue] at zero
  | zero s =>
    cases s
    · exact .inr rfl
    · exact .inl rfl
  | finite s m e pos =>
    rw [parts] at zero
    exact absurd zero (partsValue_finite_ne_zero s e pos)

theorem reads_of_div {b : ℝ} (h : Reads (x / y) r) (hy : Reads y b) (nonzero : b ≠ 0) :
    ∃ a, Reads x a ∧ roundReal (a / b) = r := by
  have quotient := value_div h.number
  rw [h.value, inverse_eq hy nonzero] at quotient
  have notTop : value x * (b⁻¹ : ℝ) ≠ ⊤ := fun top => by
    rw [top] at quotient
    exact EReal.coe_ne_top r quotient
  have notBot : value x * (b⁻¹ : ℝ) ≠ ⊥ := fun bot => by
    rw [bot] at quotient
    exact EReal.coe_ne_bot r quotient
  have reciprocal : ((b⁻¹ : ℝ) : EReal) ≠ 0 := EReal.coe_ne_zero.mpr (inv_ne_zero nonzero)
  obtain ⟨top, bot⟩ := left_finite_of_mul (fun h => reciprocal h.2) notTop notBot
  obtain ⟨a, reads⟩ := exists_reads_of_value (isNumber_of_div h.number).1 top bot
  refine ⟨a, reads, roundReal_eq_of_rounded ?_⟩
  rw [div_eq_mul_inv, EReal.coe_mul, ← reads.value, quotient]

theorem zero_le_mul_self (number : IsNumber (x * x)) : 0 ≤ x * x := by
  refine zero_le_iff.mpr ⟨number, ?_⟩
  rw [value_mul number]
  refine rounded_nonneg ?_
  obtain nonneg | nonpos := le_total 0 (value x)
  · exact EReal.mul_nonneg nonneg nonneg
  · exact EReal.mul_nonneg_iff.mpr (.inr ⟨nonpos, nonpos⟩)

theorem Reads.nonneg (h : Reads x r) (nonneg : 0 ≤ x) : 0 ≤ r := by
  have := (zero_le_iff.mp nonneg).2
  rwa [h.value, EReal.coe_nonneg] at this

theorem reads_of_sqrt (h : Reads x.sqrt r) : ∃ a, Reads x a ∧ 0 ≤ a ∧ roundReal √a = r := by
  obtain ⟨number, nonneg⟩ := isNumber_sqrt_iff.mp h.number
  have square := value_sqrt h.number
  rw [h.value] at square
  have notTop : value x ≠ ⊤ := fun top => by
    rw [top] at square
    exact EReal.coe_ne_top r square
  have notBot : value x ≠ ⊥ := (EReal.bot_lt_zero.trans_le nonneg).ne'
  obtain ⟨a, value⟩ : ∃ a : ℝ, value x = a := ⟨_, (EReal.coe_toReal notTop notBot).symm⟩
  rw [value] at square nonneg
  exact ⟨a, ⟨(isNumber_iff x).mpr number, value⟩, EReal.coe_nonneg.mp nonneg,
    roundReal_eq_of_rounded square.symm⟩

theorem reads_of_reciprocal (h : Reads (1 / x) r) (pos : 0 < r) :
    ∃ a, Reads x a ∧ 0 < a ∧ roundReal a⁻¹ = r := by
  obtain ⟨-, number⟩ := isNumber_of_div h.number
  have quotient := value_div h.number
  rw [h.value, value_one, one_mul, inverse] at quotient
  have numberParts := (isNumber_iff x).mp number
  have positive : 0 < rounded (partsInverse (parts x)) := quotient ▸ EReal.coe_pos.mpr pos
  have read : value x = partsValue (parts x) := rfl
  generalize parts x = u at *
  -- the reciprocals of infinities are zero, those of zeros infinite
  cases u with
  | notANumber => exact absurd rfl numberParts
  | infinity s =>
    rw [partsInverse_infinity, rounded_zero] at positive
    exact absurd positive (lt_irrefl 0)
  | zero s =>
    cases s
    · exact absurd quotient (EReal.coe_ne_bot r)
    · exact absurd quotient (EReal.coe_ne_top r)
  | finite s m e posM =>
    have magnitude := magnitude_pos posM e
    cases s with
    | negative =>
      have below : rounded (partsInverse (.finite .negative m e posM)) ≤ 0 := by
        rw [← rounded_zero]
        exact rounded_mono (partsInverse_neg posM e).le
      exact absurd positive below.not_gt
    | positive => exact ⟨m * 2 ^ e, ⟨number, read⟩, magnitude,
        roundReal_eq_of_rounded quotient.symm⟩

/-! ## The larger of a number and zero -/

theorem maxNum_zero_cases (x : Float32) : maxNum x 0 = 0 ∨ maxNum x 0 = x ∧ 0 < x := by
  unfold maxNum
  split_ifs with nan nan' above
  · exact .inl rfl
  · exact .inl (by cases nan')
  · exact .inr ⟨rfl, above⟩
  · exact .inl rfl

theorem zero_le_maxNum_zero (x : Float32) : 0 ≤ maxNum x 0 := by
  obtain zero | ⟨same, above⟩ := maxNum_zero_cases x
  · rw [zero]
    decide
  · obtain ⟨number, positive⟩ := zero_lt_iff.mp above
    rw [same]
    exact zero_le_iff.mpr ⟨number, positive.le⟩

theorem Bounded.maxNum_zero (h : Bounded b x) (nonneg : 0 ≤ b) : Bounded b (maxNum x 0) := by
  obtain zero | ⟨same, -⟩ := maxNum_zero_cases x
  · rw [zero]
    exact bounded_zero nonneg
  · rwa [same]

end RayTracer.Number
