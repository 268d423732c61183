import RayTracer.Number.Extrema
import RayTracer.Proofs.Number.Value

/-! # The order of binary32 numbers

Comparisons of binary32 numbers are comparisons of their values, and they fail where a NaN is
compared. So on numbers the order is linear, up to the two zeros.

* `lt_iff`, `le_iff`, `beq_iff`: the three comparisons.
* `lowValue` and `highValue` read a number as an end of a range, where NaN bounds nothing. For them
  the extrema that pass over NaN are plain extrema (`lowValue_maxNum`, `highValue_minNum`).
-/

namespace RayTracer.Number

open Float.Model (Format UnpackedFloat)
open Float.Model.UnpackedFloat

/-! ## Comparisons -/

/-- Of two numbers in place the one with the higher last place is larger. -/
theorem InPlace.lt_of_exponent_lt {m n : ℕ} {e f : ℤ} (small : InPlace m e) (large : InPlace n f)
    (h : e < f) : (m : ℝ) * 2 ^ e < n * 2 ^ f := by
  have least := small.least
  have digits : (m : ℝ) < 2 ^ 24 := mod_cast small.digits
  have full : (2 : ℝ) ^ 23 ≤ n := mod_cast large.normal.resolve_left (by omega)
  calc (m : ℝ) * 2 ^ e < 2 ^ 24 * 2 ^ e := by gcongr
    _ = 2 ^ 23 * 2 ^ (e + 1) := by
        rw [zpow_add_one₀ two_ne_zero]
        ring
    _ ≤ 2 ^ 23 * 2 ^ f := by
        gcongr
        · exact one_le_two
        · omega
    _ ≤ n * 2 ^ f := by gcongr

/-- Comparing exponents and then mantissas is comparing magnitudes. -/
theorem compare_magnitude {m n : ℕ} {e f : ℤ} (left : InPlace m e) (right : InPlace n f) :
    (compare e f).then (compare m n) = compare ((m : ℝ) * 2 ^ e) (n * 2 ^ f) := by
  obtain lower | same | higher := lt_trichotomy e f
  · rw [compare_lt_iff_lt.mpr lower, compare_lt_iff_lt.mpr (left.lt_of_exponent_lt right lower)]
    rfl
  · subst same
    have scaled : compare ((m : ℝ) * 2 ^ e) (n * 2 ^ e) = compare (m : ℝ) n := by
      rw [← cmp_eq_compare, ← cmp_eq_compare]
      exact (strictMono_mul_right_of_pos (by positivity : (0 : ℝ) < 2 ^ e)).cmp_map_eq m n
    rw [compare_eq_iff_eq.mpr rfl, scaled, ← cmp_eq_compare, ← cmp_eq_compare,
      Nat.strictMono_cast.cmp_map_eq]
    rfl
  · rw [compare_gt_iff_gt.mpr higher, compare_gt_iff_gt.mpr (right.lt_of_exponent_lt left higher)]
    rfl

theorem some_lt {α : Type*} [LinearOrder α] {a b : α} (h : a < b) : some .lt = some (compare a b) :=
  congrArg some (compare_lt_iff_lt.mpr h).symm

theorem some_eq {α : Type*} [LinearOrder α] (a : α) : some .eq = some (compare a a) :=
  congrArg some (compare_eq_iff_eq.mpr rfl).symm

theorem some_gt {α : Type*} [LinearOrder α] {a b : α} (h : b < a) : some .gt = some (compare a b) :=
  congrArg some (compare_gt_iff_gt.mpr h).symm

theorem compare_coe (a b : ℝ) : compare a b = compare (a : EReal) b := by
  rw [← cmp_eq_compare, ← cmp_eq_compare, EReal.coe_strictMono.cmp_map_eq]

theorem swap_compare (a b : ℝ) : (compare a b).swap = compare (-a) (-b) := by
  have anti : StrictAnti fun x : ℝ => -x := fun _ _ h => neg_lt_neg h
  rw [← cmp_eq_compare, ← cmp_eq_compare, cmp_swap]
  exact (anti.cmp_map_eq a b).symm

theorem magnitude_pos {m : ℕ} (pos : 0 < m) (e : ℤ) : (0 : ℝ) < m * 2 ^ e :=
  mul_pos (mod_cast pos) (by positivity)

theorem partsValue_pos {m : ℕ} (pos : 0 < m) (e : ℤ) : 0 < partsValue (.finite .positive m e pos) :=
  EReal.coe_pos.mpr (magnitude_pos pos e)

theorem partsValue_neg {m : ℕ} (pos : 0 < m) (e : ℤ) : partsValue (.finite .negative m e pos) < 0 :=
  EReal.coe_lt_coe_iff.mpr (neg_neg_of_pos (magnitude_pos pos e))

/-- Comparing parts is comparing values. -/
theorem compare_parts {u v : UnpackedFloat} (hu : Stored u) (hv : Stored v) (nu : u ≠ .notANumber)
    (nv : v ≠ .notANumber) : u.compare v = some (compare (partsValue u) (partsValue v)) := by
  cases hu with
  | notANumber => exact absurd rfl nu
  | infinity s =>
    cases hv with
    | notANumber => exact absurd rfl nv
    | infinity t =>
      cases s <;> cases t
      · exact some_eq _
      · exact some_lt bot_lt_top
      · exact some_gt bot_lt_top
      · exact some_eq _
    | zero t =>
      cases s
      · exact some_lt EReal.bot_lt_zero
      · exact some_gt EReal.zero_lt_top
    | finite t =>
      cases s
      · exact some_lt (EReal.bot_lt_coe _)
      · exact some_gt (EReal.coe_lt_top _)
  | zero s =>
    cases hv with
    | notANumber => exact absurd rfl nv
    | infinity t =>
      cases t
      · exact some_gt EReal.bot_lt_zero
      · exact some_lt EReal.zero_lt_top
    | zero t => exact some_eq _
    | finite t pos =>
      cases t
      · exact some_gt (partsValue_neg pos _)
      · exact some_lt (partsValue_pos pos _)
  | finite s pos place =>
    cases hv with
    | notANumber => exact absurd rfl nv
    | infinity t =>
      cases s <;> cases t
      · exact some_gt (EReal.bot_lt_coe _)
      · exact some_lt (EReal.coe_lt_top _)
      · exact some_gt (EReal.bot_lt_coe _)
      · exact some_lt (EReal.coe_lt_top _)
    | zero t =>
      cases s
      · exact some_lt (partsValue_neg pos _)
      · exact some_gt (partsValue_pos pos _)
    | finite t pos' place' =>
      -- equal signs compare magnitudes, the other way round below zero
      cases s <;> cases t
      · simp only [UnpackedFloat.compare, compare_magnitude place place', swap_compare]
        exact congrArg some (compare_coe _ _)
      · exact some_lt ((partsValue_neg pos _).trans (partsValue_pos pos' _))
      · exact some_gt ((partsValue_neg pos' _).trans (partsValue_pos pos _))
      · simp only [UnpackedFloat.compare, compare_magnitude place place']
        exact congrArg some (compare_coe _ _)

theorem compare_eq_none {u v : UnpackedFloat} (h : u = .notANumber ∨ v = .notANumber) :
    u.compare v = none := by
  obtain rfl | rfl := h
  · rfl
  · rcases u with (_ | _) | _ | _ | ⟨_ | _, _, _, _⟩ <;> rfl

/-- Two numbers compare as their values do, and NaN does not compare. -/
theorem compare_eq (x y : Float32) :
    (parts x).compare (parts y) =
      if IsNumber x ∧ IsNumber y then some (compare (value x) (value y)) else none := by
  split_ifs with numbers
  · exact compare_parts (stored_parts x) (stored_parts y) ((isNumber_iff x).mp numbers.1)
      ((isNumber_iff y).mp numbers.2)
  · rw [isNumber_iff, isNumber_iff, ← not_or, not_not] at numbers
    exact compare_eq_none numbers

theorem lt_iff (x y : Float32) : x < y ↔ IsNumber x ∧ IsNumber y ∧ value x < value y := by
  have unfolded : x < y ↔ (parts x).compare (parts y) = some .lt := by
    show decide ((parts x).lt (parts y) = true) = true ↔ _
    rw [decide_eq_true_iff, UnpackedFloat.lt, beq_iff_eq]
  rw [unfolded, compare_eq]
  split_ifs with numbers
  · simp [numbers, compare_lt_iff_lt]
  · simp [← and_assoc, numbers]

theorem le_iff (x y : Float32) : x ≤ y ↔ IsNumber x ∧ IsNumber y ∧ value x ≤ value y := by
  have unfolded : x ≤ y ↔ ((parts x).compare (parts y)).any (·.isLE) = true := by
    show decide ((parts x).le (parts y) = true) = true ↔ _
    rw [decide_eq_true_iff, UnpackedFloat.le]
  rw [unfolded, compare_eq]
  split_ifs with numbers
  · simp [numbers, Ordering.isLE_iff_ne_gt, compare_gt_iff_gt]
  · simp [← and_assoc, numbers]

theorem beq_iff (x y : Float32) :
    (x == y) = true ↔ IsNumber x ∧ IsNumber y ∧ value x = value y := by
  have unfolded : (x == y) = true ↔ (parts x).compare (parts y) = some .eq := by
    show ((parts x).compare (parts y) == some .eq) = true ↔ _
    rw [beq_iff_eq]
  rw [unfolded, compare_eq]
  split_ifs with numbers
  · simp [numbers]
  · simp [← and_assoc, numbers]

theorem number_le_trans {x y z : Float32} (left : x ≤ y) (right : y ≤ z) : x ≤ z := by
  obtain ⟨hx, -, below⟩ := (le_iff x y).mp left
  obtain ⟨-, hz, above⟩ := (le_iff y z).mp right
  exact (le_iff x z).mpr ⟨hx, hz, below.trans above⟩

theorem number_lt_of_lt_of_le {x y z : Float32} (left : x < y) (right : y ≤ z) : x < z := by
  obtain ⟨hx, -, below⟩ := (lt_iff x y).mp left
  obtain ⟨-, hz, above⟩ := (le_iff y z).mp right
  exact (lt_iff x z).mpr ⟨hx, hz, below.trans_le above⟩

theorem number_lt_of_le_of_lt {x y z : Float32} (left : x ≤ y) (right : y < z) : x < z := by
  obtain ⟨hx, -, below⟩ := (le_iff x y).mp left
  obtain ⟨-, hz, above⟩ := (lt_iff y z).mp right
  exact (lt_iff x z).mpr ⟨hx, hz, below.trans_lt above⟩

theorem number_not_lt {x y : Float32} (hx : IsNumber x) (hy : IsNumber y) : ¬x < y ↔ y ≤ x := by
  rw [lt_iff, le_iff]
  simp [hx, hy]

/-! ## Extrema -/

/-- The value as a lower end: NaN is below every number. -/
noncomputable def lowValue (x : Float32) : EReal := if IsNumber x then value x else ⊥

/-- The value as an upper end: NaN is above every number. -/
noncomputable def highValue (x : Float32) : EReal := if IsNumber x then value x else ⊤

theorem lowValue_eq {x : Float32} (h : IsNumber x) : lowValue x = value x := if_pos h

theorem highValue_eq {x : Float32} (h : IsNumber x) : highValue x = value x := if_pos h

theorem isNumber_or_isNaN (x : Float32) : IsNumber x ∨ x.isNaN = true := by
  unfold IsNumber
  cases x.isNaN
  · exact .inl rfl
  · exact .inr rfl

theorem IsNumber.not_isNaN {x : Float32} (h : IsNumber x) : ¬x.isNaN = true :=
  Bool.eq_false_iff.mp h

theorem not_isNumber {x : Float32} (h : x.isNaN = true) : ¬IsNumber x := fun number =>
  number.not_isNaN h

theorem maxNum_eq {a b : Float32} (ha : IsNumber a) (hb : IsNumber b) :
    maxNum a b = if value b < value a then a else b := by
  rw [maxNum, if_neg ha.not_isNaN, if_neg hb.not_isNaN]
  simp only [lt_iff, ha, hb, true_and]

theorem minNum_eq {a b : Float32} (ha : IsNumber a) (hb : IsNumber b) :
    minNum a b = if value a < value b then a else b := by
  rw [minNum, if_neg ha.not_isNaN, if_neg hb.not_isNaN]
  simp only [lt_iff, ha, hb, true_and]

theorem maxNum_of_isNaN_left {a : Float32} (b : Float32) (h : a.isNaN = true) : maxNum a b = b :=
  if_pos h

theorem minNum_of_isNaN_left {a : Float32} (b : Float32) (h : a.isNaN = true) : minNum a b = b :=
  if_pos h

theorem maxNum_of_isNaN_right {a b : Float32} (ha : IsNumber a) (h : b.isNaN = true) :
    maxNum a b = a := by
  rw [maxNum, if_neg ha.not_isNaN, if_pos h]

theorem minNum_of_isNaN_right {a b : Float32} (ha : IsNumber a) (h : b.isNaN = true) :
    minNum a b = a := by
  rw [minNum, if_neg ha.not_isNaN, if_pos h]

theorem isNumber_maxNum {a b : Float32} (h : IsNumber b) : IsNumber (maxNum a b) := by
  obtain ha | ha := isNumber_or_isNaN a
  · rw [maxNum_eq ha h]
    split_ifs <;> assumption
  · rwa [maxNum_of_isNaN_left b ha]

theorem isNumber_minNum {a b : Float32} (h : IsNumber b) : IsNumber (minNum a b) := by
  obtain ha | ha := isNumber_or_isNaN a
  · rw [minNum_eq ha h]
    split_ifs <;> assumption
  · rwa [minNum_of_isNaN_left b ha]

theorem lowValue_maxNum (a b : Float32) :
    lowValue (maxNum a b) = max (lowValue a) (lowValue b) := by
  obtain ha | ha := isNumber_or_isNaN a
  · obtain hb | hb := isNumber_or_isNaN b
    · rw [maxNum_eq ha hb]
      split_ifs with less
      · rw [lowValue_eq ha, lowValue_eq hb, max_eq_left less.le]
      · rw [lowValue_eq ha, lowValue_eq hb, max_eq_right (not_lt.mp less)]
    · rw [maxNum_of_isNaN_right ha hb, lowValue, lowValue, if_neg (not_isNumber hb), max_bot_right]
  · rw [maxNum_of_isNaN_left b ha, lowValue, lowValue, if_neg (not_isNumber ha), max_bot_left]

theorem highValue_minNum (a b : Float32) :
    highValue (minNum a b) = min (highValue a) (highValue b) := by
  obtain ha | ha := isNumber_or_isNaN a
  · obtain hb | hb := isNumber_or_isNaN b
    · rw [minNum_eq ha hb]
      split_ifs with less
      · rw [highValue_eq ha, highValue_eq hb, min_eq_left less.le]
      · rw [highValue_eq ha, highValue_eq hb, min_eq_right (not_lt.mp less)]
    · rw [minNum_of_isNaN_right ha hb, highValue, highValue, if_neg (not_isNumber hb),
        min_top_right]
  · rw [minNum_of_isNaN_left b ha, highValue, highValue, if_neg (not_isNumber ha), min_top_left]

theorem value_maxNum {a b : Float32} (ha : IsNumber a) (hb : IsNumber b) :
    value (maxNum a b) = max (value a) (value b) := by
  rw [← lowValue_eq (isNumber_maxNum hb), lowValue_maxNum, lowValue_eq ha, lowValue_eq hb]

theorem value_minNum {a b : Float32} (ha : IsNumber a) (hb : IsNumber b) :
    value (minNum a b) = min (value a) (value b) := by
  rw [← highValue_eq (isNumber_minNum hb), highValue_minNum, highValue_eq ha, highValue_eq hb]

theorem maxNum_le_iff {x y z : Float32} (hx : IsNumber x) (hy : IsNumber y) :
    maxNum x y ≤ z ↔ x ≤ z ∧ y ≤ z := by
  have number := isNumber_maxNum (a := x) hy
  simp only [le_iff, number, hx, hy, value_maxNum hx hy, max_le_iff, true_and]
  tauto

theorem le_minNum_iff {x y z : Float32} (hx : IsNumber x) (hy : IsNumber y) :
    z ≤ minNum x y ↔ z ≤ x ∧ z ≤ y := by
  have number := isNumber_minNum (a := x) hy
  simp only [le_iff, number, hx, hy, value_minNum hx hy, le_min_iff, true_and]
  tauto

/-- Every number is above the lower infinity, and NaN counts as that. -/
theorem maxNum_le_iff_lowest {x y z : Float32} (hy : IsNumber y) :
    maxNum x y ≤ z ↔ maxNum x (-infinity) ≤ z ∧ y ≤ z := by
  have lowest : IsNumber (-infinity) := by decide
  have number := isNumber_maxNum (a := x) lowest
  have same : maxNum x y ≤ z ↔ maxNum (maxNum x (-infinity)) y ≤ z := by
    have left := isNumber_maxNum (a := x) hy
    have right := isNumber_maxNum (a := maxNum x (-infinity)) hy
    have infinite : lowValue (-infinity) = ⊥ := lowValue_eq lowest
    have values : value (maxNum x y) = value (maxNum (maxNum x (-infinity)) y) := by
      rw [← lowValue_eq left, ← lowValue_eq right]
      simp only [lowValue_maxNum, infinite, max_bot_right]
    simp only [le_iff, left, right, values]
  rw [same, maxNum_le_iff number hy]

theorem le_minNum_iff_highest {x y z : Float32} (hy : IsNumber y) :
    z ≤ minNum x y ↔ z ≤ minNum x infinity ∧ z ≤ y := by
  have highest : IsNumber infinity := by decide
  have number := isNumber_minNum (a := x) highest
  have same : z ≤ minNum x y ↔ z ≤ minNum (minNum x infinity) y := by
    have left := isNumber_minNum (a := x) hy
    have right := isNumber_minNum (a := minNum x infinity) hy
    have infinite : highValue infinity = ⊤ := highValue_eq highest
    have values : value (minNum x y) = value (minNum (minNum x infinity) y) := by
      rw [← highValue_eq left, ← highValue_eq right]
      simp only [highValue_minNum, infinite, min_top_right]
    simp only [le_iff, left, right, values]
  rw [same, le_minNum_iff number hy]

end RayTracer.Number
