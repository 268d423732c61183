import RayTracer.Proofs.Number.Absorption
import RayTracer.Proofs.Number.Nearest
import RayTracer.Render.Frame

/-! # Where pixels are sampled

The centre of a pixel is computed with four roundings: of the pixel's index, of the sum with a half,
of the size of the image, and of the quotient. `Settings.samplePoint_mem_unit` says that it stays on
the image plane all the same, and that centres keep the order of the pixels, though not strictly.

The non-trivial case is an image of more than `2 ^ 24` pixels a side. There an index can be rounded
up, even to the rounded size, and then the half must not take it past that size. It does not, since
it is less than half of the last place of a number this large.
-/

namespace RayTracer

namespace Number

variable {x : Float32} {r b : ℝ} {i j n : ℕ}

/-! ## Counts as binary32 numbers -/

theorem reads_roundReal (number : IsNumber x) (value : value x = rounded r) (small : |r| ≤ b)
    (stays : Stays b) :
    Reads x (roundReal r) := by
  obtain ⟨q, reads, -⟩ := Bounded.of_rounded number value small stays
  rwa [roundReal_eq_of_rounded (value.symm.trans reads.value)]

/-- A word is rounded once. -/
theorem reads_toFloat32 (n : UInt32) : Reads n.toFloat32 (roundReal n.toNat) := by
  obtain ⟨number, value⟩ := stored_normalize n.toNat 0 .positive
  have word : (n.toNat : ℝ) ≤ 2 ^ (32 : ℤ) := by exact_mod_cast n.toNat_lt.le
  refine reads_roundReal ((isNumber_iff _).mpr number) (value.trans ?_) (b := 2 ^ (32 : ℤ)) ?_ ?_
  · rw [zpow_zero, mul_one, Int.cast_natCast]
  · rwa [abs_of_nonneg (Nat.cast_nonneg _)]
  · exact stays_zpow (by norm_num) (by norm_num)

theorem reads_half : Reads 0.5 (1 / 2) := reads_power (k := -1) (by decide) (by norm_num)

theorem reads_one : Reads 1 1 := ⟨rfl, value_one⟩

/-! ## Centres -/

/-- The centre of the `i`-th of `n` cells, as a part of the whole, with the four roundings of its
computation. -/
noncomputable def centre (i n : ℕ) : ℝ :=
  roundReal (roundReal (roundReal i + ((2 : ℕ) : ℝ)⁻¹) / roundReal n)

theorem centre_eq (i n : ℕ) :
    centre i n = roundReal (roundReal (roundReal i + 1 / 2) / roundReal n) := by
  rw [centre, one_div]
  norm_cast

theorem centre_mono (h : i ≤ j) (n : ℕ) : centre i n ≤ centre j n := by
  rw [centre_eq, centre_eq]
  refine roundReal_mono (div_le_div_of_nonneg_right (roundReal_mono ?_)
    (roundReal_nonneg (Nat.cast_nonneg n)))
  have index : roundReal i ≤ roundReal j := roundReal_mono (Nat.cast_le.mpr h)
  linarith

/-- Adding a half takes no index past the size. -/
theorem roundReal_add_half_le (h : i < n) (stays : Stays (roundReal n)) :
    roundReal (roundReal i + 1 / 2) ≤ roundReal n := by
  obtain few | many := le_or_gt n (2 ^ 24)
  · -- a small index is not rounded
    have whole : Stays (i * 2 ^ (0 : ℤ)) :=
      stays_natCast_mul (h.trans_le few) (by norm_num) (by norm_num)
    rw [zpow_zero, mul_one] at whole
    have next : (i + 1 : ℝ) ≤ n := by exact_mod_cast h
    rw [whole.roundReal_eq]
    exact roundReal_mono (by linarith)
  · have power : Stays (2 ^ (24 : ℤ)) := stays_zpow (by norm_num) (by norm_num)
    have large : (2 : ℝ) ^ (24 : ℤ) ≤ roundReal n := power.le_roundReal (by exact_mod_cast many.le)
    have index : roundReal i ≤ roundReal n := roundReal_mono (Nat.cast_le.mpr h.le)
    have place : (2 : ℝ) ^ (1 : ℤ) ≤ 2 ^ lastPlace (roundReal n) :=
      zpow_le_zpow_right₀ one_le_two (by have := le_lastPlace large; omega)
    refine stays.roundReal_le (lt_of_lt_of_le (by positivity) large) ?_
    linarith

theorem reads_centre {i n : UInt32} (h : i < n) :
    Reads ((i.toFloat32 + 0.5) / n.toFloat32) (centre i.toNat n.toNat) ∧
      0 ≤ centre i.toNat n.toNat ∧ centre i.toNat n.toNat ≤ 1 := by
  rw [centre_eq]
  have size := reads_toFloat32 n
  have one : Stays (2 ^ (0 : ℤ)) := stays_zpow (by norm_num) (by norm_num)
  rw [zpow_zero] at one
  have pos : 0 < roundReal n.toNat := by
    have some : (1 : ℝ) ≤ n.toNat := by exact_mod_cast Nat.zero_lt_of_lt h
    exact one_pos.trans_le (one.le_roundReal some)
  have least : 0 ≤ roundReal i.toNat + 1 / 2 :=
    add_nonneg (roundReal_nonneg (Nat.cast_nonneg _)) (by norm_num)
  -- the index is below the size before either is rounded, so it is not above it after
  have below := roundReal_add_half_le h size.stays
  have shifted : Reads (i.toFloat32 + 0.5) (roundReal (roundReal i.toNat + 1 / 2)) := by
    obtain ⟨number, value⟩ := (reads_toFloat32 i).add reads_half
    have word : (i.toNat : ℝ) ≤ 2 ^ (32 : ℤ) := by exact_mod_cast i.toNat_lt.le
    have power : Stays (2 ^ (32 : ℤ)) := stays_zpow (by norm_num) (by norm_num)
    have index := (roundReal_mono word).trans_eq power.roundReal_eq
    refine reads_roundReal number value (b := 2 ^ (33 : ℤ)) ?_
      (stays_zpow (by norm_num) (by norm_num))
    rw [abs_of_nonneg least]
    norm_num at index ⊢
    linarith
  obtain ⟨number, value⟩ := shifted.div size pos.ne'
  have low : 0 ≤ roundReal (roundReal i.toNat + 1 / 2) / roundReal n.toNat :=
    div_nonneg (roundReal_nonneg least) pos.le
  have high : roundReal (roundReal i.toNat + 1 / 2) / roundReal n.toNat ≤ 1 :=
    (div_le_one pos).mpr below
  refine ⟨reads_roundReal number value (b := 1) ?_ one, roundReal_nonneg low, ?_⟩
  · rwa [abs_of_nonneg low]
  · exact (roundReal_mono high).trans_eq one.roundReal_eq

/-- Measured from the other end. -/
theorem reads_one_sub (reads : Reads x r) (least : 0 ≤ r) (most : r ≤ 1) :
    Reads (1 - x) (roundReal (1 - r)) ∧ 0 ≤ roundReal (1 - r) ∧ roundReal (1 - r) ≤ 1 := by
  have one : Stays 1 := reads_one.stays
  obtain ⟨number, value⟩ := reads_one.sub reads
  have low : 0 ≤ 1 - r := sub_nonneg.mpr most
  have high : 1 - r ≤ 1 := sub_le_self 1 least
  refine ⟨reads_roundReal number value (b := 1) ?_ one, roundReal_nonneg low, ?_⟩
  · rwa [abs_of_nonneg low]
  · exact (roundReal_mono high).trans_eq one.roundReal_eq

end Number

open Number

/-! ## Samples -/

/-- The ray of a pixel goes through the centre of its column from the left and of its row from the
top, rounded. That lies on the image plane. A pixel farther right is not sampled farther left, and
one farther down not farther up. -/
theorem Settings.samplePoint_mem_unit (settings : Settings) {x x' y y' : UInt32} (left : x ≤ x')
    (inWidth : x' < settings.width) (above : y ≤ y') (inHeight : y' < settings.height) :
    let (s, t) := settings.samplePoint x y
    let (s', t') := settings.samplePoint x' y'
    (∀ camera scene, Camera.pixel camera scene settings x y =
        Color.clamp (scene.rayColor (camera.ray s t) settings.maxDepth.toNat settings.background)) ∧
      Reads s (centre x.toNat settings.width.toNat) ∧
        Reads t (roundReal (1 - centre y.toNat settings.height.toNat)) ∧
      (0 ≤ s ∧ s ≤ 1) ∧ (0 ≤ t ∧ t ≤ 1) ∧ s ≤ s' ∧ t' ≤ t := by
  have zero : Reads 0 0 := ⟨rfl, rfl⟩
  have column {i : UInt32} (h : i ≤ x') := reads_centre (UInt32.lt_of_le_of_lt h inWidth)
  have row {i : UInt32} (h : i ≤ y') := reads_centre (UInt32.lt_of_le_of_lt h inHeight)
  obtain ⟨s, leastS, mostS⟩ := column left
  obtain ⟨s', -, -⟩ := column UInt32.le_rfl
  obtain ⟨fromTop, leastY, mostY⟩ := row above
  obtain ⟨fromTop', leastY', mostY'⟩ := row UInt32.le_rfl
  obtain ⟨t, leastT, mostT⟩ := reads_one_sub fromTop leastY mostY
  obtain ⟨t', -, -⟩ := reads_one_sub fromTop' leastY' mostY'
  refine ⟨fun _ _ => rfl, s, t, ⟨(zero.le_iff s).mpr leastS, (s.le_iff reads_one).mpr mostS⟩,
    ⟨(zero.le_iff t).mpr leastT, (t.le_iff reads_one).mpr mostT⟩, ?_, ?_⟩
  · exact (s.le_iff s').mpr (centre_mono left _)
  · exact (t'.le_iff t).mpr (roundReal_mono (sub_le_sub_left (centre_mono above _) 1))

/-- The widest image: its last columns are sampled at the right edge itself, and no farther. -/
theorem Settings.samplePoint_mem_unit_widest :
    let settings : Settings := { width := 4294967295, height := 16777219 }
    let (s, t) := settings.samplePoint 16777217 0
    let (s', t') := settings.samplePoint 4294967200 16777218
    (16777217 : UInt32) ≤ 4294967200 ∧ 4294967200 < settings.width ∧ (0 : UInt32) ≤ 16777218 ∧
      16777218 < settings.height ∧ (0 ≤ s ∧ s ≤ 1) ∧ (0 ≤ t ∧ t ≤ 1) ∧ s ≤ s' ∧ t' ≤ t ∧
      s' = 1 := by
  intro settings
  have left : (16777217 : UInt32) ≤ 4294967200 := by decide
  have inWidth : 4294967200 < settings.width := by decide
  have above : (0 : UInt32) ≤ 16777218 := by decide
  have inHeight : 16777218 < settings.height := by decide
  obtain ⟨-, -, -, horizontal, vertical, rightwards, downwards⟩ :=
    settings.samplePoint_mem_unit left inWidth above inHeight
  exact ⟨left, inWidth, above, inHeight, horizontal, vertical, rightwards, downwards,
    by decide +kernel⟩

end RayTracer
