import RayTracer.Proofs.Geometry.Directions

/-! # Rounding errors of vectors

How far dot products and points of rays are from the exact ones, for results that are finite.

* `Vec3.Denotes`: the components, all of them finite, as real numbers.
* `Vec3.abs_dot_sub_le`: a dot product is off by a `2 ^ 22`th of the sum of the magnitudes of its
  terms.
* `abs_sum_sub_le`: a component of the point of a ray is off by a `2 ^ 22`th of the coordinates,
  however long the way to it, since the way is not longer than the coordinates allow.
-/

namespace RayTracer

open Number

instance : Fintype Axis := ⟨{.x, .y, .z}, fun axis => by cases axis <;> simp⟩

theorem Axis.sum_eq (f : Axis → ℝ) : ∑ axis, f axis = f .x + f .y + f .z := by
  rw [show (Finset.univ : Finset Axis) = {.x, .y, .z} from rfl]
  simp [add_assoc]

theorem Axis.sum_le {f : Axis → ℝ} {k : ℝ} (h : ∀ axis, f axis ≤ k) : ∑ axis, f axis ≤ 3 * k := by
  rw [sum_eq]
  linarith [h .x, h .y, h .z]

theorem Axis.abs_sum_le {f : Axis → ℝ} {k : ℝ} (h : ∀ axis, |f axis| ≤ k) :
    |∑ axis, f axis| ≤ 3 * k :=
  (Finset.abs_sum_le_sum_abs f _).trans (sum_le h)

variable {v w : Vec3} {ray : Ray} {t : Float32} {s m τ : ℝ} {a b c o d p : Axis → ℝ}

namespace Vec3

/-- The components, all of them finite, as real numbers. -/
def Denotes (v : Vec3) (c : Axis → ℝ) : Prop := ∀ axis, Reads (v.along axis) (c axis)

theorem Denotes.unique (h : v.Denotes a) (h' : v.Denotes b) : a = b :=
  funext fun axis => (h axis).unique (h' axis)

theorem exists_denotes {k : ℝ} (h : ∀ axis, Bounded k (v.along axis)) :
    ∃ c, v.Denotes c ∧ ∀ axis, |c axis| ≤ k := by
  choose c reads small using h
  exact ⟨c, reads, small⟩

theorem denotes_mk {x y z : Float32} {a b c : ℝ} (hx : Reads x a) (hy : Reads y b)
    (hz : Reads z c) :
    (⟨x, y, z⟩ : Vec3).Denotes (@Axis.rec (fun _ => ℝ) a b c) := by
  intro axis
  cases axis
  · exact hx
  · exact hy
  · exact hz

/-! ## Dot products -/

theorem reads_of_dot (h : Reads (v.dot w) s) :
    ∃ a b, v.Denotes a ∧ w.Denotes b ∧
      s = roundReal (roundReal (roundReal (a .x * b .x) + roundReal (a .y * b .y)) +
        roundReal (a .z * b .z)) := by
  obtain ⟨left, right, readsLeft, readsRight, rfl⟩ := reads_of_add h
  obtain ⟨first, second, readsFirst, readsSecond, rfl⟩ := reads_of_add readsLeft
  obtain ⟨ax, bx, readsAX, readsBX, rfl⟩ := reads_of_mul readsFirst
  obtain ⟨ay, by', readsAY, readsBY, rfl⟩ := reads_of_mul readsSecond
  obtain ⟨az, bz, readsAZ, readsBZ, rfl⟩ := reads_of_mul readsRight
  exact ⟨_, _, denotes_mk readsAX readsAY readsAZ, denotes_mk readsBX readsBY readsBZ, rfl⟩

/-- Five roundings of three terms that are added up one after the other. -/
theorem abs_total_sub_le {p q r p' q' r' partial' total u : ℝ} (unit : 0 ≤ u)
    (first : |p' - p| ≤ |p| / 2 ^ 24 + u) (second : |q' - q| ≤ |q| / 2 ^ 24 + u)
    (third : |r' - r| ≤ |r| / 2 ^ 24 + u) (left : |partial' - (p' + q')| ≤ |p' + q'| / 2 ^ 24 + u)
    (right : |total - (partial' + r')| ≤ |partial' + r'| / 2 ^ 24 + u) :
    |total - (p + q + r)| ≤ (|p| + |q| + |r|) / 2 ^ 22 + 8 * u := by
  have steps : |total - (p + q + r)| ≤
      |total - (partial' + r')| + |partial' - (p' + q')| + |p' - p| + |q' - q| + |r' - r| := by
    have split : total - (p + q + r) =
        (total - (partial' + r')) + (partial' - (p' + q')) + (p' - p) + (q' - q) + (r' - r) := by
          ring
    rw [split]
    refine (abs_add_le _ _).trans (add_le_add_left ?_ _)
    refine (abs_add_le _ _).trans (add_le_add_left ?_ _)
    exact (abs_add_le _ _).trans (add_le_add_left (abs_add_le _ _) _)
  -- each of the five roundings is small against its argument
  have sizes := abs_add_le p' q'
  have sizes' := abs_add_le partial' r'
  have sizeP := abs_sub_abs_le_abs_sub p' p
  have sizeQ := abs_sub_abs_le_abs_sub q' q
  have sizeR := abs_sub_abs_le_abs_sub r' r
  have sizePartial := abs_sub_abs_le_abs_sub partial' (p' + q')
  have nonnegP := abs_nonneg p
  have nonnegQ := abs_nonneg q
  have nonnegR := abs_nonneg r
  linarith

theorem abs_dot_sub_le (h : Reads (v.dot w) s) (hv : v.Denotes a) (hw : w.Denotes b) :
    |s - ∑ axis, a axis * b axis| ≤ (∑ axis, |a axis * b axis|) / 2 ^ 22 + 2 ^ (-147 : ℤ) := by
  obtain ⟨a', b', hv', hw', rfl⟩ := reads_of_dot h
  obtain rfl := hv.unique hv'
  obtain rfl := hw.unique hw'
  have unit : (2 : ℝ) ^ (-147 : ℤ) = 8 * 2 ^ (-150 : ℤ) := by norm_num
  rw [Axis.sum_eq, Axis.sum_eq, unit]
  exact abs_total_sub_le (by positivity) (abs_roundReal_sub_le_add _) (abs_roundReal_sub_le_add _)
    (abs_roundReal_sub_le_add _) (abs_roundReal_sub_le_add _) (abs_roundReal_sub_le_add _)

/-- A direction at a positive cosine is not zero. -/
theorem ne_zero_of_reads_dot (h : Reads (v.dot w) s) (pos : 0 < s) : w ≠ zero := by
  rintro rfl
  obtain ⟨a, b, -, readsB, rfl⟩ := reads_of_dot h
  have zeros (axis : Axis) : b axis = 0 :=
    (readsB axis).unique (by rw [along_zero]; exact ⟨rfl, rfl⟩)
  simp [zeros] at pos

theorem denotes_of_sub (h : (v - w).Denotes c) :
    ∃ a b, v.Denotes a ∧ w.Denotes b ∧ ∀ axis, c axis = roundReal (a axis - b axis) := by
  choose a b readsA readsB rounds using fun axis => reads_of_sub (v.along_sub w axis ▸ h axis)
  exact ⟨a, b, readsA, readsB, fun axis => (rounds axis).symm⟩

/-- The product of a difference with a vector whose components are not much larger than 1. -/
theorem abs_difference_dot_sub_le {n : Vec3} (h : Reads ((v - w).dot n) s) (hv : v.Denotes a)
    (hw : w.Denotes b) (hn : n.Denotes c) (largeV : ∀ axis, |a axis| ≤ m)
    (largeW : ∀ axis, |b axis| ≤ m) (unit : ∀ axis, |c axis| ≤ 5 / 4) :
    |s - ∑ axis, (a axis - b axis) * c axis| ≤ 5 * m / 2 ^ 21 + 2 ^ (-144 : ℤ) := by
  obtain ⟨e, c', readsE, readsC, -⟩ := reads_of_dot h
  obtain rfl := hn.unique readsC
  obtain ⟨a', b', readsA, readsB, rounds⟩ := denotes_of_sub readsE
  obtain rfl := hv.unique readsA
  obtain rfl := hw.unique readsB
  have total := abs_dot_sub_le h readsE hn
  have place : (2 : ℝ) ^ (-144 : ℤ) = 8 * 2 ^ (-147 : ℤ) := by norm_num
  have half : (2 : ℝ) ^ (-147 : ℤ) = 8 * 2 ^ (-150 : ℤ) := by norm_num
  have positive : (0 : ℝ) ≤ 2 ^ (-150 : ℤ) := by positivity
  have error := abs_roundReal_sub_le_add
  rw [place, half]
  rw [half] at total
  generalize (2 : ℝ) ^ (-150 : ℤ) = u at *
  have apart (axis : Axis) : |a axis - b axis| ≤ 2 * m :=
    (abs_sub _ _).trans (by linarith [largeV axis, largeW axis])
  have moved (axis : Axis) : |e axis - (a axis - b axis)| ≤ 2 * m / 2 ^ 24 + u := by
    rw [rounds]
    linarith [error (a axis - b axis), apart axis]
  have terms (axis : Axis) :
      |(e axis - (a axis - b axis)) * c axis| ≤ (2 * m / 2 ^ 24 + u) * (5 / 4) := by
    rw [abs_mul]
    exact mul_le_mul (moved axis) (unit axis) (abs_nonneg _) ((abs_nonneg _).trans (moved axis))
  have weights (axis : Axis) : |e axis * c axis| ≤ (2 * m + (2 * m / 2 ^ 24 + u)) * (5 / 4) := by
    have size := abs_sub_abs_le_abs_sub (e axis) (a axis - b axis)
    rw [abs_mul]
    exact mul_le_mul (by linarith [moved axis, apart axis]) (unit axis) (abs_nonneg _)
      (by linarith [abs_nonneg (e axis), moved axis, apart axis])
  -- first the error of the differences, then that of the sum of the products
  have drift := Axis.abs_sum_le terms
  have weight := Axis.sum_le weights
  have split : ∑ axis, (e axis - (a axis - b axis)) * c axis =
      ∑ axis, e axis * c axis - ∑ axis, (a axis - b axis) * c axis := by
    rw [← Finset.sum_sub_distrib]
    exact Finset.sum_congr rfl fun axis _ => sub_mul _ _ _
  rw [split] at drift
  refine (abs_sub_le _ (∑ axis, e axis * c axis) _).trans ?_
  have nonneg : 0 ≤ m := (abs_nonneg _).trans (largeV .x)
  linarith

end Vec3

/-! ## Points of rays -/

theorem Ray.exists_pointAt (h : (ray.pointAt t).Denotes p) :
    ∃ o d τ, ray.origin.Denotes o ∧ ray.direction.Denotes d ∧ Reads t τ ∧
      ∀ axis, p axis = roundReal (o axis + roundReal (d axis * τ)) := by
  have sum (axis : Axis) :
      Reads (ray.origin.along axis + ray.direction.along axis * t) (p axis) := by
    have := h axis
    rwa [pointAt, Vec3.along_add, Vec3.along_mul_scalar] at this
  choose o way readsO readsWay rounds using fun axis => reads_of_add (sum axis)
  choose d τ readsD readsT product using fun axis => reads_of_mul (readsWay axis)
  refine ⟨o, d, τ .x, readsO, readsD, readsT .x, fun axis => ?_⟩
  rw [(readsT .x).unique (readsT axis), product, rounds]

/-- The start of a ray that is moved off a point. -/
theorem Ray.exists_start {x l : Vec3} {e : Float32} {ε : ℝ} (he : Reads e ε) (hx : x.Denotes p)
    (hl : l.Denotes d) (start : (x + e * l).Denotes o) (axis : Axis) :
    o axis = roundReal (p axis + roundReal (ε * d axis)) := by
  have sum := start axis
  rw [Vec3.along_add, Vec3.along_smul] at sum
  obtain ⟨p', way, readsP, readsWay, rounds⟩ := reads_of_add sum
  obtain ⟨ε', d', readsE, readsD, product⟩ := reads_of_mul readsWay
  rw [← rounds, ← product, readsP.unique (hx axis), readsE.unique he, readsD.unique (hl axis)]

/-- The start is the point moved by the exact offset, up to rounding. -/
theorem abs_start_sub_le {p o ε d m : ℝ} (start : o = roundReal (p + roundReal (ε * d)))
    (large : |p| ≤ m) (short : |ε * d| ≤ m / 100) :
    |o - (p + ε * d)| ≤ 5 / 4 * m / 2 ^ 24 + 2 ^ (-148 : ℤ) := by
  have product := abs_roundReal_sub_le_add (ε * d)
  have total := abs_roundReal_sub_le_add (p + roundReal (ε * d))
  rw [← start] at total
  have place : (2 : ℝ) ^ (-148 : ℤ) = 4 * 2 ^ (-150 : ℤ) := by norm_num
  have positive : (0 : ℝ) ≤ 2 ^ (-150 : ℤ) := by positivity
  rw [place]
  generalize (2 : ℝ) ^ (-150 : ℤ) = u at *
  generalize roundReal (ε * d) = way at *
  have size := abs_sub_abs_le_abs_sub way (ε * d)
  have sum := abs_add_le p way
  have steps := abs_add_le (o - (p + way)) (way - ε * d)
  rw [show o - (p + way) + (way - ε * d) = o - (p + ε * d) by ring] at steps
  have nonneg := abs_nonneg p
  linarith

/-- A sum and a product are off by a part of what they come from and lead to. -/
theorem abs_sum_sub_le {o e p m : ℝ} (sum : p = roundReal (o + roundReal e)) (start : |o| ≤ m)
    (stop : |p| ≤ m) :
    |p - (o + e)| ≤ m / 2 ^ 22 + 2 ^ (-147 : ℤ) ∧ |e| ≤ 9 / 4 * m + 2 ^ (-147 : ℤ) := by
  have product := abs_roundReal_sub_le_add e
  have total := abs_roundReal_sub_le_add (o + roundReal e)
  rw [← sum] at total
  generalize roundReal e = e' at *
  have unit : (2 : ℝ) ^ (-147 : ℤ) = 8 * 2 ^ (-150 : ℤ) := by norm_num
  have positive : (0 : ℝ) ≤ 2 ^ (-150 : ℤ) := by positivity
  rw [unit]
  generalize (2 : ℝ) ^ (-150 : ℤ) = u at *
  -- the way is not longer than its two ends allow
  have whole : |o + e'| - |p| ≤ |p - (o + e')| := by
    rw [abs_sub_comm]
    exact abs_sub_abs_le_abs_sub _ _
  have way : |e'| ≤ |o + e'| + |o| := by
    have := abs_sub (o + e') o
    rwa [add_sub_cancel_left] at this
  have exact : |e| - |e'| ≤ |e' - e| := by
    rw [abs_sub_comm]
    exact abs_sub_abs_le_abs_sub _ _
  have nonneg := abs_nonneg o
  refine ⟨?_, by linarith⟩
  calc |p - (o + e)| ≤ |p - (o + e')| + |e' - e| := by
        rw [show p - (o + e) = (p - (o + e')) + (e' - e) by ring]
        exact abs_add_le _ _
    _ ≤ m / 2 ^ 22 + 8 * u := by linarith

end RayTracer
