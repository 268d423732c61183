import Mathlib.Data.List.Basic
import RayTracer.Proofs.Render.Bands

/-! # Regions of arbitrary bands

The bands of a picture are contiguous, but carving does not rely on it: `regions?_isCarving` says
for any bands which places each of them gets, and when there are too few.

Regions are laid one behind the other, so where one starts is the sum of the sizes before it
(`getElem?_carve`). Bands without rows get regions without places, and rows without width do too.
-/

namespace RayTracer

/-- The place belongs to the region. -/
def Region.Holds (r : Region) (place : ℕ) : Prop := r.start ≤ place ∧ place < r.start + r.size

namespace Band

variable {width offset place : ℕ} {bands : List Band}

theorem length_carve (width offset : ℕ) (bands : List Band) :
    (carve width offset bands).length = bands.length := by
  induction bands generalizing offset with
  | nil => rfl
  | cons b rest ih => rw [carve, List.length_cons, ih, List.length_cons]

/-- A region starts behind those of the bands before it. -/
theorem getElem?_carve (width offset : ℕ) (bands : List Band) (i : ℕ) :
    (carve width offset bands)[i]? =
      bands[i]?.map fun b => ⟨offset + totalPixels width (bands.take i), b.pixelCount width⟩ := by
  induction bands generalizing offset i with
  | nil => rfl
  | cons b rest ih =>
    cases i with
    | zero => rfl
    | succ i =>
      rw [carve, List.getElem?_cons_succ, List.getElem?_cons_succ, ih, List.take_succ_cons,
        totalPixels, Nat.add_assoc]

theorem le_start_of_mem_carve {r : Region} (mem : r ∈ carve width offset bands) :
    offset ≤ r.start := by
  induction bands generalizing offset with
  | nil => cases mem
  | cons b rest ih =>
    obtain rfl | later := List.mem_cons.mp mem
    · exact Nat.le_refl offset
    · exact (Nat.le_add_right ..).trans (ih later)

/-- A region ends before the next ones start, so no two of them share a place. -/
theorem pairwise_carve (width offset : ℕ) (bands : List Band) :
    (carve width offset bands).Pairwise fun r s => r.start + r.size ≤ s.start := by
  induction bands generalizing offset with
  | nil => exact .nil
  | cons b rest ih => exact .cons (fun _ mem => le_start_of_mem_carve mem) (ih _)

/-- Together the regions hold as many places as there are pixels in the bands, without a gap. -/
theorem exists_mem_carve_iff :
    (∃ r ∈ carve width offset bands, r.Holds place) ↔
      offset ≤ place ∧ place < offset + totalPixels width bands := by
  induction bands generalizing offset with
  | nil =>
    simp only [carve, totalPixels, List.not_mem_nil, false_and, exists_false, false_iff]
    omega
  | cons b rest ih =>
    rw [carve, List.exists_mem_cons_iff, ih, totalPixels, Region.Holds]
    dsimp only
    omega

/-- The regions are those of the bands, one behind the other from place 0 on. -/
structure IsCarving (width : ℕ) (bands : List Band) (regions : List Region) : Prop where
  length : regions.length = bands.length
  /-- A region starts at the number of pixels before it and has those of its band. -/
  getElem? : ∀ i : ℕ, regions[i]? =
    bands[i]?.map fun b => ⟨totalPixels width (bands.take i), b.pixelCount width⟩
  /-- Each region ends before the later ones start. -/
  pairwise : regions.Pairwise fun r s => r.start + r.size ≤ s.start
  /-- The places past the last pixel are in no region, and all before it are in one. -/
  holds_iff : ∀ place, (∃ r ∈ regions, r.Holds place) ↔ place < totalPixels width bands
  /-- If the bands follow each other from row 0 on, each region has the places of the band's
  rows. -/
  rows : Contiguous 0 bands → ∀ i : ℕ, regions[i]?.map (fun r => (r.start, r.start + r.size)) =
    bands[i]?.map fun b => (b.startRow * width, b.endRow * width)

theorem isCarving_carve (width : ℕ) {bands : List Band}
    (ordered : ∀ b ∈ bands, b.startRow ≤ b.endRow) :
    IsCarving width bands (carve width 0 bands) := by
  refine ⟨length_carve .., fun i => ?_, pairwise_carve .., fun place => ?_, fun contiguous i => ?_⟩
  · rw [getElem?_carve, Nat.zero_add]
  · rw [exists_mem_carve_iff, Nat.zero_add]
    exact and_iff_right (Nat.zero_le place)
  · have regions := carve_of_contiguous width contiguous
    rw [Nat.zero_mul] at regions
    rw [regions, List.getElem?_map, Option.map_map]
    refine Option.map_congr fun b mem => ?_
    have stop := startRow_mul_add_pixelCount (ordered b (List.mem_of_getElem? mem)) width
    exact congrArg (Prod.mk _) stop

/-- Carving fails exactly if there are fewer places than pixels in all the bands. Otherwise each
band gets a region of its own. The pixels of a band are those of the rows from its start to its end,
and their number fits its word if the rows and the width do. -/
theorem regions?_isCarving (length width : ℕ) {bands : List Band}
    (ordered : ∀ b ∈ bands, b.startRow ≤ b.endRow) :
    ((regions? length width bands).isSome ↔ totalPixels width bands ≤ length) ∧
      (∀ regions, regions? length width bands = some regions → IsCarving width bands regions) ∧
      ∀ b ∈ bands, b.startRow * width + b.pixelCount width = b.endRow * width ∧
        (b.endRow < 2 ^ 32 → width < 2 ^ 32 → b.pixelCount width < 2 ^ 64) := by
  have carved : regions? length width bands =
      if totalPixels width bands ≤ length then some (carve width 0 bands) else none :=
        regionsFrom?_eq_ite ..
  refine ⟨?_, fun regions found => ?_, fun b mem =>
    ⟨startRow_mul_add_pixelCount (ordered b mem) width, pixelCount_lt⟩⟩
  · rw [carved]
    split <;> simp [*]
  · rw [carved, Option.ite_none_right_eq_some, Option.some.injEq] at found
    obtain ⟨-, rfl⟩ := found
    exact isCarving_carve width ordered

/-- Three bands out of order, one of them empty: they leave three of nine places and do not fit into
five. -/
theorem regions?_isCarving_shuffled :
    let bands : List Band := [⟨0, 4, 6⟩, ⟨1, 3, 3⟩, ⟨2, 0, 1⟩]
    (∀ b ∈ bands, b.startRow ≤ b.endRow) ∧
      (∃ regions, regions? 9 2 bands = some regions ∧ regions[2]? = some ⟨4, 2⟩ ∧
        ∀ r ∈ regions, ¬r.Holds 6) ∧
      regions? 5 2 bands = none := by
  intro bands
  have ordered : ∀ b ∈ bands, b.startRow ≤ b.endRow := by decide
  obtain ⟨enough, carved, -⟩ := regions?_isCarving 9 2 ordered
  obtain ⟨regions, found⟩ := Option.isSome_iff_exists.mp (enough.mpr (by decide))
  have carving := carved regions found
  refine ⟨ordered, ⟨regions, found, carving.getElem? 2, fun r mem holds => ?_⟩, ?_⟩
  · exact absurd ((carving.holds_iff 6).mp ⟨r, mem, holds⟩) (by decide)
  · rw [← Option.not_isSome_iff_eq_none, (regions?_isCarving 5 2 ordered).1]
    decide

end Band

end RayTracer
