import Mathlib.Data.Rat.Floor
import RayTracer.Proofs.Render.Bands

/-! # Bands as a partition of the rows

`generate?_isPartition` says what a list of bands is good for: each row is in exactly one band, and
all bands with rows but the last of them have the same share of the height.

The ingredient is `rowCount_ofIndex`: a band has its share, or the rows that are left at its index
if those are fewer. That bands do not overlap is no matter of division, it follows from each one
starting where the one before it ends (`Contiguous.existsUnique`).
-/

namespace RayTracer.Band

variable {height rows count first : ℕ} {bands : List Band}

/-! ## Shares -/

theorem rowsPerBand_le_iff (positive : 0 < count) {k : ℕ} :
    rowsPerBand height count ≤ k ↔ height ≤ k * count := by
  rw [rowsPerBand, Nat.div_le_iff_le_mul_add_pred positive, Nat.mul_comm count]
  omega

theorem lt_rowsPerBand_iff (positive : 0 < count) {k : ℕ} :
    k < rowsPerBand height count ↔ k * count < height := by
  rw [← Nat.not_le, rowsPerBand_le_iff positive, Nat.not_le]

/-- The rows in each band are the quotient, rounded up. -/
theorem rowsPerBand_eq_ceil (height : ℕ) (positive : 0 < count) :
    rowsPerBand height count = ⌈(height : ℚ) / count⌉₊ := by
  refine eq_of_forall_ge_iff fun k => ?_
  have above : (0 : ℚ) < count := Nat.cast_pos.mpr positive
  rw [rowsPerBand_le_iff positive, Nat.ceil_le, div_le_iff₀ above]
  exact_mod_cast Iff.rfl

theorem rowCount_ofIndex (height rows index : ℕ) :
    (ofIndex height rows index).rowCount = min rows (height - index * rows) := by
  simp only [rowCount, ofIndex]
  omega

/-- The bands with rows are the first ones, as many as there are shares in the height. -/
theorem isEmpty_ofIndex_iff (covers : height ≤ count * rows) (index : ℕ) :
    (ofIndex height rows index).isEmpty = false ↔ index < rowsPerBand height rows := by
  have nonempty : (ofIndex height rows index).isEmpty = false ↔
      0 < (ofIndex height rows index).rowCount := by
    simp [isEmpty, Nat.pos_iff_ne_zero]
  rw [nonempty, rowCount_ofIndex]
  by_cases share : rows = 0
  · -- without a share there are no rows at all
    subst share
    have none : height = 0 := by omega
    simp [none, rowsPerBand]
  · rw [lt_rowsPerBand_iff (Nat.pos_of_ne_zero share)]
    omega

theorem rowCount_ofIndex_of_lt {index : ℕ} (later : index + 1 < rowsPerBand height rows) :
    (ofIndex height rows index).rowCount = rows := by
  have share : 0 < rows := by
    by_contra none
    obtain rfl : rows = 0 := by omega
    simp [rowsPerBand] at later
  rw [lt_rowsPerBand_iff share, Nat.succ_mul] at later
  rw [rowCount_ofIndex]
  omega

/-! ## The partition -/

theorem Contiguous.getLast?_endRow (contiguous : Contiguous first bands) (some : bands ≠ []) :
    bands.getLast?.map (·.endRow) = .some (first + totalRows bands) := by
  induction bands generalizing first with
  | nil => exact absurd rfl some
  | cons head rest ih =>
    obtain ⟨start, ordered, next⟩ := contiguous
    rw [totalRows, rowCount]
    cases rest with
    | nil =>
      simp only [List.getLast?_singleton, Option.map_some, totalRows, Option.some.injEq]
      omega
    | cons second rest =>
      rw [List.getLast?_cons_cons, ih next (List.cons_ne_nil second rest), Option.some.injEq]
      omega

/-- The bands are as many as asked for and share the rows among them, one after the other. -/
structure IsPartition (height count : ℕ) (bands : List Band) : Prop where
  /-- Each band has the index of its place in the list. -/
  indices : bands.map (·.index) = List.range count
  /-- The first band starts at row 0, and each one starts where the one before it ends. -/
  contiguous : Contiguous 0 bands
  last : bands.getLast?.map (·.endRow) = some height
  existsUnique : ∀ row < height, ∃! b, b ∈ bands ∧ b.startRow ≤ row ∧ row < b.endRow
  /-- The bands with rows come first. All but the last of them have the quotient of height and
  number, rounded up, and the last one has no more. -/
  shares : ∃ filled, ∀ b ∈ bands, (b.isEmpty = false ↔ b.index < filled) ∧
    (b.index + 1 < filled → b.rowCount = ⌈(height : ℚ) / count⌉₊) ∧
    b.rowCount ≤ ⌈(height : ℚ) / count⌉₊

theorem isPartition_generate (height count : ℕ) :
    IsPartition height (max count 1) (generate height count) := by
  have positive : 0 < max count 1 := by omega
  have contiguous := contiguous_generate height count
  have total := totalRows_generate height count
  refine ⟨?_, contiguous, ?_, fun row inside => ?_,
    rowsPerBand height (rowsPerBand height (max count 1)), ?_⟩
  · rw [generate, List.map_map]
    exact List.map_id _
  · have some : generate height count ≠ [] := by
      simp [generate]
    rw [contiguous.getLast?_endRow some, total, Nat.zero_add]
  · exact contiguous.existsUnique (Nat.zero_le row) (by omega)
  · intro b mem
    obtain ⟨index, -, rfl⟩ := mem_generate.mp mem
    rw [← rowsPerBand_eq_ceil height positive]
    refine ⟨isEmpty_ofIndex_iff (height_le_mul_rowsPerBand height positive) index,
      rowCount_ofIndex_of_lt, ?_⟩
    rw [rowCount_ofIndex]
    exact Nat.min_le_left ..

/-- The bands for a number of workers are a partition of the rows, and what is computed for them
fits its words: the products and sums of rows have 64 bits, the rows that are kept have 32. There
are such bands exactly if they fit into a buffer. -/
theorem generate?_isPartition (height : UInt32) (count : UInt64) :
    ∃ bands, IsPartition height.toNat (max count.toNat 1) bands ∧
      (∀ b ∈ bands,
        b.index * ⌈(height.toNat : ℚ) / (max count.toNat 1 : ℕ)⌉₊ < 2 ^ 64 ∧
          b.startRow + ⌈(height.toNat : ℚ) / (max count.toNat 1 : ℕ)⌉₊ < 2 ^ 64 ∧
          b.startRow < 2 ^ 32 ∧ b.endRow < 2 ^ 32) ∧
      generate? height.toNat count.toNat =
        if Buffer.Fits bandSize (max count.toNat 1) then some bands else none := by
  have positive : 0 < max count.toNat 1 := by omega
  have small := height.toNat_lt
  refine ⟨generate height.toNat count.toNat, isPartition_generate .., fun b mem => ?_, rfl⟩
  have words : b.InWords height.toNat 0 (max count.toNat 1) :=
    inWords_generate small (by omega) count.toNat_lt mem
  rw [← rowsPerBand_eq_ceil _ positive]
  have ordered := words.ordered
  have upTo := words.rows
  exact ⟨words.start, words.stop, by omega, by omega⟩

/-- Bands for as many workers as their number allows do not fit into a buffer. -/
theorem generate?_largest_eq_none : generate? 10 18446744073709551615 = none := by
  decide

end RayTracer.Band
