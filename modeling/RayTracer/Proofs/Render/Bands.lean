import Mathlib.Tactic.Linarith
import RayTracer.Render.Band

/-! # Bands and their regions

The pieces that the banded renderer is put together from, each with what the next one relies on.

* `Region.getElem?_fill`: filling a region writes there and nowhere else.
* `regionsFrom?_eq_ite`: carving fails exactly if there are too few places, and gives regions one
  behind the other.
* `regions?_generate`: the regions of the bands of a picture start where the rows of their bands do.
  So a place in a region and a place in the picture name the same pixel.
* `Contiguous.existsUnique`: each row is in one band, if each band starts where the one before it
  ends.
* `inWords_generate`: what is computed for a band fits the machine words that hold it.
-/

namespace RayTracer

/-! ## Filling a region -/

namespace Region

variable {α : Type}

theorem fold_fill (start : ℕ) (f : ℕ → α) (buffer : Array α) (n : ℕ) :
    let filled := n.fold (fun k _ buffer => buffer.setIfInBounds (start + k) (f k)) buffer
    filled.size = buffer.size ∧ ∀ i, i < buffer.size →
      filled[i]? = if start ≤ i ∧ i < start + n then some (f (i - start)) else buffer[i]? := by
  induction n with
  | zero =>
    refine ⟨rfl, fun i _ => ?_⟩
    rw [if_neg (by omega), Nat.fold_zero]
  | succ n ih =>
    obtain ⟨size, content⟩ := ih
    simp only [Nat.fold_succ, Array.size_setIfInBounds]
    refine ⟨size, fun i inside => ?_⟩
    -- the last step writes one place, the steps before it those below
    rw [Array.getElem?_setIfInBounds, size]
    by_cases last : start + n = i
    · subst last
      rw [if_pos rfl, if_pos inside, if_pos (by omega), Nat.add_sub_cancel_left]
    · rw [if_neg last, content i inside]
      by_cases earlier : start ≤ i ∧ i < start + n
      · rw [if_pos earlier, if_pos (by omega)]
      · rw [if_neg earlier, if_neg (by omega)]

theorem fill_of_size_eq_zero {r : Region} (f : ℕ → α) (buffer : Array α) (h : r.size = 0) :
    r.fill f buffer = buffer := by
  obtain ⟨start, size⟩ := r
  cases h
  rfl

theorem size_fill (r : Region) (f : ℕ → α) (buffer : Array α) :
    (r.fill f buffer).size = buffer.size :=
  (fold_fill r.start f buffer r.size).1

theorem getElem?_fill (r : Region) (f : ℕ → α) (buffer : Array α) {i : ℕ}
    (inside : i < buffer.size) :
    (r.fill f buffer)[i]? =
      if r.start ≤ i ∧ i < r.start + r.size then some (f (i - r.start)) else buffer[i]? :=
  (fold_fill r.start f buffer r.size).2 i inside

end Region

namespace Band

/-! ## Carving -/

/-- The places of the pixels in the rows of a band. -/
def region (b : Band) (width : ℕ) : Region := ⟨b.startRow * width, b.pixelCount width⟩

/-- The pixels of a band end where its last row does. -/
theorem startRow_mul_add_pixelCount {b : Band} (ordered : b.startRow ≤ b.endRow) (width : ℕ) :
    b.startRow * width + b.pixelCount width = b.endRow * width := by
  rw [pixelCount, rowCount, ← Nat.add_mul, Nat.add_sub_cancel' ordered]

/-- Each band starts where the one before it ends, the first one at the given row. -/
def Contiguous : ℕ → List Band → Prop
  | _, [] => True
  | row, b :: rest => b.startRow = row ∧ row ≤ b.endRow ∧ Contiguous b.endRow rest

/-- The regions of the bands, each behind the one before it, the first one at a given place. -/
def carve (width : ℕ) : (offset : ℕ) → List Band → List Region
  | _, [] => []
  | offset, b :: rest => ⟨offset, b.pixelCount width⟩ :: carve width
      (offset + b.pixelCount width) rest

/-- Carving runs out of places exactly if there are fewer than pixels in the bands. -/
theorem regionsFrom?_eq_ite (width offset remaining : ℕ) (bands : List Band) :
    regionsFrom? width offset remaining bands =
      if totalPixels width bands ≤ remaining then some (carve width offset bands) else none := by
  induction bands generalizing offset remaining with
  | nil => rfl
  | cons b rest ih =>
    rw [regionsFrom?, totalPixels, ih]
    by_cases fits : b.pixelCount width ≤ remaining
    · have both : totalPixels width rest ≤ remaining - b.pixelCount width ↔
          b.pixelCount width + totalPixels width rest ≤ remaining := by omega
      rw [if_pos fits, apply_ite (Option.map _)]
      simp only [both]
      rfl
    · rw [if_neg fits, if_neg (by omega)]

theorem carve_of_contiguous (width : ℕ) {bands : List Band} {row : ℕ}
    (contiguous : Contiguous row bands) :
    carve width (row * width) bands = bands.map (·.region width) := by
  induction bands generalizing row with
  | nil => rfl
  | cons b rest ih =>
    obtain ⟨rfl, ordered, next⟩ := contiguous
    rw [carve, startRow_mul_add_pixelCount ordered, ih next]
    rfl

theorem contiguous_map_range' (height rows first n : ℕ) :
    Contiguous (min (first * rows) height) ((List.range' first n).map (ofIndex height rows)) := by
  induction n generalizing first with
  | zero => trivial
  | succ n ih =>
    have next :
        min (min (first * rows) height + rows) height = min ((first + 1) * rows) height := by
      rw [Nat.succ_mul]
      omega
    refine ⟨rfl, ?_, ?_⟩
    · show min (first * rows) height ≤ min (min (first * rows) height + rows) height
      omega
    · show Contiguous (min (min (first * rows) height + rows) height) _
      rw [next]
      exact ih (first + 1)

theorem contiguous_generate (height count : ℕ) : Contiguous 0 (generate height count) := by
  have bands := contiguous_map_range' height (rowsPerBand height (max count 1)) 0 (max count 1)
  rw [Nat.zero_mul, Nat.zero_min] at bands
  rw [generate, List.range_eq_range']
  exact bands

/-- The pixels of a picture are enough, and each band gets those of its rows. -/
theorem regions?_generate (width height count : ℕ) :
    regions? (width * height) width (generate height count) =
      some ((generate height count).map (·.region width)) := by
  have enough : totalPixels width (generate height count) ≤ width * height := by
    rw [totalPixels_generate, Nat.mul_comm]
  have carved := carve_of_contiguous width (contiguous_generate height count)
  rw [Nat.zero_mul] at carved
  rw [regions?, regionsFrom?_eq_ite, if_pos enough, carved]

/-! ## Covering -/

theorem Contiguous.le_startRow {bands : List Band} {first : ℕ}
    (contiguous : Contiguous first bands) {b : Band} (mem : b ∈ bands) : first ≤ b.startRow := by
  induction bands generalizing first with
  | nil => cases mem
  | cons head rest ih =>
    obtain ⟨start, ordered, next⟩ := contiguous
    obtain rfl | later := List.mem_cons.mp mem
    · exact start.ge
    · exact ordered.trans (ih next later)

/-- A row behind the first one and before the last one is in exactly one of the bands. -/
theorem Contiguous.existsUnique {bands : List Band} {first row : ℕ}
    (contiguous : Contiguous first bands) (onward : first ≤ row)
    (upTo : row < first + totalRows bands) :
    ∃! b, b ∈ bands ∧ b.startRow ≤ row ∧ row < b.endRow := by
  induction bands generalizing first with
  | nil => exact absurd upTo (by rw [totalRows]; omega)
  | cons head rest ih =>
    obtain ⟨start, ordered, next⟩ := contiguous
    rw [totalRows, rowCount] at upTo
    by_cases here : row < head.endRow
    · refine ⟨head, ⟨List.mem_cons_self .., by omega, here⟩, ?_⟩
      rintro other ⟨mem, begun, -⟩
      obtain same | later := List.mem_cons.mp mem
      · exact same
      · -- a later band begins where the first one has ended
        have := next.le_startRow later
        omega
    · obtain ⟨b, ⟨mem, rows⟩, unique⟩ := ih next (by omega) (by omega)
      refine ⟨b, ⟨List.mem_cons_of_mem _ mem, rows⟩, ?_⟩
      rintro other ⟨mem', rows'⟩
      obtain same | later := List.mem_cons.mp mem'
      · subst same
        exact absurd rows'.2 here
      · exact unique other ⟨later, rows'⟩

theorem mem_generate {height count : ℕ} {b : Band} :
    b ∈ generate height count ↔ ∃ index < max count 1,
      ofIndex height (rowsPerBand height (max count 1)) index = b := by
  simp [generate]

theorem exists_band_of_row {height row : ℕ} (count : ℕ) (inside : row < height) :
    ∃ b ∈ generate height count, b.startRow ≤ row ∧ row < b.endRow := by
  have upTo : row < 0 + totalRows (generate height count) := by
    rwa [totalRows_generate, Nat.zero_add]
  exact ((contiguous_generate height count).existsUnique (Nat.zero_le row) upTo).exists

/-! ## Machine words -/

/-- What is computed for a band, in the words that hold it: indices and numbers of pixels have 64
bits, numbers of rows have 32. -/
structure InWords (height width count : ℕ) (b : Band) : Prop where
  start : b.index * rowsPerBand height count < 2 ^ 64
  stop : b.startRow + rowsPerBand height count < 2 ^ 64
  /-- The number of rows is not below zero. -/
  ordered : b.startRow ≤ b.endRow
  rows : b.endRow ≤ height
  pixels : b.pixelCount width < 2 ^ 64
  /-- The region ends within the picture. -/
  inside : (b.region width).start + (b.region width).size ≤ width * height
  /-- Each place of the region is in a row of the picture. -/
  row : ∀ k < b.pixelCount width, b.startRow + k / width < height

theorem pixelCount_lt {width : ℕ} {b : Band} (rows : b.endRow < 2 ^ 32) (narrow : width < 2 ^ 32) :
    b.pixelCount width < 2 ^ 64 :=
  (Nat.mul_lt_mul'' ((Nat.sub_le ..).trans_lt rows) narrow).trans_eq (by norm_num)

theorem mul_rowsPerBand_lt {height count index : ℕ} (small : height < 2 ^ 32)
    (word : count < 2 ^ 64) (within : index < count) :
    index * rowsPerBand height count < 2 ^ 64 := by
  have division := Nat.div_mul_le_self (height + count - 1) count
  have fewer := Nat.mul_le_mul_right (rowsPerBand height count) (show index ≤ count - 1 by omega)
  have total : count * rowsPerBand height count ≤ height + count - 1 := by
    rw [Nat.mul_comm]
    exact division
  obtain few | many := Nat.lt_or_ge count (2 ^ 63)
  · have upTo := Nat.mul_le_mul_right (rowsPerBand height count) (Nat.sub_le count 1)
    omega
  · -- with so many bands each has one row at most
    have single : rowsPerBand height count ≤ 1 := by
      unfold rowsPerBand
      have := Nat.div_lt_of_lt_mul (show height + count - 1 < count * 2 by omega)
      omega
    have upTo := Nat.mul_le_mul_left (count - 1) single
    omega

theorem rowsPerBand_le (height : ℕ) {count : ℕ} (positive : 0 < count) :
    rowsPerBand height count ≤ height := by
  have enough := Nat.le_mul_of_pos_right height positive
  refine Nat.lt_succ_iff.mp ((Nat.div_lt_iff_lt_mul positive).mpr ?_)
  rw [Nat.succ_mul]
  omega

theorem inWords_generate {height width count : ℕ} (small : height < 2 ^ 32)
    (narrow : width < 2 ^ 32) (word : count < 2 ^ 64) {b : Band} (mem : b ∈ generate height count) :
    InWords height width (max count 1) b := by
  obtain ⟨index, within, rfl⟩ := mem_generate.mp mem
  have product := mul_rowsPerBand_lt small (show max count 1 < 2 ^ 64 by omega) within
  have share := rowsPerBand_le height (show 0 < max count 1 by omega)
  generalize rows : rowsPerBand height (max count 1) = each at *
  have first : (ofIndex height each index).index * each < 2 ^ 64 := product
  have ordered : (ofIndex height each index).startRow ≤ (ofIndex height each index).endRow := by
    simp only [ofIndex]
    omega
  have last : (ofIndex height each index).endRow ≤ height := by
    simp only [ofIndex]
    omega
  -- from here on only the ends of the band matter
  generalize ofIndex height each index = b at *
  have count' : b.startRow + b.rowCount = b.endRow := Nat.add_sub_cancel' ordered
  refine ⟨?_, ?_, ordered, last, ?_, ?_, ?_⟩
  · rwa [rows]
  · rw [rows]
    omega
  · exact pixelCount_lt (last.trans_lt small) narrow
  · show b.startRow * width + b.pixelCount width ≤ width * height
    rw [startRow_mul_add_pixelCount ordered, Nat.mul_comm width]
    exact Nat.mul_le_mul_right width last
  · intro k inside
    have positive : 0 < width := Nat.pos_of_mul_pos_left ((Nat.zero_le k).trans_lt inside)
    have row := (Nat.div_lt_iff_lt_mul positive).mpr inside
    omega

end Band

end RayTracer
