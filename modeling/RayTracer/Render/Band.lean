import RayTracer.Buffer

/-!
# Bands of rows

The rows of a picture are shared out to workers in bands of equal height, from the top. Each band
gets a region of the pixels of its own.

* `generate` covers the rows: the counts of rows add up to the height (`totalRows_generate`).
  `generate?` is the same, unless the bands themselves do not fit into a buffer.
* `regions?` carves the regions one after the other, and refuses if the pixels run out before the
  bands (`regions?_isSome`).
-/

namespace RayTracer

/-- The rows from `startRow` up to and without `endRow`. -/
structure Band where
  index : Nat
  startRow : Nat
  endRow : Nat
deriving Repr, DecidableEq, Inhabited

/-- A run of `size` consecutive places from `start` on. -/
structure Region where
  start : Nat
  size : Nat
deriving Repr, DecidableEq, Inhabited

namespace Region

/-- Writes `f k` to the `k`-th place of the region. Places past the end of the buffer are passed
over. -/
def fill {α : Type} (r : Region) (f : Nat → α) (buffer : Array α) : Array α :=
  r.size.fold (fun k _ buffer => buffer.setIfInBounds (r.start + k) (f k)) buffer

end Region

namespace Band

def rowCount (b : Band) : Nat := b.endRow - b.startRow

def isEmpty (b : Band) : Bool := b.rowCount == 0

def pixelCount (b : Band) (width : Nat) : Nat := b.rowCount * width

/-- The rows in each band but the last ones: the height divided by the number of bands, rounded
up. -/
def rowsPerBand (height count : Nat) : Nat := (height + count - 1) / count

/-- The band of an index, if each has as many rows as the height leaves of the given number. -/
def ofIndex (height rows index : Nat) : Band :=
  let start := min (index * rows) height
  ⟨index, start, min (start + rows) height⟩

/-- The bands for a number of workers, at least one. If the height cannot be divided evenly, the
last band with rows is shorter and the ones behind it are empty. -/
def generate (height count : Nat) : List Band :=
  let count := max count 1
  (List.range count).map (ofIndex height (rowsPerBand height count))

/-- A band takes sixteen bytes, eight for the index and four for each row. -/
def bandSize : Nat := 16

/-- The bands for a number of workers, if they fit into a buffer. -/
def generate? (height count : Nat) : Option (List Band) :=
  if Buffer.Fits bandSize (max count 1) then some (generate height count) else none

/-- Hands the places `offset`, `offset + 1`, … out to the bands in turn, out of `remaining` ones. -/
def regionsFrom? (width : Nat) : (offset remaining : Nat) → List Band → Option (List Region)
  | _, _, [] => some []
  | offset, remaining, b :: rest =>
    let size := b.pixelCount width
    if size ≤ remaining then
      (regionsFrom? width (offset + size) (remaining - size) rest).map (⟨offset, size⟩ :: ·)
    else none

/-- The regions of the bands in a buffer of pixels, unless it is too short. -/
def regions? (length width : Nat) (bands : List Band) : Option (List Region) :=
  regionsFrom? width 0 length bands

/-- The rows in all the bands. -/
def totalRows : List Band → Nat
  | [] => 0
  | b :: rest => b.rowCount + totalRows rest

/-- The pixels in all the bands. -/
def totalPixels (width : Nat) : List Band → Nat
  | [] => 0
  | b :: rest => b.pixelCount width + totalPixels width rest

/-! ## Why rendering never runs out of pixels -/

theorem regionsFrom?_isSome (width : Nat) (bands : List Band) :
    ∀ offset remaining, totalPixels width bands ≤ remaining →
      (regionsFrom? width offset remaining bands).isSome := by
  induction bands with
  | nil => intro _ _ _; rfl
  | cons b rest ih =>
    intro offset remaining enough
    unfold totalPixels at enough
    unfold regionsFrom?
    rw [if_pos (by omega), Option.isSome_map]
    exact ih _ _ (by omega)

theorem regions?_isSome {length width : Nat} {bands : List Band}
    (enough : totalPixels width bands ≤ length) : (regions? length width bands).isSome :=
  regionsFrom?_isSome width bands 0 length enough

theorem totalRows_append (a b : List Band) : totalRows (a ++ b) = totalRows a + totalRows b := by
  induction a with
  | nil => simp [totalRows]
  | cons band rest ih => simp only [List.cons_append, totalRows, ih, Nat.add_assoc]

theorem totalPixels_eq (width : Nat) (bands : List Band) :
    totalPixels width bands = totalRows bands * width := by
  induction bands with
  | nil => simp [totalPixels, totalRows]
  | cons b rest ih => simp only [totalPixels, totalRows, pixelCount, ih, Nat.add_mul]

/-- The first `n` bands of `rows` rows each reach row `n * rows`, or the end. -/
theorem totalRows_map_range (height rows n : Nat) :
    totalRows ((List.range n).map (ofIndex height rows)) = min (n * rows) height := by
  induction n with
  | zero => simp [totalRows]
  | succ n ih =>
    rw [List.range_succ, List.map_append, totalRows_append, ih]
    simp only [List.map_cons, List.map_nil, totalRows, rowCount, ofIndex, Nat.succ_mul]
    omega

theorem height_le_mul_rowsPerBand (height : Nat) {count : Nat} (positive : 0 < count) :
    height ≤ count * rowsPerBand height count := by
  have := Nat.div_add_mod (height + count - 1) count
  have := Nat.mod_lt (height + count - 1) positive
  unfold rowsPerBand
  omega

theorem totalRows_generate (height count : Nat) : totalRows (generate height count) = height := by
  have covers := height_le_mul_rowsPerBand height
    (Nat.lt_of_lt_of_le Nat.zero_lt_one (Nat.le_max_right count 1))
  exact (totalRows_map_range height _ _).trans (Nat.min_eq_right covers)

theorem totalPixels_generate (height count width : Nat) :
    totalPixels width (generate height count) = height * width := by
  rw [totalPixels_eq, totalRows_generate]

end Band

end RayTracer
