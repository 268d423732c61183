import Mathlib.Algebra.Group.Nat.Defs
import Mathlib.Data.List.Basic
import RayTracer.Proofs.Picture.Places

/-! # Pictures as tables

`drawn?_isTable` says that a picture is a table of columns and rows: a pixel has the colour that was
set last, and setting it changes no other one.

The ingredient is that no two pixels inside share a place (`place_inj`). What is read after a run of
dots follows from what is read after one (`Sized.get?_of_set?`, `Sized.get?_of_setAll?`). Rows are
cut by length alone, so that they are the rows of the table needs the size of the picture once more
(`Sized.getElem?_rows`).
-/

namespace RayTracer.Picture

variable {p q : Picture} {width height x y : ℕ}

/-! ## Places -/

/-- A place determines the column and the row of a pixel inside. -/
theorem place_inj {x' y' : ℕ} (hx : x < width) (hx' : x' < width) :
    y * width + x = y' * width + x' ↔ x = x' ∧ y = y' := by
  constructor
  · intro same
    have column := congrArg (· % width) same
    have row := congrArg (· / width) same
    simp only [place_mod hx, place_mod hx', place_div hx, place_div hx'] at column row
    exact ⟨column, row⟩
  · rintro ⟨rfl, rfl⟩
    rfl

theorem get?_eq_none_iff : p.get? x y = none ↔ p.pixels.size ≤ p.place x y :=
  Array.getElem?_eq_none_iff

theorem set?_eq_some_iff {c : Color} :
    p.set? x y c = some q ↔ ∃ h : p.place x y < p.pixels.size,
      q = { p with pixels := p.pixels.set (p.place x y) c } := by
  rw [set?]
  split_ifs with inside
  · simp [inside, eq_comm]
  · simp [inside]

theorem set?_eq_none_iff {c : Color} : p.set? x y c = none ↔ p.pixels.size ≤ p.place x y := by
  rw [set?]
  split_ifs with inside <;> simp <;> omega

/-! ## Setting pixels -/

/-- The colour that the last of the dots at a pixel gives it, if there is one. -/
def lastColor? (dots : List Dot) (x y : ℕ) : Option Color :=
  (dots.filter fun d => d.x = x ∧ d.y = y).getLast?.map (·.color)

theorem lastColor?_cons (d : Dot) (rest : List Dot) (x y : ℕ) :
    lastColor? (d :: rest) x y =
      (lastColor? rest x y).or (if d.x = x ∧ d.y = y then some d.color else none) := by
  unfold lastColor?
  by_cases here : d.x = x ∧ d.y = y
  · rw [List.filter_cons_of_pos (by simpa using here), List.getLast?_cons, if_pos here]
    cases (rest.filter fun d => d.x = x ∧ d.y = y).getLast? <;> rfl
  · rw [List.filter_cons_of_neg (by simpa using here), if_neg here, Option.or_none]

theorem Sized.get?_of_set? (sized : Sized width height p) {d : Dot} (inside : d.Inside width height)
    (set : p.set? d.x d.y d.color = some q) (hx : x < width) :
    q.get? x y = (if d.x = x ∧ d.y = y then some d.color else none).or (p.get? x y) := by
  obtain ⟨there, rfl⟩ := set?_eq_some_iff.mp set
  have same : p.place d.x d.y = p.place x y ↔ d.x = x ∧ d.y = y := by
    rw [place, place, sized.width]
    exact place_inj inside.1 hx
  show (p.pixels.set (p.place d.x d.y) d.color there)[p.place x y]? = _
  rw [Array.getElem?_set]
  simp only [same]
  split_ifs <;> rfl

/-- After a run of dots a pixel has the colour of the last one at it, or else its old one. -/
theorem Sized.get?_of_setAll? (sized : Sized width height p) {dots : List Dot}
    (inside : ∀ d ∈ dots, d.Inside width height) (done : p.setAll? dots = some q) (hx : x < width) :
    q.get? x y = (lastColor? dots x y).or (p.get? x y) := by
  induction dots generalizing p with
  | nil =>
    cases done
    rfl
  | cons d rest ih =>
    have first := inside d (List.mem_cons_self ..)
    obtain ⟨next, set, sized'⟩ := sized.set? first
    have rest : next.setAll? rest = some q := by
      rw [Picture.setAll?, List.foldlM_cons, set] at done
      exact done
    rw [ih sized' (fun other mem => inside other (List.mem_cons_of_mem _ mem)) rest,
      sized.get?_of_set? first set hx, lastColor?_cons, Option.or_assoc]

theorem get?_black (hx : x < width) (hy : y < height) :
    (black width height).get? x y = some .zero := by
  have inside := (sized_black width height).place_lt_size hx hy
  rw [get?, Array.getElem?_eq_getElem inside]
  exact congrArg some (Array.getElem_replicate _)

/-- Sets a pixel. If its place is past the end, the picture stays as it is. -/
def setOrKeep (p : Picture) (d : Dot) : Picture := (p.set? d.x d.y d.color).getD p

/-- Dots past the end are as if they had not been set at all. -/
theorem setAll?_filter (p : Picture) (dots : List Dot) :
    p.setAll? (dots.filter fun d => p.place d.x d.y < p.pixels.size) =
      some (dots.foldl setOrKeep p) := by
  induction dots generalizing p with
  | nil => rfl
  | cons d rest ih =>
    rw [List.foldl_cons]
    by_cases inside : p.place d.x d.y < p.pixels.size
    · have set : p.set? d.x d.y d.color = some _ := dif_pos inside
      -- what counts as past the end does not change with the colours
      have next := ih { p with pixels := p.pixels.set (p.place d.x d.y) d.color }
      rw [Array.size_set] at next
      rw [List.filter_cons_of_pos (by simpa using inside), Picture.setAll?, List.foldlM_cons, set,
        setOrKeep, set]
      exact next
    · rw [List.filter_cons_of_neg (by simpa using inside), ih p, setOrKeep,
        set?_eq_none_iff.mpr (Nat.le_of_not_lt inside), Option.getD_none]

/-! ## Rows -/

theorem flatMap_extract {α : Type} (a : Array α) (step n : ℕ) :
    (List.range n).flatMap (fun i => (a.extract (i * step) ((i + 1) * step)).toList) =
      a.toList.take (n * step) := by
  induction n with
  | zero => simp
  | succ n ih =>
    have more : (n + 1) * step - n * step = step := by
      rw [Nat.succ_mul]
      omega
    rw [List.range_succ, List.flatMap_append, ih, List.flatMap_singleton, Array.toList_extract,
      List.extract_eq_take_drop, more, ← List.take_add, Nat.succ_mul]

/-- Put together again, the rows are the pixels in their order. -/
theorem flatMap_rows (p : Picture) : p.rows.flatMap Array.toList = p.pixels.toList := by
  rw [rows, List.flatMap_map, flatMap_extract]
  refine List.take_of_length_le ?_
  -- the number of rows is rounded up, so the last one reaches the end
  have division := Nat.div_add_mod (p.pixels.size + max p.width 1 - 1) (max p.width 1)
  have rest := Nat.mod_lt (p.pixels.size + max p.width 1 - 1) (show 0 < max p.width 1 by omega)
  rw [Nat.mul_comm, Array.length_toList]
  omega

/-- The rows are as many as the picture has, but none if they have no width. -/
theorem Sized.rows_eq (sized : Sized width height p) :
    p.rows = (List.range (if width = 0 then 0 else height)).map fun y =>
      p.pixels.extract (y * width) ((y + 1) * width) := by
  rw [rows, sized.width, sized.pixels]
  split_ifs with narrow
  · subst narrow
    simp
  · have step : max width 1 = width := by omega
    have count : (width * height + width - 1) / width = height := by
      have wide : 0 < width := Nat.pos_of_ne_zero narrow
      rw [Nat.add_sub_assoc wide, Nat.mul_add_div wide, Nat.div_eq_of_lt (by omega), Nat.add_zero]
    rw [step, count]

theorem Sized.size_extract (sized : Sized width height p) (hy : y < height) :
    min ((y + 1) * width) p.pixels.size - y * width = width := by
  have upTo := Nat.mul_le_mul_right width hy
  rw [Nat.mul_comm height] at upTo
  rw [sized.pixels, Nat.min_eq_left upTo, Nat.succ_mul, Nat.add_sub_cancel_left]

theorem Sized.size_of_mem_rows (sized : Sized width height p) {row : Array Color}
    (mem : row ∈ p.rows) :
    row.size = width := by
  rw [sized.rows_eq, List.mem_map] at mem
  obtain ⟨y, inside, rfl⟩ := mem
  have row : y < height := by
    rw [List.mem_range] at inside
    split_ifs at inside <;> omega
  rw [Array.size_extract, sized.size_extract row]

theorem Sized.getElem?_rows (sized : Sized width height p) (hx : x < width) (hy : y < height) :
    ∃ row, p.rows[y]? = some row ∧ row[x]? = p.get? x y := by
  refine ⟨p.pixels.extract (y * width) ((y + 1) * width), ?_, ?_⟩
  · rw [sized.rows_eq, if_neg (by omega), List.getElem?_map, List.getElem?_range hy,
      Option.map_some]
  · rw [Array.getElem?_extract, sized.size_extract hy, if_pos hx, Picture.get?, place, sized.width]

/-! ## Tables -/

/-- The picture is a table of colours, which are read and set by column and row. -/
structure IsTable (width height : ℕ) (color : ℕ → ℕ → Color) (p : Picture) : Prop where
  get? : ∀ x < width, ∀ y < height, p.get? x y = some (color x y)
  /-- Setting a pixel inside succeeds and changes no other one. -/
  set? : ∀ d : Dot, d.Inside width height → ∃ q, p.set? d.x d.y d.color = some q ∧
    ∀ x < width, ∀ y < height, q.get? x y = some (if d.x = x ∧ d.y = y then d.color else color x y)
  get?_eq_none : ∀ x y, p.get? x y = none ↔ width * height ≤ y * width + x
  set?_eq_none : ∀ x y c, p.set? x y c = none ↔ width * height ≤ y * width + x
  /-- In a run of dots those past the end leave the picture as it is. -/
  keeps : ∀ dots : List Dot,
    p.setAll? (dots.filter fun d => d.y * width + d.x < width * height) =
      some (dots.foldl setOrKeep p)
  length_rows : p.rows.length = if width = 0 then 0 else height
  size_row : ∀ row ∈ p.rows, row.size = width
  flatMap_rows : p.rows.flatMap Array.toList = p.pixels.toList
  rows_get? : ∀ x < width, ∀ y < height, ∃ row, p.rows[y]? = some row ∧ row[x]? = some (color x y)

theorem isTable_of_drawn? {dots : List Dot} (inside : ∀ d ∈ dots, d.Inside width height)
    (drawn : drawn? width height dots = some p) :
    IsTable width height (fun x y => (lastColor? dots x y).getD .zero) p := by
  have sized := sized_of_drawn? inside drawn
  -- what every other part of the table is read off
  have colors :
      ∀ x < width, ∀ y < height, p.get? x y = some ((lastColor? dots x y).getD .zero) := by
    intro x hx y hy
    rw [(sized_black width height).get?_of_setAll? inside (setAll?_of_drawn? drawn) hx,
      get?_black hx hy]
    cases lastColor? dots x y <;> rfl
  have place_eq (x y) : p.place x y = y * width + x := by rw [place, sized.width]
  refine ⟨colors, fun d within => ?_, fun x y => ?_, fun x y c => ?_, fun calls => ?_, ?_,
    fun row => sized.size_of_mem_rows, flatMap_rows p, fun x hx y hy => ?_⟩
  · obtain ⟨q, set, -⟩ := sized.set? within
    refine ⟨q, set, fun x hx y hy => ?_⟩
    rw [sized.get?_of_set? within set hx, colors x hx y hy]
    split_ifs <;> rfl
  · rw [get?_eq_none_iff, place_eq, sized.pixels]
  · rw [set?_eq_none_iff, place_eq, sized.pixels]
  · have skipped := setAll?_filter p calls
    simpa only [place_eq, sized.pixels] using skipped
  · rw [sized.rows_eq, List.length_map, List.length_range]
  · rw [← colors x hx y hy]
    exact sized.getElem?_rows hx hy

/-- A picture on which dots inside are set is a table: a pixel has the colour of the last dot at it,
or is black. There is such a picture exactly if its pixels fit into a buffer, and then no dot is
refused. The places of pixels fit their word for all columns and rows, inside or not. -/
theorem drawn?_isTable (width height : UInt32) {dots : List Dot}
    (inside : ∀ d ∈ dots, d.Inside width.toNat height.toNat) :
    ((drawn? width.toNat height.toNat dots).isSome ↔
      Buffer.Fits pixelSize (width.toNat * height.toNat)) ∧
      (∀ p, drawn? width.toNat height.toNat dots = some p →
        IsTable width.toNat height.toNat (fun x y => (lastColor? dots x y).getD .zero) p) ∧
      width.toNat * height.toNat < 2 ^ 64 ∧
        ∀ x y : UInt32, y.toNat * width.toNat + x.toNat < 2 ^ 64 := by
  have product (m n : UInt32) : m.toNat * n.toNat ≤ 4294967295 * 4294967295 :=
    Nat.mul_le_mul (Nat.le_of_lt_succ m.toNat_lt) (Nat.le_of_lt_succ n.toNat_lt)
  refine ⟨drawn?_isSome_iff inside, fun p => isTable_of_drawn? inside, ?_, fun x y => ?_⟩
  · have size := product width height
    omega
  · have start := product y width
    have column := x.toNat_lt
    omega

/-- On a picture of three columns and two rows one pixel is set twice and another one once. -/
theorem drawn?_isTable_twice :
    let dots : List Dot := [⟨2, 0, ⟨1, 0, 0⟩⟩, ⟨0, 1, ⟨0, 1, 0⟩⟩, ⟨2, 0, ⟨0, 0, 1⟩⟩]
    (∀ d ∈ dots, d.Inside 3 2) ∧
      ∃ p, drawn? 3 2 dots = some p ∧ p.get? 2 0 = some ⟨0, 0, 1⟩ ∧ p.get? 0 1 = some ⟨0, 1, 0⟩ ∧
        p.get? 1 1 = some .zero ∧ p.rows.length = 2 ∧ p.set? 0 2 .zero = none := by
  intro dots
  have inside : ∀ d ∈ dots, d.Inside (3 : UInt32).toNat (2 : UInt32).toNat := by decide
  obtain ⟨fits, tables, -⟩ := drawn?_isTable 3 2 inside
  obtain ⟨p, drawn⟩ := Option.isSome_iff_exists.mp (fits.mpr (by decide))
  have table := tables p drawn
  exact ⟨inside, p, drawn, table.get? 2 (by decide) 0 (by decide),
    table.get? 0 (by decide) 1 (by decide),
    table.get? 1 (by decide) 1 (by decide), table.length_rows,
    (table.set?_eq_none 0 2 .zero).mpr (by decide)⟩

/-- A picture with as many columns and rows as their numbers allow cannot be drawn on. -/
theorem drawn?_largest_eq_none : drawn? 4294967295 4294967295 [⟨0, 0, ⟨1, 1, 1⟩⟩] = none := by
  decide

end RayTracer.Picture
