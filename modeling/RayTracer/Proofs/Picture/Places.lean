import Mathlib.Data.Nat.Notation
import Mathlib.Tactic.SplitIfs
import RayTracer.Picture.History

/-! # Places of pixels

A pixel inside a picture has a place, which gives its column and its row back, so setting it
succeeds and leaves a picture of the same size. `Sized` is the invariant, `Sized.set?` its step and
`Sized.setAll?` the run.
-/

namespace RayTracer.Picture

variable {p q : Picture} {width height x y : ℕ}

/-- The picture has the size, and a colour for each of its pixels. -/
structure Sized (width height : ℕ) (p : Picture) : Prop where
  pixels : p.pixels.size = width * height
  width : p.width = width
  height : p.height = height

theorem place_lt (hx : x < width) (hy : y < height) : y * width + x < width * height := by
  calc y * width + x < (y + 1) * width := by
        rw [Nat.succ_mul]
        omega
    _ ≤ height * width := Nat.mul_le_mul_right _ hy
    _ = width * height := Nat.mul_comm ..

theorem place_mod (hx : x < width) (y : ℕ) : (y * width + x) % width = x := by
  rw [Nat.mul_add_mod_self_right, Nat.mod_eq_of_lt hx]

theorem place_div (hx : x < width) (y : ℕ) : (y * width + x) / width = y := by
  rw [Nat.add_comm, Nat.add_mul_div_right _ _ (by omega), Nat.div_eq_of_lt hx, Nat.zero_add]

/-- Every place is that of a pixel inside. -/
theorem exists_place {i : ℕ} (inside : i < width * height) :
    ∃ x < width, ∃ y < height, i = y * width + x := by
  have wide : 0 < width := Nat.pos_of_mul_pos_right (Nat.zero_lt_of_lt inside)
  refine ⟨i % width, Nat.mod_lt _ wide, i / width, ?_, ?_⟩
  · rwa [Nat.div_lt_iff_lt_mul wide, Nat.mul_comm]
  · rw [Nat.mul_comm, Nat.div_add_mod]

theorem sized_black (width height : ℕ) : Sized width height (black width height) :=
  ⟨Array.size_replicate, rfl, rfl⟩

theorem Sized.place_lt_size (sized : Sized width height p) (hx : x < width) (hy : y < height) :
    p.place x y < p.pixels.size := by
  rw [place, sized.width, sized.pixels]
  exact place_lt hx hy

theorem Sized.set? (sized : Sized width height p) {d : Dot} (inside : d.Inside width height) :
    ∃ q, p.set? d.x d.y d.color = some q ∧ Sized width height q := by
  have there := sized.place_lt_size inside.1 inside.2
  exact ⟨_, dif_pos there, (Array.size_set there).trans sized.pixels, sized.width, sized.height⟩

theorem Sized.setAll? (sized : Sized width height p) {dots : List Dot}
    (inside : ∀ d ∈ dots, d.Inside width height) :
    ∃ q, p.setAll? dots = some q ∧ Sized width height q := by
  induction dots generalizing p with
  | nil => exact ⟨p, rfl, sized⟩
  | cons d rest ih =>
    obtain ⟨next, set, sized⟩ := sized.set? (inside d (List.mem_cons_self ..))
    obtain ⟨q, done, sized⟩ := ih sized fun other mem => inside other (List.mem_cons_of_mem _ mem)
    refine ⟨q, ?_, sized⟩
    rw [Picture.setAll?, List.foldlM_cons, set]
    exact done

/-- Drawing inside a picture fails only if there is no picture of the size. -/
theorem drawn?_isSome_iff {dots : List Dot} (inside : ∀ d ∈ dots, d.Inside width height) :
    (drawn? width height dots).isSome ↔ Buffer.Fits pixelSize (width * height) := by
  unfold drawn? black?
  split_ifs with fits
  · obtain ⟨q, done, -⟩ := (sized_black width height).setAll? inside
    rw [Option.bind_some, done]
    exact iff_of_true rfl fits
  · exact iff_of_false Bool.false_ne_true fits

/-- What is drawn comes from the black picture by setting the dots. -/
theorem setAll?_of_drawn? {dots : List Dot} (drawn : drawn? width height dots = some p) :
    (black width height).setAll? dots = some p := by
  obtain ⟨start, begun, done⟩ := Option.bind_eq_some_iff.mp drawn
  rw [black?, Option.ite_none_right_eq_some, Option.some.injEq] at begun
  obtain ⟨-, rfl⟩ := begun
  exact done

theorem sized_of_drawn? {dots : List Dot} (inside : ∀ d ∈ dots, d.Inside width height)
    (drawn : drawn? width height dots = some p) : Sized width height p := by
  obtain ⟨q, done, sized⟩ := (sized_black width height).setAll? inside
  rw [setAll?_of_drawn? drawn] at done
  exact Option.some.inj done ▸ sized

theorem Sized.get? (sized : Sized width height p) (hx : x < width) (hy : y < height) :
    ∃ c, p.get? x y = some c :=
  ⟨_, Array.getElem?_eq_getElem (sized.place_lt_size hx hy)⟩

end RayTracer.Picture
