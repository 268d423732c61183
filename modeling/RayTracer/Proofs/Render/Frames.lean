import RayTracer.Command.Demo
import RayTracer.Proofs.Picture.Places
import RayTracer.Proofs.Render.Bands
import RayTracer.Render.Frame

/-! # Frames without bands

`Camera.plain` computes each pixel on its own. `render?_eq_plain` says that rendering in bands gives
this picture, for every number of workers and for every order in which the bands are rendered.

The ingredient is that the color which a band writes to a place depends on the place alone: the
regions start where the rows do, so column and row are the same whether they are counted from the
start of the region or from that of the picture. So a band that is rendered later leaves what is
painted as it is.
-/

namespace RayTracer

variable (camera : Camera) (scene : Scene) (settings : Settings)

/-- The color of the pixel at a place, counted row by row. -/
def Camera.colorAt (place : ℕ) : Color :=
  camera.pixel scene settings (UInt32.ofNat (place % settings.width.toNat))
    (UInt32.ofNat (place / settings.width.toNat))

/-- The picture of a scene, each pixel computed on its own. -/
def Camera.plain : Picture :=
  let width := settings.width.toNat
  let height := settings.height.toNat
  ⟨width, height, Array.ofFn fun place : Fin (width * height) =>
    camera.colorAt scene settings place⟩

/-! ## One band -/

variable {camera scene settings}

theorem Band.pixel_eq_colorAt (wide : 0 < settings.width.toNat) (b : Band) (k : ℕ) :
    b.pixel camera scene settings k =
      camera.colorAt scene settings ((b.region settings.width.toNat).start + k) := by
  have column :
      (b.startRow * settings.width.toNat + k) % settings.width.toNat = k % settings.width.toNat :=
    Nat.mul_add_mod_self_right ..
  have row : (b.startRow * settings.width.toNat + k) / settings.width.toNat =
      b.startRow + k / settings.width.toNat := by
    rw [Nat.add_comm, Nat.add_mul_div_right _ _ wide, Nat.add_comm]
  show _ = camera.pixel scene settings (UInt32.ofNat ((b.startRow * settings.width.toNat + k) % _))
    (UInt32.ofNat ((b.startRow * settings.width.toNat + k) / _))
  rw [column, row]
  rfl

/-- A band without rows has an empty region, so rendering it is no special case. -/
theorem Band.render?_eq (wide : 0 < settings.width.toNat) (b : Band) (pixels : Array Color) :
    b.render? camera scene settings (b.region settings.width.toNat) pixels =
      some ((b.region settings.width.toNat).fill (b.pixel camera scene settings) pixels) := by
  have nonzero : settings.width ≠ 0 := by
    rintro zero
    rw [zero] at wide
    exact Nat.lt_irrefl 0 wide
  unfold Band.render?
  by_cases empty : b.isEmpty = true
  · have none : b.rowCount = 0 := by simpa [Band.isEmpty] using empty
    have size : (b.region settings.width.toNat).size = 0 := by
      rw [Band.region, Band.pixelCount, none, Nat.zero_mul]
    rw [if_pos empty, Region.fill_of_size_eq_zero _ _ size]
  · rw [if_neg empty, if_neg nonzero]

variable (camera scene settings) in
/-- The place has the color of its pixel. -/
def Painted (pixels : Array Color) (place : ℕ) : Prop :=
  pixels[place]? = some (camera.colorAt scene settings place)

/-- A band paints its region, and what was painted stays. -/
theorem painted_fill (wide : 0 < settings.width.toNat) (b : Band) {pixels : Array Color} {place : ℕ}
    (inside : place < pixels.size)
    (h : Painted camera scene settings pixels place ∨
      b.startRow ≤ place / settings.width.toNat ∧ place / settings.width.toNat < b.endRow) :
    Painted camera scene settings
      ((b.region settings.width.toNat).fill (b.pixel camera scene settings) pixels) place := by
  unfold Painted
  rw [Region.getElem?_fill _ _ _ inside]
  split_ifs with within
  · rw [Band.pixel_eq_colorAt wide, Nat.add_sub_cancel' within.1]
  · refine h.resolve_right fun rows => within ?_
    -- a row of the band begins and ends in its region
    obtain ⟨onward, upTo⟩ := rows
    have ordered : b.startRow ≤ b.endRow := onward.trans upTo.le
    rw [Nat.le_div_iff_mul_le wide] at onward
    rw [Nat.div_lt_iff_lt_mul wide] at upTo
    exact ⟨onward, upTo.trans_eq (Band.startRow_mul_add_pixelCount ordered _).symm⟩

/-! ## All bands -/

variable (camera scene) in
/-- After all bands each place is painted that was painted before or is in the rows of a band. -/
theorem renderBands?_painted (wide : 0 < settings.width.toNat) (work : List (Band × Region)) :
    ∀ pixels : Array Color, (∀ task ∈ work, task.2 = task.1.region settings.width.toNat) →
      ∃ result, camera.renderBands? scene settings work pixels = some result ∧
        result.size = pixels.size ∧ ∀ place < pixels.size,
          (Painted camera scene settings pixels place ∨ ∃ task ∈ work,
            task.1.startRow ≤ place / settings.width.toNat ∧
              place / settings.width.toNat < task.1.endRow) →
          Painted camera scene settings result place := by
  induction work with
  | nil =>
    intro pixels _
    refine ⟨pixels, rfl, rfl, fun place _ h => h.resolve_right ?_⟩
    rintro ⟨task, mem, -⟩
    cases mem
  | cons task rest ih =>
    intro pixels aligned
    obtain ⟨b, region⟩ := task
    obtain rfl : region = b.region settings.width.toNat := aligned _ (List.mem_cons_self ..)
    -- the other bands start with what this one has painted, and none of them takes it back
    obtain ⟨result, done, size, painted⟩ :=
      ih ((b.region settings.width.toNat).fill (b.pixel camera scene settings) pixels)
        fun task mem => aligned task (List.mem_cons_of_mem _ mem)
    rw [Region.size_fill] at size painted
    refine ⟨result, ?_, size, fun place inside h => painted place inside ?_⟩
    · rw [Camera.renderBands?, Band.render?_eq wide, Option.bind_some]
      exact done
    · obtain before | ⟨other, mem, rows⟩ := h
      · exact .inl (painted_fill wide b inside (.inl before))
      · obtain same | later := List.mem_cons.mp mem
        · subst same
          exact .inl (painted_fill wide b inside (.inr rows))
        · exact .inr ⟨other, later, rows⟩

theorem zip_map_self {α β : Type} (f : α → β) (l : List α) :
    l.zip (l.map f) = l.map fun a => (a, f a) := by
  simpa using (List.zip_map' : (l.map id).zip (l.map f) = _)

/-- The bands of a picture, rendered in any order, paint all of it. -/
theorem renderBands?_eq_plain (wide : 0 < settings.width.toNat) (count : ℕ)
    {work : List (Band × Region)}
    (order : work.Perm ((Band.generate settings.height.toNat count).zip
      ((Band.generate settings.height.toNat count).map (·.region settings.width.toNat)))) :
    camera.renderBands? scene settings work
        (Picture.black settings.width.toNat settings.height.toNat).pixels =
      some (camera.plain scene settings).pixels := by
  rw [zip_map_self] at order
  have aligned : ∀ task ∈ work, task.2 = task.1.region settings.width.toNat := by
    intro task mem
    obtain ⟨b, -, rfl⟩ := List.mem_map.mp (order.mem_iff.mp mem)
    rfl
  obtain ⟨result, done, size, painted⟩ := renderBands?_painted camera scene wide work
    (Picture.black settings.width.toNat settings.height.toNat).pixels aligned
  have all : (Picture.black settings.width.toNat settings.height.toNat).pixels.size =
      settings.width.toNat * settings.height.toNat := Array.size_replicate
  rw [all] at size painted
  rw [done]
  congr 1
  refine Array.ext ?_ fun place inside _ => ?_
  · rw [size]
    exact Array.size_ofFn.symm
  · rw [size] at inside
    have row : place / settings.width.toNat < settings.height.toNat :=
      (Nat.div_lt_iff_lt_mul wide).mpr (by rwa [Nat.mul_comm])
    -- the row of a place belongs to a band, and the band was rendered, no matter when
    obtain ⟨b, mem, rows⟩ := Band.exists_band_of_row count row
    have task : (b, b.region settings.width.toNat) ∈ work :=
      order.mem_iff.mpr (List.mem_map.mpr ⟨b, mem, rfl⟩)
    have color := painted place inside (.inr ⟨_, task, rows⟩)
    rw [Painted, Array.getElem?_eq_some_iff] at color
    obtain ⟨_, color⟩ := color
    rw [color]
    simp only [Camera.plain, Array.getElem_ofFn]

theorem Camera.plain_pixel (x y : UInt32) (hx : x < settings.width) (hy : y < settings.height) :
    (camera.plain scene settings).pixels[y.toNat * settings.width.toNat + x.toNat]? =
      some (camera.pixel scene settings x y) := by
  have column : x.toNat < settings.width.toNat := hx
  have row : y.toNat < settings.height.toNat := hy
  show (Array.ofFn _)[_]? = _
  rw [Array.getElem?_ofFn, dif_pos (Picture.place_lt column row), colorAt, Picture.place_mod column,
    Picture.place_div column, UInt32.ofNat_toNat, UInt32.ofNat_toNat]

theorem Camera.render?_of_fits (machine : ℕ)
    (fits : Buffer.Fits Picture.pixelSize (settings.width.toNat * settings.height.toNat)) :
    camera.render? scene settings machine = some (camera.plain scene settings) := by
  unfold render? Picture.black?
  dsimp only
  rw [if_pos fits, Option.bind_some]
  split_ifs with empty
  · -- without pixels the black picture is the whole picture
    have none : (Picture.black settings.width.toNat settings.height.toNat).pixels.size = 0 :=
      Array.size_replicate.trans empty
    have pixels : (Picture.black settings.width.toNat settings.height.toNat).pixels =
        (camera.plain scene settings).pixels := by
      refine Array.ext ?_ fun place inside _ => by omega
      exact Array.size_replicate.trans Array.size_ofFn.symm
    exact congrArg (fun p => some (Picture.mk settings.width.toNat settings.height.toNat p)) pixels
  · have wide : 0 < settings.width.toNat :=
      Nat.pos_of_ne_zero fun zero => empty (by rw [zero, Nat.zero_mul])
    rw [generate?_workers, Option.bind_some, Band.regions?_generate, Option.bind_some,
      renderBands?_eq_plain wide _ (.refl _)]
    rfl

theorem Camera.render?_of_not_fits (machine : ℕ)
    (large : ¬Buffer.Fits Picture.pixelSize (settings.width.toNat * settings.height.toNat)) :
    camera.render? scene settings machine = none := by
  rwa [← Option.not_isSome_iff_eq_none, render?_isSome_iff]

theorem Camera.render?_threads (camera : Camera) (scene : Scene) (settings : Settings)
    (threads : Option UInt64) (machine machine' : ℕ) :
    camera.render? scene { settings with threads } machine' =
      camera.render? scene settings machine := by
  let other : Settings := { settings with threads }
  by_cases fits : Buffer.Fits Picture.pixelSize (settings.width.toNat * settings.height.toNat)
  · have same : camera.plain scene other = camera.plain scene settings := rfl
    have fits' : Buffer.Fits Picture.pixelSize (other.width.toNat * other.height.toNat) := fits
    rw [render?_of_fits machine fits, ← same]
    exact render?_of_fits machine' fits'
  · have large : ¬Buffer.Fits Picture.pixelSize (other.width.toNat * other.height.toNat) := fits
    rw [render?_of_not_fits machine fits]
    exact render?_of_not_fits machine' large

/-- Rendering in bands is rendering each pixel on its own, if the pixels fit into a buffer. The
number of workers makes no difference, nor does the order of the bands, and no row, region or place
that is computed on the way leaves its word or the picture. -/
theorem render?_eq_plain (camera : Camera) (scene : Scene) (settings : Settings)
    (fits : Buffer.Fits Picture.pixelSize (settings.width.toNat * settings.height.toNat)) :
    (∀ threads machine, camera.render? scene { settings with threads } machine =
        some (camera.plain scene settings)) ∧
      (camera.plain scene settings).width = settings.width.toNat ∧
      (camera.plain scene settings).height = settings.height.toNat ∧
      (camera.plain scene settings).pixels.size = settings.width.toNat * settings.height.toNat ∧
      (∀ x y : UInt32, x < settings.width → y < settings.height →
        (camera.plain scene settings).pixels[y.toNat * settings.width.toNat + x.toNat]? =
          some (camera.pixel scene settings x y)) ∧
      (∀ count, ∃ regions,
        Band.regions? (settings.width.toNat * settings.height.toNat) settings.width.toNat
            (Band.generate settings.height.toNat count) = some regions ∧
          ∀ work, work.Perm ((Band.generate settings.height.toNat count).zip regions) →
            settings.width ≠ 0 →
              camera.renderBands? scene settings work
                  (Picture.black settings.width.toNat settings.height.toNat).pixels =
                some (camera.plain scene settings).pixels) ∧
      (∀ count < 2 ^ 64, ∀ b ∈ Band.generate settings.height.toNat count,
        b.InWords settings.height.toNat settings.width.toNat (max count 1)) := by
  refine ⟨fun threads machine => ?_, rfl, rfl, Array.size_ofFn, Camera.plain_pixel, fun count => ?_,
    fun count word b mem => ?_⟩
  · -- the plain picture does not depend on the number of threads
    have plain : camera.plain scene { settings with threads } = camera.plain scene settings := rfl
    rw [← plain]
    exact Camera.render?_of_fits machine fits
  · refine ⟨_, Band.regions?_generate _ _ count, fun work order nonzero => ?_⟩
    have wide : 0 < settings.width.toNat :=
      Nat.pos_of_ne_zero fun zero => nonzero (UInt32.toNat_inj.mp zero)
    exact renderBands?_eq_plain wide count order
  · exact Band.inWords_generate settings.height.toNat_lt settings.width.toNat_lt word mem

/-- Three rows of the demo scene are shared out to two workers, so the bands differ in height. The
lower one is rendered first, and the picture is the same. -/
theorem render?_eq_plain_demo :
    let settings : Settings := { width := 4, height := 3 }
    let camera := Demo.camera settings.aspectRatio
    let plain := camera.plain Demo.scene settings
    Buffer.Fits Picture.pixelSize (settings.width.toNat * settings.height.toNat) ∧
      (∀ threads machine, camera.render? Demo.scene { settings with threads } machine =
        some plain) ∧
      plain.pixels.size = 12 ∧
      (∀ x y : UInt32, x < settings.width → y < settings.height →
        plain.pixels[y.toNat * settings.width.toNat + x.toNat]? =
          some (camera.pixel Demo.scene settings x y)) ∧
      camera.renderBands? Demo.scene settings [(⟨1, 2, 3⟩, ⟨8, 4⟩), (⟨0, 0, 2⟩, ⟨0, 8⟩)]
        (Picture.black 4 3).pixels = some plain.pixels := by
  intro settings camera plain
  have fits : Buffer.Fits Picture.pixelSize (settings.width.toNat * settings.height.toNat) := by
    decide
  obtain ⟨rendered, -, -, size, pixels, bands, -⟩ :=
    render?_eq_plain camera Demo.scene settings fits
  obtain ⟨regions, carved, painted⟩ := bands 2
  have two : Band.regions? (settings.width.toNat * settings.height.toNat) settings.width.toNat
      (Band.generate settings.height.toNat 2) = some [⟨0, 8⟩, ⟨8, 4⟩] := by decide
  obtain rfl : regions = [⟨0, 8⟩, ⟨8, 4⟩] := Option.some.inj (carved.symm.trans two)
  have generated : Band.generate settings.height.toNat 2 = [⟨0, 0, 2⟩, ⟨1, 2, 3⟩] := by decide
  rw [generated] at painted
  exact ⟨fits, rendered, size, pixels, painted _ (.swap _ _ []) (by decide)⟩

/-- A picture with as many columns and rows as their numbers allow does not fit into a buffer. -/
theorem render?_largest_eq_none :
    (default : Camera).render? (Scene.lit default) { width := 4294967295, height := 4294967295 } 1 =
      none := by
  rw [← Option.not_isSome_iff_eq_none, Camera.render?_isSome_iff]
  decide

end RayTracer
