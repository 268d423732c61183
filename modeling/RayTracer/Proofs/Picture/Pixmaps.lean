import RayTracer.Proofs.Picture.Places
import RayTracer.Proofs.Picture.Sinks
import RayTracer.Proofs.Picture.Words

/-! # Pixmaps are read back

A picture is written line by line (`toList_pixmap`), and each line is a line of numerals. So reading
its words gives the magic number and then the numbers, and these the size and the bytes of each
pixel (`ofText?_pixmap`). What is read depends on the text alone. So a text determines the size and
the bytes of the picture, and they determine the text.
-/

namespace RayTracer

open Pixmap (words numeral numerals natural?)

/-- The bytes of a colour as numbers. -/
def Color.triple (c : Color) : ℕ × ℕ × ℕ :=
  let (r, g, b) := Color.bytes c
  (r.toNat, g.toNat, b.toNat)

/-- The numbers of a triple. -/
def Pixmap.channels : ℕ × ℕ × ℕ → List ℕ := fun (r, g, b) => [r, g, b]

theorem Color.triple_le (c : Color) : c.triple.1 ≤ 255 ∧ c.triple.2.1 ≤ 255 ∧ c.triple.2.2 ≤ 255 :=
  ⟨Nat.le_of_lt_succ (UInt8.toNat_lt _), Nat.le_of_lt_succ (UInt8.toNat_lt _),
    Nat.le_of_lt_succ (UInt8.toNat_lt _)⟩

theorem Color.triple_eq_iff {c d : Color} : c.triple = d.triple ↔ c.bytes = d.bytes := by
  simp [triple, Prod.ext_iff, UInt8.toNat_inj]

theorem Pixmap.triples?_channels (triples : List (ℕ × ℕ × ℕ)) :
    triples? (triples.flatMap channels) = some triples := by
  induction triples with
  | nil => rfl
  | cons t rest ih =>
    rw [List.flatMap_cons]
    show (triples? (rest.flatMap channels)).map (t :: ·) = _
    rw [ih]
    rfl

namespace Picture

variable {p q : Picture} {width height : ℕ}

/-! ## Lines -/

/-- The triples of the pixels, in the order of their places. -/
def triples (p : Picture) : List (ℕ × ℕ × ℕ) := p.pixels.toList.map Color.triple

/-- The numbers of a text, in the order in which they are written. -/
def numbers (p : Picture) : List ℕ :=
  p.width :: p.height :: 255 :: p.triples.flatMap Pixmap.channels

/-- The lines of the text: three for the header and one for each pixel. -/
def lines (p : Picture) : List (List Char) :=
  ['P', '3'] :: numerals [p.width, p.height] :: numerals [255] ::
    p.triples.map fun t => numerals (Pixmap.channels t)

theorem toList_pixelChunks (c : Color) :
    (pixelChunks c).flatMap String.toList = numerals (Pixmap.channels c.triple) ++ ['\n'] := by
  have chunks : pixelChunks c =
      [toString c.triple.1, " ", toString c.triple.2.1, " ", toString c.triple.2.2, "\n"] := rfl
  have blank : " ".toList = [' '] := rfl
  have lineEnd : "\n".toList = ['\n'] := rfl
  have line : numerals (Pixmap.channels c.triple) =
      numeral c.triple.1 ++ ' ' :: (numeral c.triple.2.1 ++ ' ' :: numeral c.triple.2.2) := by
    rw [Pixmap.channels, Pixmap.numerals_cons_cons, Pixmap.numerals_cons_cons,
      Pixmap.numerals_singleton]
  simp [chunks, line, numeral, blank, lineEnd]

theorem toList_pixmap (p : Picture) : p.pixmap.toList = p.lines.flatMap (· ++ ['\n']) := by
  have header :
      ["P3\n", toString p.width, " ", toString p.height, "\n", "255\n"].flatMap String.toList =
      ['P', '3', '\n'] ++ (numerals [p.width, p.height] ++ '\n' :: (numerals [255] ++ ['\n'])) := by
    have magic : "P3\n".toList = ['P', '3', '\n'] := rfl
    have blank : " ".toList = [' '] := rfl
    have lineEnd : "\n".toList = ['\n'] := rfl
    have largest : "255\n".toList = numerals [255] ++ ['\n'] := rfl
    simp [magic, blank, lineEnd, largest, numeral, Pixmap.numerals_cons_cons,
      Pixmap.numerals_singleton]
  rw [pixmap, String.toList_join, chunks, List.flatMap_append, List.flatMap_assoc, header,
    lines, triples]
  simp [toList_pixelChunks, List.flatMap_map]

theorem eq_of_mem_lines {line : List Char} (mem : line ∈ p.lines) :
    line = ['P', '3'] ∨ ∃ ns, line = numerals ns := by
  simp only [lines, List.mem_cons, List.mem_map] at mem
  obtain magic | size | largest | ⟨t, -, rfl⟩ := mem
  · exact .inl magic
  · exact .inr ⟨_, size⟩
  · exact .inr ⟨_, largest⟩
  · exact .inr ⟨_, rfl⟩

/-- Every line ends in a line end, also the last one, and there is nothing behind it. -/
theorem splitOn_pixmap (p : Picture) : p.pixmap.toList.splitOn '\n' = p.lines ++ [[]] := by
  have single : ∀ line ∈ p.lines, '\n' ∉ line := by
    intro line mem
    obtain rfl | ⟨ns, rfl⟩ := eq_of_mem_lines mem
    · decide
    · exact Pixmap.newline_not_mem_numerals ns
  rw [toList_pixmap]
  generalize p.lines = lines at single
  induction lines with
  | nil => exact List.splitOn_nil _
  | cons line rest ih =>
    rw [List.flatMap_cons, List.append_assoc, List.singleton_append,
      List.splitOn_append_cons_self_of_not_mem (single line (List.mem_cons_self ..)),
      ih fun other mem => single other (List.mem_cons_of_mem _ mem), List.cons_append]

/-! ## Reading -/

theorem words_pixmap (p : Picture) :
    words p.pixmap.toList = ['P', '3'] :: p.numbers.map numeral := by
  have magic : words ['P', '3'] = [['P', '3']] := rfl
  rw [toList_pixmap, Pixmap.words_flatMap (by decide), lines, numbers]
  simp [magic, Pixmap.words_numerals, List.flatMap_map, List.map_flatMap]

theorem mem_channels_le {t : ℕ × ℕ × ℕ} (mem : t ∈ p.triples) :
    t.1 ≤ 255 ∧ t.2.1 ≤ 255 ∧ t.2.2 ≤ 255 := by
  obtain ⟨c, -, rfl⟩ := List.mem_map.mp mem
  exact c.triple_le

/-- The text of a picture is read as its size and the bytes of its pixels. -/
theorem ofText?_pixmap (sized : p.Sized width height) :
    Pixmap.ofText? p.pixmap = some ⟨width, height, p.triples⟩ := by
  have count : p.triples.length = p.width * p.height := by
    rw [triples, List.length_map, Array.length_toList, sized.pixels, sized.width, sized.height]
  have small : (p.triples.flatMap Pixmap.channels).all (· ≤ 255) = true := by
    simp only [List.all_eq_true, List.mem_flatMap, decide_eq_true_eq]
    rintro n ⟨t, mem, channel⟩
    obtain ⟨r, g, b⟩ := mem_channels_le mem
    simp only [Pixmap.channels, List.mem_cons, List.not_mem_nil, or_false] at channel
    obtain rfl | rfl | rfl := channel <;> assumption
  have read : (p.numbers.map numeral).mapM natural? = some p.numbers := Pixmap.mapM_natural? _
  simp only [Pixmap.ofText?, words_pixmap, read, Option.bind_eq_bind, Option.bind_some]
  show (Pixmap.triples? (p.triples.flatMap Pixmap.channels)).bind _ = _
  rw [Pixmap.triples?_channels, Option.bind_some, if_pos ⟨count, small⟩, sized.width, sized.height]

/-! ## Texts and pictures -/

theorem getElem?_triples (sized : p.Sized width height) (x y : ℕ) :
    p.triples[y * width + x]? = (p.get? x y).map Color.triple := by
  rw [triples, List.getElem?_map, Array.getElem?_toList, get?, place, sized.width]

/-- Pictures of one size have the same triples if each of their pixels has the same bytes. -/
theorem triples_eq_iff (hp : p.Sized width height) (hq : q.Sized width height) :
    p.triples = q.triples ↔
      ∀ x < width, ∀ y < height, (p.get? x y).map Color.bytes = (q.get? x y).map Color.bytes := by
  have bytes (c d : Option Color) : c.map Color.triple = d.map Color.triple ↔
      c.map Color.bytes = d.map Color.bytes := by
    cases c <;> cases d <;> simp [Color.triple_eq_iff]
  simp only [← bytes, ← getElem?_triples hp, ← getElem?_triples hq]
  constructor
  · intro same x _ y _
    rw [same]
  · intro same
    have size : p.triples.length = width * height ∧ q.triples.length = width * height := by
      simp [triples, hp.pixels, hq.pixels]
    refine List.ext_getElem? fun i => ?_
    obtain inside | outside := Nat.lt_or_ge i (width * height)
    · obtain ⟨x, hx, y, hy, rfl⟩ := exists_place inside
      exact same x hx y hy
    · -- past the last place neither has a triple
      rw [List.getElem?_eq_none (by omega), List.getElem?_eq_none (by omega)]

theorem pixmap_congr (width : p.width = q.width) (height : p.height = q.height)
    (same : p.triples = q.triples) :
    p.pixmap = q.pixmap := by
  rw [← String.toList_inj, toList_pixmap, toList_pixmap, lines, lines, width, height, same]

/-- A picture that is drawn inside its size is written as a text from which its size and the bytes
of its pixels are read back, pixel by pixel in row-major order. After three lines of header each
pixel has a line of its own with its three numbers; nothing follows the last line end. So two such
pictures have the same text exactly if they have the same size and the same bytes. There is a
picture to be drawn on exactly if its pixels fit into a buffer. -/
theorem pixmap_drawn_reads_back {dots : List Dot} (inside : ∀ d ∈ dots, d.Inside width height) :
    ((drawn? width height dots).isSome ↔ Buffer.Fits pixelSize (width * height)) ∧
      ∀ p, drawn? width height dots = some p →
        (∀ room, p.pixmap.length ≤ room →
          p.writeTo ⟨room, []⟩ = (⟨room - p.pixmap.length, p.pixmap.toList⟩, .ok ())) ∧
        (∃ triples, Pixmap.ofText? p.pixmap = some ⟨width, height, triples⟩ ∧
          triples.length = width * height ∧
          (∀ x < width, ∀ y < height, ∃ c, p.get? x y = some c ∧
            triples[y * width + x]? = some c.triple) ∧
          (∀ t ∈ triples, t.1 ≤ 255 ∧ t.2.1 ≤ 255 ∧ t.2.2 ≤ 255) ∧
          ∃ header lines, header.length = 3 ∧
          p.pixmap.toList.splitOn '\n' = header ++ lines ++ [[]] ∧
            lines.map (fun line => (words line).mapM natural?) =
              triples.map fun (r, g, b) => some [r, g, b]) ∧
        ∀ width' height' dots' q, (∀ d ∈ dots', Dot.Inside d width' height') →
          drawn? width' height' dots' = some q →
          (p.pixmap = q.pixmap ↔ width = width' ∧ height = height' ∧
            ∀ x < width, ∀ y < height,
              (p.get? x y).map Color.bytes = (q.get? x y).map Color.bytes) := by
  refine ⟨drawn?_isSome_iff inside, fun p drawn => ?_⟩
  have sized := sized_of_drawn? inside drawn
  refine ⟨fun room => writeTo_of_length_le, ⟨p.triples, ofText?_pixmap sized, ?_, ?_, ?_, ?_⟩, ?_⟩
  · rw [triples, List.length_map, Array.length_toList, sized.pixels]
  · intro x hx y hy
    obtain ⟨c, there⟩ := sized.get? hx hy
    exact ⟨c, there, by rw [getElem?_triples sized, there, Option.map_some]⟩
  · exact fun t => mem_channels_le
  · refine ⟨[['P', '3'], numerals [p.width, p.height], numerals [255]],
      p.triples.map fun t => numerals (Pixmap.channels t), rfl, splitOn_pixmap p, ?_⟩
    rw [List.map_map]
    exact List.map_congr_left fun t _ => Pixmap.mapM_words_numerals _
  · intro width' height' dots' q inside' drawn'
    have sized' := sized_of_drawn? inside' drawn'
    constructor
    -- the text of one picture is read back as the other
    · intro same
      have read := ofText?_pixmap sized
      rw [same, ofText?_pixmap sized'] at read
      obtain ⟨rfl, rfl, triples⟩ := Pixmap.mk.inj (Option.some.inj read)
      exact ⟨rfl, rfl, (triples_eq_iff sized sized').mp triples.symm⟩
    · rintro ⟨rfl, rfl, same⟩
      exact pixmap_congr (sized.width.trans sized'.width.symm)
        (sized.height.trans sized'.height.symm) ((triples_eq_iff sized sized').mpr same)

/-- A picture of two columns and two rows; the lower left pixel is blue. -/
theorem pixmap_drawn_reads_back_small :
    let dots : List Dot :=
      [⟨0, 0, ⟨1, 0, 0⟩⟩, ⟨1, 0, ⟨0, 1, 0⟩⟩, ⟨1, 1, .splat 0.5⟩, ⟨0, 1, ⟨0, 0, 1⟩⟩]
    (∀ d ∈ dots, d.Inside 2 2) ∧
      ∃ p triples, drawn? 2 2 dots = some p ∧ Pixmap.ofText? p.pixmap = some ⟨2, 2, triples⟩ ∧
        triples.length = 4 ∧ triples[2]? = some (0, 0, 255) ∧ p.pixmap ≠ (black 2 2).pixmap := by
  intro dots
  have inside : ∀ d ∈ dots, d.Inside 2 2 := by decide
  have drawn : drawn? 2 2 dots = some ⟨2, 2, #[⟨1, 0, 0⟩, ⟨0, 1, 0⟩, ⟨0, 0, 1⟩, .splat 0.5]⟩ := by
    decide +kernel
  obtain ⟨-, texts⟩ := pixmap_drawn_reads_back inside
  obtain ⟨-, ⟨triples, read, count, pixels, -⟩, distinct⟩ := texts _ drawn
  obtain ⟨c, there, blue⟩ := pixels 0 (by decide) 1 (by decide)
  have color : Vec3.mk 0 0 1 = c := Option.some.inj there
  have black : drawn? 2 2 [] = some (black 2 2) := rfl
  refine ⟨inside, _, triples, drawn, read, count, ?_, fun same => ?_⟩
  · rw [← color] at blue
    exact blue.trans (by decide +kernel)
  · obtain ⟨-, -, bytes⟩ := (distinct 2 2 [] _ nofun black).mp same
    exact absurd (bytes 0 (by decide) 1 (by decide)) (by decide +kernel)

end Picture

end RayTracer
