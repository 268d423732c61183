import RayTracer.Proofs.Picture.Pixmaps

/-! # What is left of a picture when a sink is full

`writeTo_eq_prefix` says that a sink of limited room ends up with the first bytes of the text, as
many as it has room for, and that writing fails exactly if some are missing.

Two things make the room of a sink, which counts characters, one of bytes, and its writing of a
chunk at once one of many calls.

* The text is ASCII, so a character is a byte (`utf8Size_of_mem_pixmap`).
* `Offers` is the handing over of a chunk call by call. A sink may take less than it has room for,
  and what is left is offered again. What it has at the end does not depend on that (`offers_iff`),
  nor on the chunks into which a text is cut (`delivers_iff`).
-/

namespace RayTracer

/-! ## Bytes -/

theorem utf8Size_of_isDigit {c : Char} (digit : c.isDigit = true) : c.utf8Size = 1 := by
  rw [Char.utf8Size_eq_one_iff]
  simp only [Char.isDigit, Bool.and_eq_true, decide_eq_true_eq] at digit
  exact UInt32.le_trans digit.2 (by decide)

theorem Pixmap.utf8Size_of_mem_numerals {ns : List ℕ} {c : Char} (mem : c ∈ numerals ns) :
    c.utf8Size = 1 := by
  obtain digit | rfl := isDigit_of_mem_numerals mem
  · exact utf8Size_of_isDigit digit
  · decide

/-- The text of a picture is ASCII. -/
theorem Picture.utf8Size_of_mem_pixmap {p : Picture} {c : Char} (mem : c ∈ p.pixmap.toList) :
    c.utf8Size = 1 := by
  rw [toList_pixmap, List.mem_flatMap] at mem
  obtain ⟨line, inText, inLine⟩ := mem
  rw [List.mem_append, List.mem_singleton] at inLine
  obtain inLine | rfl := inLine
  · obtain rfl | ⟨ns, rfl⟩ := eq_of_mem_lines inText
    · rw [List.mem_pair] at inLine
      obtain rfl | rfl := inLine <;> decide
    · exact Pixmap.utf8Size_of_mem_numerals inLine
  · decide

theorem utf8ByteSize_of_single {text : List Char} (single : ∀ c ∈ text, c.utf8Size = 1) :
    (String.ofList text).utf8ByteSize = text.length := by
  induction text with
  | nil => rfl
  | cons c rest ih =>
    rw [← List.singleton_append, String.ofList_append, String.utf8ByteSize_append,
      ← String.singleton_eq_ofList, String.utf8ByteSize_singleton, single c (List.mem_cons_self ..),
      ih fun other mem => single other (List.mem_cons_of_mem _ mem)]
    exact Nat.add_comm ..

/-- The first characters are the first bytes, if each character is one byte. -/
theorem toByteArray_take {text : String} (single : ∀ c ∈ text.toList, c.utf8Size = 1) (n : ℕ) :
    (String.ofList (text.toList.take n)).toByteArray =
      text.toByteArray.extract 0 (min n text.utf8ByteSize) := by
  have split : text = String.ofList (text.toList.take n) ++ String.ofList (text.toList.drop n) := by
    rw [← String.ofList_append, List.take_append_drop, String.ofList_toList]
  have whole := utf8ByteSize_of_single single
  rw [String.ofList_toList] at whole
  have size : min n text.utf8ByteSize = (String.ofList (text.toList.take n)).toByteArray.size := by
    rw [String.size_toByteArray, utf8ByteSize_of_single fun c mem =>
      single c (List.mem_of_mem_take mem), List.length_take, whole]
  conv_rhs => rw [split, String.toByteArray_append]
  rw [← split, ByteArray.extract_append_eq_left size]

/-! ## Calls -/

namespace Sink

/-- A chunk is offered to a sink until all of it is taken or nothing is. With room left a call takes
something, with none it takes nothing. -/
inductive Offers : Sink → List Char → Sink × Except WriteError Unit → Prop
  | done {s : Sink} : Offers s [] (s, .ok ())
  | refused {s : Sink} {text : List Char} : s.room = 0 → text ≠ [] → Offers s text (s, .error .full)
  | taken {s : Sink} {text : List Char} {n : ℕ} {r : Sink × Except WriteError Unit} :
      0 < n → n ≤ s.room → n ≤ text.length →
        Offers ⟨s.room - n, s.received ++ text.take n⟩ (text.drop n) r → Offers s text r

/-- Chunks are offered in turn, up to the first that is not taken whole. -/
inductive Delivers : Sink → List String → Sink × Except WriteError Unit → Prop
  | done {s : Sink} : Delivers s [] (s, .ok ())
  | stopped {s s' : Sink} {chunk : String} {rest : List String} {e : WriteError} :
      Offers s chunk.toList (s', .error e) → Delivers s (chunk :: rest) (s', .error e)
  | next {s s' : Sink} {chunk : String} {rest : List String} {r : Sink × Except WriteError Unit} :
      Offers s chunk.toList (s', .ok ()) → Delivers s' rest r → Delivers s (chunk :: rest) r

variable {s : Sink} {text : List Char} {r : Sink × Except WriteError Unit}

/-- However a sink divides a chunk, it has its first characters at the end. -/
theorem Offers.eq (offers : Offers s text r) :
    r = (⟨s.room - text.length, s.received ++ text.take s.room⟩,
      if text.length ≤ s.room then .ok () else .error .full) := by
  induction offers with
  | done => simp
  | @refused s text full some =>
    have long : ¬text.length ≤ 0 := by simpa using some
    rw [full, if_neg long, List.take_zero, List.append_nil, Nat.zero_sub, ← full]
  | @taken s text n r positive room within _ ih =>
    have split : text.take n ++ (text.drop n).take (s.room - n) = text.take s.room := by
      rw [← List.take_add, Nat.add_sub_cancel' room]
    have both : (text.drop n).length ≤ s.room - n ↔ text.length ≤ s.room := by
      rw [List.length_drop]
      omega
    have left : s.room - n - (text.drop n).length = s.room - text.length := by
      rw [List.length_drop]
      omega
    rw [ih, List.append_assoc, split, left]
    simp only [both]

theorem exists_offers (s : Sink) (text : List Char) : ∃ r, Offers s text r := by
  by_cases some : text = []
  · subst some
    exact ⟨_, .done⟩
  · by_cases full : s.room = 0
    · exact ⟨_, .refused full some⟩
    · -- all that fits is taken in one call, and the next call finds nothing left or no room
      have nonempty : 0 < text.length := List.length_pos_iff.mpr some
      have rest :
          ∃ r, Offers ⟨s.room - min s.room text.length,
            s.received ++ text.take (min s.room text.length)⟩
          (text.drop (min s.room text.length)) r := by
        by_cases fits : text.length ≤ s.room
        · rw [Nat.min_eq_right fits, List.drop_length]
          exact ⟨_, .done⟩
        · refine ⟨_, .refused (by simp only; omega) ?_⟩
          rw [← List.length_pos_iff, List.length_drop]
          omega
      obtain ⟨r, offers⟩ := rest
      exact ⟨r, .taken (by omega) (by omega) (by omega) offers⟩

/-- Writing a chunk at once is handing it over call by call. -/
theorem offers_iff {chunk : String} : Offers s chunk.toList r ↔ r = s.write chunk := by
  have determined {r} (offers : Offers s chunk.toList r) : r = s.write chunk := by
    rw [offers.eq, write_eq, String.length_toList]
  refine ⟨determined, ?_⟩
  rintro rfl
  obtain ⟨r, offers⟩ := exists_offers s chunk.toList
  exact determined offers ▸ offers

theorem delivers_iff {chunks : List String} : Delivers s chunks r ↔ r = s.writeAll chunks := by
  induction chunks generalizing s r with
  | nil =>
    constructor
    · rintro ⟨⟩
      rfl
    · rintro rfl
      exact .done
  | cons chunk rest ih =>
    have first {r : Sink × Except WriteError Unit} : Offers s chunk.toList r ↔ r = s.write chunk :=
      offers_iff
    rw [writeAll]
    -- what comes after a chunk depends only on what its write leaves
    generalize s.write chunk = outcome at first ⊢
    obtain ⟨s', result⟩ := outcome
    constructor
    · intro delivers
      cases delivers with
      | stopped offers =>
        cases first.mp offers
        rfl
      | next offers later =>
        cases first.mp offers
        exact ih.mp later
    · rintro rfl
      cases result with
      | ok => exact .next (first.mpr rfl) (ih.mpr rfl)
      | error e => exact .stopped (first.mpr rfl)

end Sink

/-! ## Pictures -/

namespace Picture

theorem writeTo_eq (p : Picture) (sink : Sink) :
    p.writeTo sink = ((sink.writeAll p.chunks).1, (sink.writeAll p.chunks).2.mapError .io) := by
  rw [writeTo]
  split
  all_goals
    rename_i written
    rw [written]
    rfl

/-- A sink of limited room receives the first bytes of the text, as many as it has room for. Writing
succeeds if that is all of them, and otherwise reports that the sink is full. It makes no difference
into which chunks the text is cut, nor how much of a chunk the sink takes in one call. -/
theorem writeTo_eq_prefix (p : Picture) (room : ℕ) :
    ∃ sink result, p.writeTo ⟨room, []⟩ = (sink, result) ∧
      (String.ofList sink.received).toByteArray =
        p.pixmap.toByteArray.extract 0 (min room p.pixmap.utf8ByteSize) ∧
      result = (if p.pixmap.utf8ByteSize ≤ room then .ok () else .error (.io .full)) ∧
      (RenderError.io .full).message = "IO error: failed to write whole buffer" ∧
      ∀ chunks, String.join chunks = p.pixmap → ∃ written, written.mapError .io = result ∧
        ∀ outcome, Sink.Delivers ⟨room, []⟩ chunks outcome ↔ outcome = (sink, written) := by
  have single : ∀ c ∈ p.pixmap.toList, c.utf8Size = 1 := fun _ => utf8Size_of_mem_pixmap
  have size : p.pixmap.utf8ByteSize = p.pixmap.length := by
    have counted := utf8ByteSize_of_single single
    rwa [String.ofList_toList, String.length_toList] at counted
  -- the chunks count only through the text that they make
  have all (chunks) (whole : String.join chunks = p.pixmap) : Sink.writeAll ⟨room, []⟩ chunks =
      (⟨room - p.pixmap.length, p.pixmap.toList.take room⟩,
        if p.pixmap.utf8ByteSize ≤ room then .ok () else .error .full) := by
    rw [Sink.writeAll_eq, whole, List.nil_append, size]
  refine ⟨_, _, (writeTo_eq ..).trans (by rw [all p.chunks rfl]),
    toByteArray_take single room, ?_, rfl,
    fun chunks whole => ⟨_, rfl, fun outcome => ?_⟩⟩
  · split <;> rfl
  · rw [Sink.delivers_iff, all chunks whole]

end Picture

end RayTracer
