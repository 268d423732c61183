import RayTracer.Proofs.Number.Operations
import RayTracer.Surface.Shape

/-! # Searching a shorter range

A search cuts its range at the closest hit so far. `Shape.contact?_withHi` is the law that makes
this sound: over the range cut at `hi` a shape has the contact that it has over the whole range if
that one is not past `hi`, and none if it is.

The non-trivial ingredient is the sphere, which falls back to its farther solution where the nearer
one is out of the range. A cut must not drop the nearer solution and keep the farther one. So the
computed solutions must be in order, whatever their rounding, and also where the direction of the
ray is zero.
-/

namespace RayTracer

open Number

/-! ## Cut ranges -/

theorem Interval.contains_withHi {i : Interval} {hi : Float32} (cut : hi ≤ i.hi) (x : Float32) :
    (i.withHi hi).contains x = true ↔ i.contains x = true ∧ x ≤ hi := by
  rw [contains_iff, contains_iff]
  constructor
  · intro ⟨above, below⟩
    exact ⟨⟨above, number_le_trans below cut⟩, below⟩
  · intro ⟨⟨above, _⟩, below⟩
    exact ⟨above, below⟩

theorem Interval.isNumber_of_contains {i : Interval} {x : Float32} (h : i.contains x = true) :
    IsNumber x := by
  obtain ⟨above, -⟩ := (i.contains_iff x).mp h
  exact ((le_iff i.lo x).mp above).2.1

/-! ## The two solutions of a sphere -/

theorem sign_dot_self (v : Vec3) : sign (v.dot v) = .positive :=
  sign_add (sign_add (sign_mul_self v.x) (sign_mul_self v.y)) (sign_mul_self v.z)

/-- Where both computed solutions are numbers, the nearer one is not past the farther one. -/
theorem Sphere.near_le_far {s : Sphere} {ray : Ray} {near far : Float32}
    (solutions : s.roots? ray = some (near, far)) (hn : IsNumber near) (hf : IsNumber far) :
    near ≤ far := by
  unfold Sphere.roots? at solutions
  dsimp only at solutions
  split_ifs at solutions
  obtain ⟨rfl, rfl⟩ := Prod.mk.inj (Option.some.inj solutions)
  -- The divisor is a sum of squares, so even where it is zero it has no minus sign.
  refine (le_iff _ _).mpr ⟨hn, hf, div_mono hn hf (sign_dot_self ray.direction) ?_⟩
  obtain ⟨difference, -⟩ := isNumber_of_div hn
  obtain ⟨sum, -⟩ := isNumber_of_div hf
  obtain ⟨-, root⟩ := isNumber_of_sub difference
  have nonneg := value_sqrt_nonneg root
  rw [value_sub difference, value_add sum]
  refine rounded_mono (add_le_add le_rfl ?_)
  exact (EReal.neg_le_zero.mpr nonneg).trans nonneg

theorem Sphere.parameter?_eq_some_iff {s : Sphere} {ray : Ray} {range : Interval} {t : Float32} :
    s.parameter? ray range = some t ↔ ∃ near far, s.roots? ray = some (near, far) ∧
      (range.contains near = true ∧ t = near ∨
        range.contains near = false ∧ range.contains far = true ∧ t = far) := by
  unfold Sphere.parameter?
  cases solutions : s.roots? ray with
  | none => simp
  | some pair =>
    obtain ⟨near, far⟩ := pair
    cases first : range.contains near
    · cases second : range.contains far
      · simp [first, second]
      · simp [first, second, eq_comm (a := far)]
    · simp [first, eq_comm (a := near)]

/-! ## The narrowing law -/

variable {ray : Ray} {range : Interval} {hi t : Float32}

theorem Sphere.parameter?_withHi (s : Sphere) (cut : hi ≤ range.hi) :
    s.parameter? ray (range.withHi hi) = some t ↔ s.parameter? ray range = some t ∧ t ≤ hi := by
  rw [parameter?_eq_some_iff, parameter?_eq_some_iff]
  constructor
  · intro ⟨near, far, solutions, chosen⟩
    obtain ⟨inside, rfl⟩ | ⟨outside, inside, rfl⟩ := chosen
    · rw [Interval.contains_withHi cut] at inside
      exact ⟨⟨t, far, solutions, .inl ⟨inside.1, rfl⟩⟩, inside.2⟩
    · rw [Interval.contains_withHi cut] at inside
      refine ⟨⟨near, t, solutions, .inr ⟨?_, inside.1, rfl⟩⟩, inside.2⟩
      -- A nearer solution in the whole range is not past the farther one, so it was not cut off.
      by_contra missed
      have whole := Bool.not_eq_false _ ▸ missed
      have order := near_le_far solutions (Interval.isNumber_of_contains whole)
        (Interval.isNumber_of_contains inside.1)
      have kept := (Interval.contains_withHi cut near).mpr ⟨whole, number_le_trans order inside.2⟩
      exact Bool.false_ne_true (outside.symm.trans kept)
  · intro ⟨⟨near, far, solutions, chosen⟩, below⟩
    obtain ⟨inside, rfl⟩ | ⟨outside, inside, rfl⟩ := chosen
    · exact ⟨t, far, solutions, .inl ⟨(Interval.contains_withHi cut t).mpr ⟨inside, below⟩, rfl⟩⟩
    · refine ⟨near, t, solutions, .inr ⟨?_, (Interval.contains_withHi cut t).mpr ⟨inside, below⟩,
        rfl⟩⟩
      rw [Bool.eq_false_iff] at outside ⊢
      exact fun kept => outside ((Interval.contains_withHi cut near).mp kept).1

theorem Plane.parameter?_withHi (p : Plane) (cut : hi ≤ range.hi) :
    p.parameter? ray (range.withHi hi) = some t ↔ p.parameter? ray range = some t ∧ t ≤ hi := by
  unfold Plane.parameter?
  dsimp only
  -- a ray crosses a plane once, so the range only says whether that crossing counts
  split_ifs with parallel narrow whole whole
  · simp
  · constructor
    · rintro ⟨⟩
      simp only [Bool.and_eq_true, Interval.contains_withHi cut] at narrow
      exact ⟨rfl, narrow.1.1.1.2⟩
    · exact fun h => h.1
  · simp only [Bool.and_eq_true, Interval.contains_withHi cut] at narrow whole
    exact absurd ⟨⟨⟨narrow.1.1.1.1, narrow.1.1.2⟩, narrow.1.2⟩, narrow.2⟩ whole
  · constructor
    · simp
    · rintro ⟨⟨⟩, below⟩
      simp only [Bool.and_eq_true, Interval.contains_withHi cut] at narrow whole
      exact absurd ⟨⟨⟨⟨whole.1.1.1, below⟩, whole.1.1.2⟩, whole.1.2⟩, whole.2⟩ narrow
  · simp

theorem Shape.parameter?_withHi (s : Shape) (cut : hi ≤ range.hi) :
    s.parameter? ray (range.withHi hi) = some t ↔ s.parameter? ray range = some t ∧ t ≤ hi := by
  cases s with
  | sphere s => exact s.parameter?_withHi cut
  | plane p => exact p.parameter?_withHi cut

theorem Shape.contact?_eq_some_iff {s : Shape} {c : Contact} :
    s.contact? ray range = some c ↔ s.parameter? ray range = some c.t ∧
      s.contactAt ray c.t = c := by
  unfold Shape.contact?
  rw [Option.map_eq_some_iff]
  constructor
  · rintro ⟨t, found, rfl⟩
    exact ⟨found, rfl⟩
  · intro ⟨found, same⟩
    exact ⟨c.t, found, same⟩

/-- A cut keeps the contact over the whole range or leaves none. -/
theorem Shape.contact?_withHi (s : Shape) {c : Contact} (cut : hi ≤ range.hi) :
    s.contact? ray (range.withHi hi) = some c ↔ s.contact? ray range = some c ∧ c.t ≤ hi := by
  rw [contact?_eq_some_iff, contact?_eq_some_iff, s.parameter?_withHi cut]
  exact and_right_comm

theorem Shape.contains_of_parameter? {s : Shape} (found : s.parameter? ray range = some t) :
    range.contains t = true := by
  cases s with
  | sphere s =>
    obtain ⟨near, far, -, ⟨inside, rfl⟩ | ⟨-, inside, rfl⟩⟩ :=
      Sphere.parameter?_eq_some_iff.mp found
    · exact inside
    · exact inside
  | plane p =>
    unfold Shape.parameter? Plane.parameter? at found
    dsimp only at found
    split_ifs at found with parallel inside
    simp only [Bool.and_eq_true] at inside
    rw [← Option.some.inj found]
    exact inside.1.1.1

end RayTracer
