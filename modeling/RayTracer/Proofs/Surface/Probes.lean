import RayTracer.Proofs.Surface.Narrowing

/-! # What a probe writes

`Shape.probe_narrows` says all that a search relies on when it hands one hit from shape to shape: a
probe that finds nothing leaves the hit alone, none writes the object's number, and over a shorter
range a probe writes either what it writes over the whole range or nothing.

For a sphere `Interval.IsFirst` says which solution is written. That it is the least one in the
range is not by choice of the code, which only takes the nearer solution first: it rests on the
order of the computed solutions (`Sphere.near_le_far`).
-/

namespace RayTracer

/-- The computed solutions, the nearer one first; none where the discriminant is negative. -/
def Sphere.roots (s : Sphere) (ray : Ray) : List Float32 :=
  match s.roots? ray with
  | none => []
  | some (near, far) => [near, far]

/-- The least one of those in the range. -/
def Interval.IsFirst (range : Interval) (l : List Float32) (t : Float32) : Prop :=
  t ∈ l ∧ range.contains t = true ∧ ∀ u ∈ l, range.contains u = true → t ≤ u

variable {ray : Ray} {range : Interval} {t : Float32}

/-! ## The solution that a sphere takes -/

theorem Sphere.roots_of_roots? {s : Sphere} {near far : Float32}
    (solutions : s.roots? ray = some (near, far)) :
    s.roots ray = [near, far] := by
  rw [roots, solutions]

theorem Interval.le_self_of_contains (inside : range.contains t = true) : t ≤ t := by
  have number := isNumber_of_contains inside
  exact (Number.le_iff t t).mpr ⟨number, number, le_rfl⟩

theorem Sphere.isFirst_of_parameter? {s : Sphere} (found : s.parameter? ray range = some t) :
    range.IsFirst (s.roots ray) t := by
  obtain ⟨near, far, solutions, chosen⟩ := parameter?_eq_some_iff.mp found
  rw [Interval.IsFirst, roots_of_roots? solutions]
  simp only [List.mem_cons, List.not_mem_nil, or_false, forall_eq_or_imp, forall_eq]
  obtain ⟨inside, rfl⟩ | ⟨outside, inside, rfl⟩ := chosen
  · refine ⟨.inl rfl, inside, fun _ => Interval.le_self_of_contains inside, fun insideFar => ?_⟩
    exact near_le_far solutions (Interval.isNumber_of_contains inside)
      (Interval.isNumber_of_contains insideFar)
  · refine ⟨.inr rfl, inside, fun insideNear => ?_, fun _ => Interval.le_self_of_contains inside⟩
    rw [outside] at insideNear
    cases insideNear

theorem Sphere.isSome_parameter?_iff (s : Sphere) (ray : Ray) (range : Interval) :
    (s.parameter? ray range).isSome = true ↔ ∃ root ∈ s.roots ray, range.contains root = true := by
  constructor
  · intro some
    obtain ⟨t, found⟩ := Option.isSome_iff_exists.mp some
    obtain ⟨mem, inside, -⟩ := isFirst_of_parameter? found
    exact ⟨t, mem, inside⟩
  · rintro ⟨root, mem, inside⟩
    unfold roots at mem
    unfold parameter?
    cases solutions : s.roots? ray with
    | none =>
      rw [solutions] at mem
      cases mem
    | some pair =>
      obtain ⟨near, far⟩ := pair
      simp only [solutions, List.mem_cons, List.not_mem_nil, or_false] at mem
      cases first : range.contains near
      · -- the solution in the range is the farther one
        obtain rfl | rfl := mem
        · exact absurd (first.symm.trans inside) Bool.false_ne_true
        · simp [first, inside]
      · simp [first]

/-! ## Probes -/

namespace Shape

variable {s : Shape}

theorem probe_cases (s : Shape) (ray : Ray) (range : Interval) (hit : Hit) :
    s.contact? ray range = none ∧ s.probe ray range hit = (false, hit) ∨
      ∃ c, s.contact? ray range = some c ∧
        s.probe ray range hit = (true, { hit with toContact := c }) := by
  unfold probe
  cases s.contact? ray range with
  | none => exact .inl ⟨rfl, rfl⟩
  | some c => exact .inr ⟨c, rfl, rfl⟩

theorem probe_fst (s : Shape) (ray : Ray) (range : Interval) (hit : Hit) :
    (s.probe ray range hit).1 = (s.parameter? ray range).isSome := by
  unfold probe contact?
  cases s.parameter? ray range <;> rfl

theorem probe_t (found : s.parameter? ray range = some t) (hit : Hit) :
    (s.probe ray range hit).2.t = t := by
  unfold probe contact?
  rw [found]
  rfl

/-- A shorter range cuts off what is found past its end and changes nothing else. -/
theorem probe_withHi {hi : Float32} (cut : hi ≤ range.hi) (old old' : Hit) :
    ((s.probe ray (range.withHi hi) old').1 = true ↔
        (s.probe ray range old).1 = true ∧ (s.probe ray range old).2.t ≤ hi) ∧
      ((s.probe ray (range.withHi hi) old').1 = true →
        (s.probe ray (range.withHi hi) old').2.toContact =
          (s.probe ray range old).2.toContact) := by
  obtain ⟨short, missed⟩ | ⟨c, short, kept⟩ := s.probe_cases ray (range.withHi hi) old'
  · rw [missed]
    refine ⟨iff_of_false Bool.false_ne_true fun ⟨found, below⟩ => ?_, nofun⟩
    obtain ⟨-, missed⟩ | ⟨c, long, reached⟩ := s.probe_cases ray range old
    · rw [missed] at found
      cases found
    · -- what is not past the new end would be found in the shorter range too
      rw [reached] at below
      exact Option.some_ne_none c (((s.contact?_withHi cut).mpr ⟨long, below⟩).symm.trans short)
  · obtain ⟨long, below⟩ := (s.contact?_withHi cut).mp short
    obtain ⟨none, -⟩ | ⟨c', long', reached⟩ := s.probe_cases ray range old
    · exact absurd (long.symm.trans none) (Option.some_ne_none c)
    · obtain rfl := Option.some.inj (long.symm.trans long')
      rw [kept, reached]
      exact ⟨iff_of_true rfl ⟨rfl, below⟩, fun _ => rfl⟩

/-- A probe that finds nothing leaves the hit alone, and no probe writes the object's number. A
sphere is found exactly if a solution lies in the range, and then at the least one that does. Over a
shorter range a shape is found exactly if it is found over the whole range and not past the new end,
and at the same contact. -/
theorem probe_narrows (s : Shape) (ray : Ray) (range : Interval) (old : Hit) :
    let whole := s.probe ray range old
    (whole.1 = false → whole.2 = old) ∧ whole.2.object = old.object ∧
      (∀ ball, s = .sphere ball →
        (whole.1 = true ↔ ∃ root ∈ ball.roots ray, range.contains root = true) ∧
          (whole.1 = true → range.IsFirst (ball.roots ray) whole.2.t)) ∧
      ∀ hi ≤ range.hi, ∀ old',
        let narrow := s.probe ray (range.withHi hi) old'
        (narrow.1 = true ↔ whole.1 = true ∧ whole.2.t ≤ hi) ∧
          (narrow.1 = true → narrow.2.toContact = whole.2.toContact) := by
  intro whole
  refine ⟨fun missed => ?_, ?_, ?_, fun hi cut old' => probe_withHi cut old old'⟩
  · obtain ⟨-, same⟩ | ⟨c, -, reached⟩ := s.probe_cases ray range old
    · exact congrArg Prod.snd same
    · exact absurd (missed.symm.trans (congrArg Prod.fst reached)) Bool.false_ne_true
  · obtain ⟨-, same⟩ | ⟨c, -, reached⟩ := s.probe_cases ray range old
    · exact congrArg (·.2.object) same
    · exact congrArg (·.2.object) reached
  · rintro ball rfl
    have found : whole.1 = (ball.parameter? ray range).isSome :=
      probe_fst (.sphere ball) ray range old
    rw [found]
    refine ⟨ball.isSome_parameter?_iff ray range, fun some => ?_⟩
    obtain ⟨t, solved⟩ := Option.isSome_iff_exists.mp some
    have written : whole.2.t = t := probe_t (s := .sphere ball) solved old
    rw [written]
    exact Sphere.isFirst_of_parameter? solved

/-- From inside a ball, whose nearer solution lies behind the ray: the farther one is found over the
whole range and over one that ends before infinity. -/
theorem probe_narrows_inside :
    let ball : Sphere := .around .zero 2 default
    let ray : Ray := ⟨⟨0, 0, -1⟩, ⟨0, 0, 1⟩⟩
    let range : Interval := ⟨0, Number.infinity⟩
    let whole := (Shape.sphere ball).probe ray range default
    let narrow := (Shape.sphere ball).probe ray (range.withHi 5) default
    5 ≤ range.hi ∧ ball.roots ray = [-1, 3] ∧ narrow.1 = true ∧
      narrow.2.toContact = whole.2.toContact ∧ range.IsFirst (ball.roots ray) whole.2.t := by
  intro ball ray range whole narrow
  have cut : (5 : Float32) ≤ range.hi := by decide
  obtain ⟨-, -, solutions, cuts⟩ := probe_narrows (.sphere ball) ray range default
  obtain ⟨kept, same⟩ := cuts 5 cut default
  have found : whole.1 = true := by decide +kernel
  have reached : narrow.1 = true := kept.mpr ⟨found, by decide +kernel⟩
  exact ⟨cut, by decide +kernel, reached, same reached, (solutions ball rfl).2 found⟩

end Shape

end RayTracer
