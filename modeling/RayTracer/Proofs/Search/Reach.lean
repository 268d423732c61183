import RayTracer.Proofs.Search.Walk

/-! # Whether anything is hit

A search through a hierarchy cuts its range at the closest hit so far, but until the first hit there
is nothing to cut at. So whether it finds anything is decided over the whole range:
`isSome_trace_iff` says that it does exactly if a leaf that is met has all boxes above it met
(`Reaches`).

A longer range meets more of the boxes and of the shapes. So what shadows a point from a light
shadows it from each farther light in the same direction (`Scene.inShadow_of_le`). This holds of
every ray, those with infinite and NaN components included, since a range is longer in its upper end
alone.
-/

namespace RayTracer

open Number

variable {shapes : Array Shape} {ray : Ray} {range : Interval}

/-! ## Reached leaves -/

/-- The leaf of an object has all boxes above it met over the range. -/
inductive Hierarchy.Reaches (ray : Ray) (range : Interval) : Hierarchy → ℕ → Prop
  | leaf (object : ℕ) (b : Box) : Reaches ray range (.leaf object b) object
  | left {l r : Hierarchy} {b : Box} {object : ℕ} (met : b.isHit ray range = true)
      (below : Reaches ray range l object) : Reaches ray range (.branch l r b) object
  | right {l r : Hierarchy} {b : Box} {object : ℕ} (met : b.isHit ray range = true)
      (below : Reaches ray range r object) : Reaches ray range (.branch l r b) object

theorem Hierarchy.Reaches.mono {range' : Interval} (longer : range.Within range') {h : Hierarchy}
    {object : ℕ} (reached : h.Reaches ray range object) : h.Reaches ray range' object := by
  induction reached with
  | leaf object b => exact .leaf object b
  | left met _ below => exact .left (Box.isHit_mono_range longer met) below
  | right met _ below => exact .right (Box.isHit_mono_range longer met) below

theorem Hierarchy.reaches_leaf_iff {object n : ℕ} {b : Box} :
    (leaf object b).Reaches ray range n ↔ n = object := by
  constructor
  · rintro ⟨⟩
    rfl
  · rintro rfl
    exact .leaf n b

theorem Hierarchy.reaches_branch_iff {l r : Hierarchy} {b : Box} {n : ℕ} :
    (branch l r b).Reaches ray range n ↔
      b.isHit ray range = true ∧ (l.Reaches ray range n ∨ r.Reaches ray range n) := by
  constructor
  · intro reached
    cases reached with
    | left met below => exact ⟨met, .inl below⟩
    | right met below => exact ⟨met, .inr below⟩
  · rintro ⟨met, below | below⟩
    · exact .left met below
    · exact .right met below

/-! ## The search -/

theorem Hit.isSome_consider_some (object : ℕ) (s : Shape) (best : Hit) :
    (Hit.consider ray range object s (some best)).isSome = true := by
  unfold Hit.consider
  split <;> rfl

/-- What has been found is never lost. -/
theorem Hierarchy.isSome_closest_some (h : Hierarchy) (best : Hit) :
    (h.closest shapes ray range (some best)).isSome = true := by
  induction h generalizing best with
  | leaf object b =>
    unfold closest
    split
    · rfl
    · exact Hit.isSome_consider_some _ _ _
  | branch l r b left right =>
    unfold closest
    split
    · obtain ⟨next, found⟩ := Option.isSome_iff_exists.mp (left best)
      rw [found]
      exact right next
    · rfl

theorem Hit.isSome_consider_none (object : ℕ) (s : Shape) :
    (Hit.consider ray range object s none).isSome = (s.contact? ray range).isSome := by
  unfold Hit.consider
  rw [Interval.upTo]
  cases s.contact? ray range <;> rfl

/-- The hit of an object over the whole range. -/
theorem exists_meets_iff (object : ℕ) :
    (∃ hit, Meets shapes ray range hit ∧ hit.object = object) ↔
      ∃ s, shapes[object]? = some s ∧ (s.contact? ray range).isSome = true := by
  constructor
  · rintro ⟨hit, ⟨s, there, contact⟩, rfl⟩
    exact ⟨s, there, Option.isSome_iff_exists.mpr ⟨_, contact⟩⟩
  · rintro ⟨s, there, met⟩
    obtain ⟨c, contact⟩ := Option.isSome_iff_exists.mp met
    exact ⟨{ c with object }, ⟨s, there, contact⟩, rfl⟩

/-- Without a hit to start with, a search finds one exactly if it reaches a leaf that is met. -/
theorem Hierarchy.isSome_closest_none_iff (h : Hierarchy) :
    (h.closest shapes ray range none).isSome = true ↔
      ∃ hit, Meets shapes ray range hit ∧ h.Reaches ray range hit.object := by
  induction h with
  | leaf object b =>
    simp only [reaches_leaf_iff, exists_meets_iff, closest]
    cases there : shapes[object]? with
    | none => simp
    | some s => simp [Hit.isSome_consider_none]
  | branch l r b left right =>
    simp only [reaches_branch_iff]
    by_cases met : b.isHit ray range = true
    · rw [closest, Interval.upTo, if_pos met]
      simp only [met, true_and, and_or_left, exists_or]
      -- the right subtree is searched over the whole range exactly if the left one holds no hit
      cases found : l.closest shapes ray range none with
      | none =>
        rw [found] at left
        rw [right, ← left]
        simp
      | some best =>
        rw [found] at left
        exact iff_of_true (r.isSome_closest_some best) (.inl (left.mp rfl))
    · rw [closest, Interval.upTo, if_neg met]
      refine iff_of_false Bool.false_ne_true ?_
      rintro ⟨hit, -, entered, -⟩
      exact met entered

theorem Hierarchy.isSome_trace_iff (h : Hierarchy) :
    (h.trace shapes ray range).isSome = true ↔
      ∃ hit, Meets shapes ray range hit ∧ h.Reaches ray range hit.object :=
  h.isSome_closest_none_iff

theorem isSome_scan_iff :
    (scan shapes ray range).isSome = true ↔ ∃ hit, Meets shapes ray range hit := by
  obtain ⟨nothing, -⟩ := traceLinear_eq_closest ⟨shapes, none, default⟩ ray range
  rw [Option.isSome_iff_ne_none, ne_eq, ← not_forall_not]
  exact not_congr nothing

/-! ## Longer ranges -/

/-- An object that is met within a cut range is met within the whole. -/
theorem Meets.of_withHi {hi : Float32} {hit : Hit} (cut : hi ≤ range.hi)
    (meets : Meets shapes ray (range.withHi hi) hit) :
    Meets shapes ray range hit := by
  obtain ⟨s, there, contact⟩ := meets
  exact ⟨s, there, ((s.contact?_withHi cut).mp contact).1⟩

theorem Scene.isSome_trace_of_withHi (scene : Scene) (range : Interval) {hi : Float32}
    (low : IsNumber range.lo) (cut : hi ≤ range.hi)
    (met : (scene.trace ray (range.withHi hi)).isSome = true) :
    (scene.trace ray range).isSome = true := by
  have longer : (range.withHi hi).Within range := ⟨(le_iff _ _).mpr ⟨low, low, le_rfl⟩, cut⟩
  unfold trace traceLinear at *
  cases found : scene.hierarchy with
  | none =>
    rw [found] at met
    obtain ⟨hit, meets⟩ := isSome_scan_iff.mp met
    exact isSome_scan_iff.mpr ⟨hit, meets.of_withHi cut⟩
  | some h =>
    rw [found] at met
    obtain ⟨hit, meets, reached⟩ := h.isSome_trace_iff.mp met
    exact h.isSome_trace_iff.mpr ⟨hit, meets.of_withHi cut, reached.mono longer⟩

theorem Scene.isNumber_epsilon : IsNumber epsilon := by decide

theorem Scene.inShadow_of_le (scene : Scene) (point direction : Vec3) {near far : Float32}
    (le : near ≤ far) (shadow : scene.inShadow point direction near = true) :
    scene.inShadow point direction far = true :=
  scene.isSome_trace_of_withHi ⟨epsilon, far⟩ isNumber_epsilon le shadow

/-- A search through a hierarchy finds something exactly if an object that is met over the whole
range is in a leaf with all boxes above it met over the whole range. With and without a hierarchy,
what is in shadow of a light stays so where the light moves farther away. -/
theorem probe_iff_reaches (h : Hierarchy) (shapes : Array Shape) (ray : Ray) (range : Interval)
    (record : Hit) (scene : Scene) (point direction : Vec3) (near far : Float32) (le : near ≤ far) :
    ((h.probe shapes ray range record).1 = true ↔
        ∃ hit, Meets shapes ray range hit ∧ h.Reaches ray range hit.object) ∧
      (scene.inShadow point direction near = true → scene.inShadow point direction far = true) := by
  refine ⟨?_, scene.inShadow_of_le point direction le⟩
  rw [← h.isSome_trace_iff, Hierarchy.probe]
  cases h.trace shapes ray range <;> simp

/-- A light behind two spheres moves farther away. -/
theorem probe_iff_reaches_twoBalls :
    let ray : Ray := ⟨⟨0, 0, -3⟩, .unitZ⟩
    let range : Interval := ⟨0, infinity⟩
    ∃ h scene, Hierarchy.ofShapes Scene.twoBalls.shapes .longest = .ok h ∧
      scene = { Scene.twoBalls with hierarchy := some h } ∧ (3 : Float32) ≤ 10 ∧
      ((h.probe scene.shapes ray range default).1 = true ↔
        ∃ hit, Meets scene.shapes ray range hit ∧ h.Reaches ray range hit.object) ∧
      scene.inShadow ray.origin .unitZ 3 = true ∧ scene.inShadow ray.origin .unitZ 10 = true := by
  intro ray range
  obtain ⟨axis, built⟩ := ofShapes_twoBalls
  let box := (Sphere.around .zero 1 default).box
  let tree := Hierarchy.pair axis ⟨0, box⟩ ⟨1, box⟩
  let scene : Scene := { Scene.twoBalls with hierarchy := some tree }
  have le : (3 : Float32) ≤ 10 := by decide
  obtain ⟨reaches, farther⟩ :=
    probe_iff_reaches tree scene.shapes ray range default scene ray.origin .unitZ 3 10 le
  have near : scene.inShadow ray.origin .unitZ 3 = true := by
    cases axis <;> decide +kernel
  exact ⟨tree, scene, built, rfl, le, reaches, near, farther near⟩

end RayTracer
