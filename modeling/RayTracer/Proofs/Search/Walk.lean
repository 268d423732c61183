import RayTracer.Proofs.Hierarchy.Unions
import RayTracer.Proofs.Search.Closest

/-! # The search through a hierarchy

The search visits the leaves from left to right and leaves out each branch whose box is missed
within the range cut at the closest hit so far. What it carries is the closest hit among the visited
objects (`IsBest.closest`), so it differs from the scan exactly if the closest object of all is not
visited.

* `build_trace_eq_traceLinear_iff`: this condition, for a scene with its hierarchy.
* `ofBoxes?_trace_closest`: a leaf's own box is all that can hide it. Each box above it is larger
  and is tested within a range that is not shorter, and the slab test is monotone in both.
* `twoBalls_trace_ne_traceLinear`: the condition can fail, since a sphere and its box round
  differently.

Both hold of the tree with each order of the items at each branch, so what the sort does with equal
centres makes no difference.
-/

namespace RayTracer

open Number

variable {shapes : Array Shape} {ray : Ray} {range : Interval} {tested : ℕ → Prop}

/-! ## The visited objects -/

/-- The objects in the leaves that a search reaches, where `best` is the closest hit before it. -/
def Hierarchy.visited (shapes : Array Shape) (ray : Ray) (range : Interval) :
    Hierarchy → Option Hit → List ℕ
  | leaf object _, _ => [object]
  | branch l r b, best =>
    if b.isHit ray (range.upTo best) then
      l.visited shapes ray range best ++ r.visited shapes ray range
        (l.closest shapes ray range best)
    else []

/-- A number without a shape is no hit of its own. -/
theorem IsBest.skip {object : ℕ} {best : Option Hit} (inv : IsBest shapes ray range tested best)
    (missing : shapes[object]? = none) :
    IsBest shapes ray range (fun n => tested n ∨ n = object) best := by
  have other {h : Hit} (meets : Meets shapes ray range h) : h.object ≠ object := by
    rintro rfl
    obtain ⟨s, found, -⟩ := meets
    exact Option.some_ne_none s (found.symm.trans missing)
  cases best with
  | none => exact fun h meets => not_or_intro (inv h meets) (other meets)
  | some w =>
    obtain ⟨meetsW, testedW, least⟩ := inv
    exact ⟨meetsW, .inl testedW, fun h meets seen =>
      least h meets (seen.resolve_right (other meets))⟩

theorem IsBest.closest (h : Hierarchy) {best : Option Hit}
    (inv : IsBest shapes ray range tested best) :
    IsBest shapes ray range (fun n => tested n ∨ n ∈ h.visited shapes ray range best)
      (h.closest shapes ray range best) := by
  induction h generalizing tested best with
  | leaf object b =>
    simp only [Hierarchy.visited, List.mem_singleton, Hierarchy.closest]
    cases found : shapes[object]? with
    | none => exact inv.skip found
    | some s => exact inv.consider found
  | branch l r b left right =>
    -- the right subtree goes on from what the left one carries, an unmet branch changes nothing
    by_cases met : b.isHit ray (range.upTo best) = true
    · simp only [Hierarchy.visited, Hierarchy.closest, if_pos met, List.mem_append]
      exact (right (left inv)).congr fun n => or_assoc
    · simp only [Hierarchy.visited, Hierarchy.closest, if_neg met, List.not_mem_nil, or_false]
      exact inv

theorem isBest_trace (h : Hierarchy) :
    IsBest shapes ray range (· ∈ h.visited shapes ray range none) (h.trace shapes ray range) :=
  (isBest_none.closest h).congr fun _ => by rw [false_or]

/-- A search and the scan find the same hit exactly if the search visits the object that the scan
finds. -/
theorem trace_eq_scan_iff (h : Hierarchy) :
    h.trace shapes ray range = scan shapes ray range ↔
      ∀ w, scan shapes ray range = some w → w.object ∈ h.visited shapes ray range none := by
  have walk :
      IsBest shapes ray range (· ∈ h.visited shapes ray range none) (h.trace shapes ray range) :=
    isBest_trace h
  have all : IsBest shapes ray range (· < shapes.size) (scan shapes ray range) := isBest_scan
  constructor
  · intro same w found
    rw [same, found] at walk
    exact walk.2.1
  · intro visited
    cases found : scan shapes ray range with
    | none =>
      rw [found] at all
      cases traced : h.trace shapes ray range with
      | none => rfl
      | some v =>
        rw [traced] at walk
        exact absurd walk.1.inside (all v walk.1)
    | some w =>
      rw [found] at all
      have reached := visited w found
      cases traced : h.trace shapes ray range with
      | none =>
        rw [traced] at walk
        exact absurd reached (walk w all.1)
      | some v =>
        -- each of the two hits is among what the other one was compared with
        rw [traced] at walk
        have same : v = w := walk.1.eq_of_precedes all.1 (walk.2.2 w all.1 reached)
          (all.2.2 v walk.1 walk.1.inside)
        rw [same]

/-- The hierarchy of a scene holds each object once, in whatever order its items are arranged. With
it the scene answers as the scan does exactly if the search reaches the object that the scan
finds. -/
theorem build_trace_eq_traceLinear_iff (a : Hierarchy.Arrangement) (scene : Scene)
    (nonempty : scene.shapes ≠ #[]) (policy : SplitPolicy) :
    ∃ h, Hierarchy.ofBoxes? a (scene.shapes.toList.map Shape.box) policy = some (.ok h) ∧
      (a = .sorted → scene.build policy = .ok { scene with hierarchy := some h }) ∧
      h.objects.Perm (List.range scene.shapes.size) ∧ ∀ ray range,
        ({ scene with hierarchy := some h } : Scene).trace ray range = scene.traceLinear ray range ↔
          ∀ w, scene.traceLinear ray range = some w →
            w.object ∈ h.visited scene.shapes ray range none := by
  obtain ⟨h, grown, built, leaves⟩ := Hierarchy.exists_ofShapes a policy nonempty
  refine ⟨h, grown, fun sorted => ?_, Hierarchy.objects_perm leaves,
    fun ray range => trace_eq_scan_iff h⟩
  rw [Scene.build, built sorted]
  rfl

/-! ## A grazing ray -/

/-- Two unit spheres around the origin. -/
def Scene.twoBalls : Scene :=
  let ball := Shape.sphere (Sphere.around .zero 1 default)
  ((Scene.lit default).add ball).add ball

/-- A ray from so far away that the distance at which it passes the unit sphere is lost in
rounding. -/
def Ray.grazing : Ray := ⟨⟨1.5, 0, -16384⟩, .unitZ⟩

theorem build_twoBalls : Scene.twoBalls.shapes ≠ #[] ∧
    ∃ h, Scene.twoBalls.build .longest = .ok { Scene.twoBalls with hierarchy := some h } ∧
      h.objects.Perm (List.range Scene.twoBalls.shapes.size) ∧ ∀ ray range,
        ({ Scene.twoBalls with hierarchy := some h } : Scene).trace ray range =
            Scene.twoBalls.traceLinear ray range ↔
          ∀ w, Scene.twoBalls.traceLinear ray range = some w →
            w.object ∈ h.visited Scene.twoBalls.shapes ray range none := by
  have nonempty : Scene.twoBalls.shapes ≠ #[] := by decide
  obtain ⟨h, -, built, objects, same⟩ :=
    build_trace_eq_traceLinear_iff .sorted Scene.twoBalls nonempty .longest
  exact ⟨nonempty, h, built rfl, objects, same⟩

theorem ofShapes_twoBalls : ∃ axis, Hierarchy.ofShapes Scene.twoBalls.shapes .longest =
    .ok (Hierarchy.pair axis ⟨0, (Sphere.around .zero 1 default).box⟩
      ⟨1, (Sphere.around .zero 1 default).box⟩) :=
  Hierarchy.ofShapes_two (.sphere (.around .zero 1 default)) (.sphere (.around .zero 1 default))
    .longest

/-- The scan finds a sphere that the ray misses by half a radius. The box around the spheres is
missed, so the search finds nothing. -/
theorem twoBalls_trace_ne_traceLinear :
    Ray.grazing.origin.IsFinite ∧ Ray.grazing.direction.IsFinite ∧
      (⟨0, infinity⟩ : Interval).HasNumbers ∧
      ∃ built, Scene.twoBalls.build .longest = .ok built ∧
        built.trace .grazing ⟨0, infinity⟩ ≠ built.traceLinear .grazing ⟨0, infinity⟩ := by
  refine ⟨?_, ?_, ⟨by decide, by decide⟩, ?_⟩
  · intro axis
    cases axis <;> decide
  · intro axis
    cases axis <;> decide
  · obtain ⟨axis, built⟩ := ofShapes_twoBalls
    refine ⟨_, by rw [Scene.build, built]; rfl, ?_⟩
    -- the boxes are equal, so the axis of the split decides nothing
    have hidden : (Hierarchy.pair axis ⟨0, (Sphere.around .zero 1 default).box⟩
        ⟨1, (Sphere.around .zero 1 default).box⟩).trace Scene.twoBalls.shapes .grazing
          ⟨0, infinity⟩ = none := by
      cases axis <;> decide +kernel
    have found : scan Scene.twoBalls.shapes .grazing ⟨0, infinity⟩ ≠ none := by decide +kernel
    exact fun same => found (same.symm.trans hidden)

/-! ## What a leaf's own box decides -/

section

variable (origin : ray.origin.IsFinite) (direction : ray.direction.IsFinite)
  (ends : range.HasNumbers)

/-- The range cut at the closest hit is within the range cut at any other hit. -/
theorem IsClosest.withHi_within {w : Hit} {best : Option Hit} (ends : range.HasNumbers)
    (closest : IsClosest shapes ray range w) (inv : IsBest shapes ray range tested best) :
    (range.withHi w.t).Within (range.upTo best) := by
  refine ⟨?_, ?_⟩
  · cases best <;> exact ends.within_self.1
  · cases best with
    | none => exact closest.1.le_hi
    | some v =>
      obtain before | ⟨same, -⟩ := closest.2 v inv.1
      · obtain ⟨hw, hv, less⟩ := (lt_iff _ _).mp before
        exact (le_iff _ _).mpr ⟨hw, hv, less.le⟩
      · obtain ⟨hw, hv, equal⟩ := (beq_iff _ _).mp same
        exact (le_iff _ _).mpr ⟨hw, hv, equal.le⟩

include origin direction ends

/-- A search reaches the leaf of the closest object if the ray meets the leaf's own box within the
range cut at that object, whatever hit the search starts with. -/
theorem IsClosest.mem_visited {w : Hit} (closest : IsClosest shapes ray range w) {h : Hierarchy}
    (tight : h.Tight) {i : Item} (mem : i ∈ h.leaves) (numbers : i.box.HasNumbers)
    (met : i.box.isHit ray (range.withHi w.t) = true) {best : Option Hit}
    (inv : IsBest shapes ray range tested best) :
    i.object ∈ h.visited shapes ray range best := by
  induction h generalizing tested best with
  | leaf object b =>
    obtain rfl := List.mem_singleton.mp mem
    exact List.mem_singleton_self _
  | branch l r b left right =>
    have within : i.box.Within b :=
      (tight.isUnion.encloses (List.mem_map_of_mem mem)).within numbers
    -- the branch is larger than the leaf and its range is cut no shorter, so it is met too
    have entered := Box.isHit_mono origin direction within (closest.withHi_within ends inv) met
    obtain ⟨tightL, tightR⟩ := tight.below
    rw [Hierarchy.visited, if_pos entered]
    obtain inL | inR := List.mem_append.mp mem
    · exact List.mem_append_left _ (left tightL inL inv)
    · exact List.mem_append_right _ (right tightR inR (inv.closest l))

end

/-- A search differs from the scan only where the ray misses the closest object's own box, and what
it finds there is another object's hit, which is not closer. So it is with each order of the items
at the branches. -/
theorem ofBoxes?_trace_closest (a : Hierarchy.Arrangement) (shapes : Array Shape)
    (nonempty : shapes ≠ #[]) (numbers : ∀ s ∈ shapes, s.box.HasNumbers)
    (policy : SplitPolicy) (ray : Ray) (origin : ray.origin.IsFinite)
    (direction : ray.direction.IsFinite) (range : Interval) (ends : range.HasNumbers) :
    ∃ h, Hierarchy.ofBoxes? a (shapes.toList.map Shape.box) policy = some (.ok h) ∧
      (a = .sorted → Hierarchy.ofShapes shapes policy = .ok h) ∧
      (scan shapes ray range = none → h.trace shapes ray range = none) ∧
      ∀ w, scan shapes ray range = some w →
        h.trace shapes ray range = some w ∨
          (∃ s, shapes[w.object]? = some s ∧ s.box.isHit ray (range.withHi w.t) = false) ∧
            ∀ found, h.trace shapes ray range = some found →
              Meets shapes ray range found ∧ found.isCloser w = false := by
  obtain ⟨h, grown, built, leaves⟩ := Hierarchy.exists_ofShapes a policy nonempty
  have walk :
      IsBest shapes ray range (· ∈ h.visited shapes ray range none) (h.trace shapes ray range) :=
    isBest_trace h
  have all : IsBest shapes ray range (· < shapes.size) (scan shapes ray range) := isBest_scan
  refine ⟨h, grown, built, ?_, ?_⟩
  · intro nothing
    rw [(trace_eq_scan_iff h).mpr fun w found => absurd (found.symm.trans nothing)
      (Option.some_ne_none w), nothing]
  · intro w found
    rw [found] at all
    have closest := isClosest_of_isBest all
    obtain ⟨s, there, contact⟩ := closest.1
    cases met : s.box.isHit ray (range.withHi w.t) with
    | true =>
      left
      have leaf : ⟨w.object, s.box⟩ ∈ h.leaves :=
        leaves.mem_iff.mpr (Hierarchy.mem_items.mpr ⟨s, there, rfl⟩)
      have reached :=
        closest.mem_visited origin direction ends (Hierarchy.tight_ofBoxes? grown) leaf
        (numbers s (Array.mem_of_getElem? there)) met isBest_none
      rw [(trace_eq_scan_iff h).mpr fun v same => ?_, found]
      rw [← Option.some.inj (found.symm.trans same)]
      exact reached
    | false =>
      -- the leaf may be reached all the same, but nothing that is found can be closer
      right
      refine ⟨⟨s, there, met⟩, fun v traced => ?_⟩
      rw [traced] at walk
      exact ⟨walk.1, (Hit.isCloser_eq_false_iff walk.1.isNumber closest.1.isNumber).mpr
        (closest.2 v walk.1)⟩

/-- A ray meets two equal spheres before a larger one and a floor. Of the two the search finds the
one that the scan finds, wherever their leaves are. The grazing ray misses the box of two such
spheres, and what the scan finds there is lost. -/
theorem ofBoxes?_trace_closest_twins :
    let ball := Shape.sphere (Sphere.around .zero 1 default)
    let far := Shape.sphere (Sphere.around ⟨0, 0, 5⟩ 2 default)
    let floor := Shape.plane (Plane.through ⟨0, -1, 0⟩ .unitY default)
    let shapes := #[far, ball, floor, ball]
    let ahead : Ray := ⟨⟨0.5, 0.25, -3⟩, ⟨0, -0.125, 1⟩⟩
    let range : Interval := ⟨0, infinity⟩
    (∀ s ∈ shapes, s.box.HasNumbers) ∧ ahead.origin.IsFinite ∧ ahead.direction.IsFinite ∧
      Ray.grazing.origin.IsFinite ∧ Ray.grazing.direction.IsFinite ∧ range.HasNumbers ∧
      (∃ h w, Hierarchy.ofShapes shapes (.random 7) = .ok h ∧ h.nodeCount = 7 ∧
        scan shapes ahead range = some w ∧ w.object = 1 ∧ h.trace shapes ahead range = some w) ∧
      ∃ h w, Hierarchy.ofShapes #[ball, ball] .longest = .ok h ∧ h.nodeCount = 3 ∧
        scan #[ball, ball] .grazing range = some w ∧
        ball.box.isHit .grazing (range.withHi w.t) = false ∧
        h.trace #[ball, ball] .grazing range = none := by
  intro ball far floor shapes ahead range
  have numbers : ∀ s ∈ shapes, s.box.HasNumbers := by decide +kernel
  have origin : ahead.origin.IsFinite := by decide
  have direction : ahead.direction.IsFinite := by decide
  have grazingOrigin : Ray.grazing.origin.IsFinite := by decide
  have grazingDirection : Ray.grazing.direction.IsFinite := by decide
  have ends : range.HasNumbers := by decide
  refine ⟨numbers, origin, direction, grazingOrigin, grazingDirection, ends, ?_, ?_⟩
  · obtain ⟨h, grown, built, -, closest⟩ :=
      ofBoxes?_trace_closest .sorted shapes (by decide) numbers (.random 7)
      ahead origin direction range ends
    have nodes : h.nodeCount = 7 := by
      have leaves := (Hierarchy.leaves_ofBoxes? grown).length_eq
      have count := h.nodeCount_add_one
      rw [leaves, Hierarchy.length_numbered] at count
      exact Nat.succ.inj count
    obtain ⟨w, found⟩ : ∃ w, scan shapes ahead range = some w :=
      Option.isSome_iff_exists.mp (by decide +kernel)
    have object : (scan shapes ahead range).map Hit.object = some 1 := by decide +kernel
    have met : ((scan shapes ahead range).map fun w => ball.box.isHit ahead (range.withHi w.t)) =
        some true := by
      decide +kernel
    rw [found, Option.map_some, Option.some.injEq] at object met
    refine ⟨h, w, built rfl, nodes, found, object, (closest w found).resolve_right ?_⟩
    rintro ⟨⟨s, there, missed⟩, -⟩
    rw [object] at there
    cases there
    exact Bool.false_ne_true (missed.symm.trans met)
  · obtain ⟨h, grown, built, -, closest⟩ := ofBoxes?_trace_closest .sorted #[ball, ball] (by decide)
      (by decide +kernel) .longest .grazing grazingOrigin grazingDirection range ends
    -- the boxes are equal, so the axis of the split decides nothing
    obtain ⟨axis, two⟩ := Hierarchy.ofShapes_two ball ball .longest
    obtain rfl : h = .pair axis ⟨0, ball.box⟩ ⟨1, ball.box⟩ :=
      Except.ok.inj ((built rfl).symm.trans two)
    have hidden : (Hierarchy.pair axis ⟨0, ball.box⟩ ⟨1, ball.box⟩).trace #[ball, ball] .grazing
        range = none := by
      cases axis <;> decide +kernel
    obtain ⟨w, found⟩ : ∃ w, scan #[ball, ball] .grazing range = some w :=
      Option.isSome_iff_exists.mp (by decide +kernel)
    have object : (scan #[ball, ball] .grazing range).map Hit.object = some 0 := by decide +kernel
    rw [found, Option.map_some, Option.some.injEq] at object
    refine ⟨_, w, two, by cases axis <;> decide +kernel, found, ?_, hidden⟩
    obtain same | ⟨⟨s, there, missed⟩, -⟩ := closest w found
    · cases hidden.symm.trans same
    · rw [object] at there
      cases there
      exact missed

end RayTracer
