import RayTracer.Proofs.Geometry.Hulls
import RayTracer.Proofs.Hierarchy.Balance

/-! # The boxes of a hierarchy

Boxes are put together from the leaves up, along a tree that depends on the boxes themselves, on the
policy and on the sort. None of this is left in the result: each node's box is the union of the
boxes in its leaves (`Tight`), and a union does not depend on an order.

* `tight_grow?`: so it is in every tree that is built, whatever the sort.
* `ofBoxes?_isUnion`: the root has the same box under each policy, NaN ends included.
* `hull_keeps_hits`: so a node is hit where one of its leaves is.
-/

namespace RayTracer.Hierarchy

open Number

/-! ## Subtrees -/

/-- The tree itself and all trees below it. -/
def subtrees : Hierarchy → List Hierarchy
  | leaf object b => [leaf object b]
  | branch l r b => branch l r b :: (l.subtrees ++ r.subtrees)

theorem self_mem_subtrees (h : Hierarchy) : h ∈ h.subtrees := by
  cases h with
  | leaf => exact List.mem_cons_self
  | branch => exact List.mem_cons_self

theorem leaves_subset_of_mem_subtrees {h n : Hierarchy} (mem : n ∈ h.subtrees) :
    n.leaves ⊆ h.leaves := by
  induction h with
  | leaf object b =>
    obtain rfl := List.mem_singleton.mp mem
    exact List.Subset.refl _
  | branch l r b left right =>
    obtain rfl | below := List.mem_cons.mp mem
    · exact List.Subset.refl _
    · obtain inL | inR := List.mem_append.mp below
      · exact List.subset_append_of_subset_left _ (left inL)
      · exact List.subset_append_of_subset_right _ (right inR)

/-! ## Tight trees -/

/-- Each node's box is the union of the boxes in its leaves. -/
def Tight (h : Hierarchy) : Prop := ∀ n ∈ h.subtrees, n.box.IsUnion (n.leaves.map Item.box)

theorem Tight.isUnion {h : Hierarchy} (tight : h.Tight) : h.box.IsUnion (h.leaves.map Item.box) :=
  tight h h.self_mem_subtrees

theorem Tight.below {l r : Hierarchy} {b : Box} (tight : (branch l r b).Tight) :
    l.Tight ∧ r.Tight :=
  ⟨fun n mem => tight n (List.mem_cons_of_mem _ (List.mem_append_left _ mem)),
    fun n mem => tight n (List.mem_cons_of_mem _ (List.mem_append_right _ mem))⟩

theorem tight_leaf (i : Item) : i.leaf.Tight := by
  intro n mem
  obtain rfl := List.mem_singleton.mp mem
  exact Box.isUnion_singleton i.box

theorem Tight.join {l r : Hierarchy} (left : l.Tight) (right : r.Tight) : (join l r).Tight := by
  intro n mem
  obtain rfl | below := List.mem_cons.mp mem
  · show (l.box.hull r.box).IsUnion ((l.leaves ++ r.leaves).map Item.box)
    rw [List.map_append]
    exact left.isUnion.hull right.isUnion
  · obtain inL | inR := List.mem_append.mp below
    · exact left n inL
    · exact right n inR

theorem tight_pair (axis : Axis) (i j : Item) : (pair axis i j).Tight := by
  unfold pair
  split_ifs
  · exact (tight_leaf i).join (tight_leaf j)
  · exact (tight_leaf j).join (tight_leaf i)

theorem tight_grow? {a : Arrangement} {axes : AxisSource} {items : List Item}
    {grown : Hierarchy × AxisSource} (h : grow? a axes items = some grown) : grown.1.Tight :=
  grow?_induction (P := fun _ tree => tree.Tight) tight_leaf tight_pair
    (fun _ _ _ _ _ lower upper => lower.join upper) h

/-! ## Trees over the boxes of a scene -/

variable {a : Arrangement} {boxes : List Box} {policy : SplitPolicy} {h : Hierarchy}

theorem map_box_numbered (boxes : List Box) : (numbered boxes).map Item.box = boxes := by
  refine List.ext_getElem (by simp [numbered]) fun object _ _ => ?_
  simp [numbered]

theorem box_of_mem_leaves (built : ofBoxes? a boxes policy = some (.ok h)) {i : Item}
    (mem : i ∈ h.leaves) :
    boxes[i.object]? = some i.box :=
  mem_numbered.mp ((leaves_ofBoxes? built).mem_iff.mp mem)

theorem tight_ofBoxes? (built : ofBoxes? a boxes policy = some (.ok h)) : h.Tight := by
  obtain ⟨axes, grown⟩ := grown_of_ofBoxes? built
  exact tight_grow? grown

/-- The leaves hold all the boxes, so the root's box is the union of all. -/
theorem root_isUnion (built : ofBoxes? a boxes policy = some (.ok h)) : h.box.IsUnion boxes := by
  have leaves : (h.leaves.map Item.box).Perm boxes := by
    have perm := (leaves_ofBoxes? built).map Item.box
    rwa [map_box_numbered] at perm
  exact (tight_ofBoxes? built).isUnion.of_mem_iff fun _ => leaves.mem_iff

/-- Each node's box has along each axis the least lower end and the greatest upper end of the boxes
in its leaves, where NaN counts as missing and the two zeros as equal. So it encloses them, and the
root has the same box under every policy and with every order of the items. -/
theorem ofBoxes?_isUnion (a : Arrangement) (boxes : List Box) (policy : SplitPolicy)
    (nonempty : boxes ≠ []) :
    ∃ h, ofBoxes? a boxes policy = some (.ok h) ∧
      (∀ n ∈ h.subtrees, (∀ i ∈ n.leaves, boxes[i.object]? = some i.box) ∧
        n.box.IsUnion (n.leaves.map Item.box) ∧ ∀ i ∈ n.leaves, n.box.Encloses i.box) ∧
      h.box.IsUnion boxes ∧
      (∀ a' policy' h', ofBoxes? a' boxes policy' = some (.ok h') → h.box.Alike h'.box) ∧
      ∀ shapes : Array Shape,
        ofBoxes? .sorted (shapes.toList.map Shape.box) policy = some (ofShapes shapes policy) := by
  obtain ⟨grown, -, built⟩ := exists_grown a policy nonempty
  refine ⟨grown.1, built, fun n mem => ?_, root_isUnion built, fun a' policy' h' other => ?_,
    fun shapes => ofBoxes?_sorted shapes policy⟩
  · have union := tight_ofBoxes? built n mem
    exact ⟨fun i leaf => box_of_mem_leaves built (leaves_subset_of_mem_subtrees mem leaf), union,
      fun i leaf => union.encloses (List.mem_map_of_mem leaf)⟩
  · exact (root_isUnion built).alike (root_isUnion other)

/-- Two orders of the split of three boxes, one of which ends at NaN and two at zeros of different
signs. -/
theorem ofBoxes?_isUnion_notANumber :
    let flat : Box := ⟨⟨0, Number.notANumber⟩, .empty, .all⟩
    let boxes := [flat, ⟨⟨-0, 5⟩, .unit, .unit⟩, .empty]
    boxes ≠ [] ∧ ∃ h h', ofBoxes? .sorted boxes (.random 7) = some (.ok h) ∧
      ofBoxes? .sorted boxes .longest = some (.ok h') ∧ h.box.IsUnion boxes ∧
      h.box.Alike h'.box := by
  intro flat boxes
  have nonempty : boxes ≠ [] := List.cons_ne_nil _ _
  obtain ⟨h, built, -, union, same, -⟩ := ofBoxes?_isUnion .sorted boxes (.random 7) nonempty
  obtain ⟨h', built', -⟩ := ofBoxes?_isUnion .sorted boxes .longest nonempty
  exact ⟨nonempty, h, h', built, built', union, same .sorted .longest h' built'⟩

/-! ## No ray is lost -/

/-- Hulls are commutative, associative and idempotent up to the sign of zeros, and the empty box is
neutral for boxes without NaN. A finite ray that meets such a box within a range meets each hull of
it within each larger range, and never the empty box. So it meets the box of each node above a leaf
whose box it meets. -/
theorem hull_keeps_hits (ray : Ray) (inner outer : Interval) (origin : ray.origin.IsFinite)
    (direction : ray.direction.IsFinite) (ends : inner.HasNumbers)
    (larger : ∀ t, inner.contains t = true → outer.contains t = true) :
    (∀ a b c : Box, (a.hull b).Alike (b.hull a) ∧ ((a.hull b).hull c).Alike (a.hull (b.hull c)) ∧
        (a.hull a).Alike a) ∧
      (∀ a : Box, a.HasNumbers → (a.hull .empty).Alike a ∧ (Box.empty.hull a).Alike a ∧
        ∀ b : Box, (a.hull b).HasNumbers ∧
        (a.isHit ray inner = true → (a.hull b).isHit ray outer = true)) ∧
      Box.empty.isHit ray inner = false ∧
      ∀ a boxes policy h, ofBoxes? a boxes policy = some (.ok h) → ∀ n ∈ h.subtrees, ∀ i ∈ n.leaves,
        i.box.HasNumbers → i.box.isHit ray inner = true → n.box.isHit ray outer = true := by
  refine ⟨fun a b c => ⟨Box.hull_comm a b, Box.hull_assoc a b c, Box.hull_self a⟩,
    fun a numbers => ⟨Box.hull_empty numbers, Box.empty_hull numbers, fun b => ?_⟩,
    Box.isHit_empty origin direction ends, fun a boxes policy h built n mem i leaf numbers => ?_⟩
  · have encloses : (a.hull b).Encloses a := (Box.isUnion_pair a b).encloses List.mem_cons_self
    exact ⟨encloses.hasNumbers numbers,
      Box.isHit_of_encloses origin direction encloses numbers ends larger⟩
  · have encloses := (tight_ofBoxes? built n mem).encloses (List.mem_map_of_mem leaf)
    exact Box.isHit_of_encloses origin direction encloses numbers ends larger

/-- A ray in two faces of a cube, whose hull with a half space has none of these faces. -/
theorem hull_keeps_hits_face :
    let ray : Ray := ⟨⟨1, -1, -5⟩, ⟨0, -0, 1⟩⟩
    let inner : Interval := ⟨0, 10⟩
    let outer : Interval := ⟨-0, Number.infinity⟩
    let cube := Box.ofCorners (.splat (-1)) (.splat 1)
    let half : Box := ⟨⟨-Number.infinity, 3⟩, .all, .all⟩
    ray.origin.IsFinite ∧ ray.direction.IsFinite ∧ inner.HasNumbers ∧
      (∀ t, inner.contains t = true → outer.contains t = true) ∧ cube.HasNumbers ∧
      cube.isHit ray inner = true ∧ (cube.hull half).isHit ray outer = true ∧
      Box.empty.isHit ray inner = false := by
  intro ray inner outer cube half
  have origin : ray.origin.IsFinite := by decide
  have direction : ray.direction.IsFinite := by decide
  have ends : inner.HasNumbers := by decide
  have larger : ∀ t, inner.contains t = true → outer.contains t = true := by
    intro t mem
    obtain ⟨low, high⟩ := (inner.contains_iff t).mp mem
    exact (outer.contains_iff t).mpr ⟨number_le_trans (by decide) low,
      number_le_trans high (by decide)⟩
  have numbers : cube.HasNumbers := by decide
  have hit : cube.isHit ray inner = true := by decide
  obtain ⟨-, kept, empty, -⟩ := hull_keeps_hits ray inner outer origin direction ends larger
  obtain ⟨-, -, keeps⟩ := kept cube numbers
  exact ⟨origin, direction, ends, larger, numbers, hit, (keeps half).2 hit, empty⟩

end RayTracer.Hierarchy
