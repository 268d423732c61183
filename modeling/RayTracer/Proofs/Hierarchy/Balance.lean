import Mathlib.Data.Nat.Log
import RayTracer.Proofs.Hierarchy.Structure

/-! # Balance

A hierarchy is balanced whatever order the items are brought into at each branch, so the sort need
not even sort: `grow?` is the recursion of `build` with any `Arrangement` in its place.

* `grow?` has no tree over an empty list, on which the recursion would go on forever. `grow?_isSome`
  says that a list with an item never leads to an empty one.
* `Balanced`: each branch shares its leaves out evenly, an odd one to the right. `balanced_grow?`
  says that this is so, and `Balanced.depth_eq` that it determines the depth.
* `ofBoxes?_balanced` puts this together for the boxes of a scene. `grow?_sorted` and
  `exists_ofShapes` tie it to what a scene builds.
-/

namespace RayTracer.Hierarchy

/-! ## Any order of the items -/

/-- A way to bring items into some order along an axis. Nothing is asked of the order. -/
structure Arrangement where
  arrange : Axis → List Item → List Item
  perm (axis : Axis) (items : List Item) : (arrange axis items).Perm items

namespace Arrangement

/-- The order of the centres. -/
def sorted : Arrangement := ⟨Item.sort, Item.sort_perm⟩

variable (a : Arrangement) (axis : Axis) (items : List Item)

/-- The first half of the arranged items; of an odd number the smaller half. -/
def lower : List Item := (a.arrange axis items).take (items.length / 2)

/-- The rest of the arranged items. -/
def upper : List Item := (a.arrange axis items).drop (items.length / 2)

theorem lower_append_upper_perm : (a.lower axis items ++ a.upper axis items).Perm items := by
  rw [lower, upper, List.take_append_drop]
  exact a.perm axis items

@[simp] theorem length_lower : (a.lower axis items).length = items.length / 2 := by
  rw [lower, List.length_take, (a.perm axis items).length_eq]
  omega

@[simp] theorem length_upper : (a.upper axis items).length = items.length - items.length / 2 := by
  rw [upper, List.length_drop, (a.perm axis items).length_eq]

variable {items}

theorem lower_ne_nil (some : 1 < items.length) : a.lower axis items ≠ [] := by
  refine List.ne_nil_of_length_pos ?_
  rw [length_lower]
  omega

theorem upper_ne_nil (some : 1 < items.length) : a.upper axis items ≠ [] := by
  refine List.ne_nil_of_length_pos ?_
  rw [length_upper]
  omega

end Arrangement

/-- The tree over a list of items, and the source of axes that it leaves. There is none over an
empty list: its halves are empty again. -/
def grow? (a : Arrangement) (axes : AxisSource) (items : List Item) :
    Option (Hierarchy × AxisSource) :=
  match items with
  | [] => none
  | [i] => some (i.leaf, axes)
  | [i, j] => some (pair (axes.next [i, j]).1 i j, (axes.next [i, j]).2)
  | all@(_ :: _ :: _ :: _) =>
    (grow? a (axes.next all).2 (a.lower (axes.next all).1 all)).bind fun left =>
      (grow? a left.2 (a.upper (axes.next all).1 all)).map fun right =>
        (join left.1 right.1, right.2)
termination_by items.length
decreasing_by
  all_goals simp_all only [Arrangement.length_lower, Arrangement.length_upper,
    List.length_cons]; omega

/-- With the order of the centres this is `build`. -/
theorem grow?_sorted (axes : AxisSource) (items : List Item) (nonempty : items ≠ []) :
    grow? .sorted axes items = some (build axes items nonempty) := by
  fun_induction build axes items nonempty with
  | case1 => rw [grow?]
  | case2 axes i j _ axis _ drawn => rw [grow?, drawn]
  | case3 axes i j k rest _ axis _ drawn left _ builtLeft right _ builtRight _ lower upper =>
    rw [builtLeft] at lower
    rw [builtRight] at upper
    rw [grow?, drawn]
    show (grow? .sorted _ (Item.lower axis (i :: j :: k :: rest))).bind _ = _
    rw [lower, Option.bind_some]
    show (grow? .sorted _ (Item.upper axis (i :: j :: k :: rest))).map _ = _
    rw [upper, Option.map_some]

section

variable {a : Arrangement} {axes : AxisSource} {items : List Item}

/-- No branch leads to an empty list of items. -/
theorem grow?_isSome (nonempty : items ≠ []) : (grow? a axes items).isSome := by
  fun_induction grow? a axes items with
  | case1 => exact absurd rfl nonempty
  | case2 => rfl
  | case3 => rfl
  | case4 axes i j k rest lower upper =>
    have many : 1 < (i :: j :: k :: rest).length := by
      simp only [List.length_cons]
      omega
    obtain ⟨left, grownLeft⟩ := Option.isSome_iff_exists.mp (lower (a.lower_ne_nil _ many))
    rw [grownLeft, Option.bind_some, Option.isSome_map]
    exact upper left (a.upper_ne_nil _ many)

/-- What holds of leaves and pairs, and of two joined trees if it holds of both, holds of each
tree. -/
theorem grow?_induction {P : List Item → Hierarchy → Prop} (leaf : ∀ i, P [i] i.leaf)
    (two : ∀ axis i j, P [i, j] (pair axis i j))
    (more : ∀ axis items left right, 2 < items.length → P (a.lower axis items) left →
      P (a.upper axis items) right → P items (join left right))
    {grown : Hierarchy × AxisSource} (h : grow? a axes items = some grown) : P items grown.1 := by
  revert grown
  fun_induction grow? a axes items with
  | case1 => exact nofun
  | case2 =>
    rintro _ ⟨⟩
    exact leaf _
  | case3 =>
    rintro _ ⟨⟩
    exact two _ _ _
  | case4 axes i j k rest lower upper =>
    intro grown h
    obtain ⟨left, grownLeft, h⟩ := Option.bind_eq_some_iff.mp h
    obtain ⟨right, grownRight, rfl⟩ := Option.map_eq_some_iff.mp h
    exact more _ _ _ _ (by simp only [List.length_cons]; omega) (lower grownLeft)
      (upper left grownRight)

theorem leaves_grow? {grown : Hierarchy × AxisSource} (h : grow? a axes items = some grown) :
    grown.1.leaves.Perm items := by
  refine grow?_induction (P := fun items tree => tree.leaves.Perm items) (fun i => .refl _)
    leaves_pair ?_ h
  intro axis items left right _ lower upper
  exact (lower.append upper).trans (a.lower_append_upper_perm axis items)

/-! ## Balance -/

/-- Each branch shares its leaves out evenly; of an odd number the right side has one more. -/
def Balanced (h : Hierarchy) : Prop :=
  ∀ l r, (l, r) ∈ h.branches → l.leaves.length = (l.leaves.length + r.leaves.length) / 2 ∧
    r.leaves.length = (l.leaves.length + r.leaves.length + 1) / 2

theorem balanced_leaf (object : ℕ) (b : Box) : (leaf object b).Balanced := nofun

theorem balanced_branch_iff {l r : Hierarchy} {b : Box} :
    (branch l r b).Balanced ↔ (l.leaves.length = (l.leaves.length + r.leaves.length) / 2 ∧
      r.leaves.length = (l.leaves.length + r.leaves.length + 1) / 2) ∧ l.Balanced ∧ r.Balanced := by
  constructor
  · intro balanced
    exact ⟨balanced l r (List.mem_cons_self ..),
      fun l' r' mem => balanced l' r' (List.mem_cons_of_mem _ (List.mem_append_left _ mem)),
      fun l' r' mem => balanced l' r' (List.mem_cons_of_mem _ (List.mem_append_right _ mem))⟩
  · rintro ⟨even, left, right⟩ l' r' mem
    obtain same | below := List.mem_cons.mp mem
    · cases same
      exact even
    · obtain inL | inR := List.mem_append.mp below
      · exact left l' r' inL
      · exact right l' r' inR

theorem balanced_pair (axis : Axis) (i j : Item) : (pair axis i j).Balanced := by
  have one (i : Item) : i.leaf.leaves.length = 1 := rfl
  unfold pair
  split_ifs
  all_goals exact balanced_branch_iff.mpr ⟨by simp only [one]; decide, balanced_leaf _ _,
    balanced_leaf _ _⟩

theorem balanced_grow? {grown : Hierarchy × AxisSource} (h : grow? a axes items = some grown) :
    grown.1.Balanced := by
  have both : grown.1.leaves.length = items.length ∧ grown.1.Balanced := by
    refine grow?_induction (P := fun items tree => tree.leaves.length = items.length ∧
      tree.Balanced) (fun i => ⟨rfl, balanced_leaf _ _⟩)
      (fun axis i j => ⟨(leaves_pair axis i j).length_eq, balanced_pair axis i j⟩) ?_ h
    intro axis items left right _ lower upper
    rw [Arrangement.length_lower] at lower
    rw [Arrangement.length_upper] at upper
    have all : (join left right).leaves.length = left.leaves.length + right.leaves.length :=
      List.length_append
    refine ⟨by omega, balanced_branch_iff.mpr ⟨⟨by omega, by omega⟩, lower.2, upper.2⟩⟩
  exact both.2

end

/-- A tree has one leaf more than branches. -/
theorem nodeCount_add_one (h : Hierarchy) : h.nodeCount + 1 = 2 * h.leaves.length := by
  induction h with
  | leaf => rfl
  | branch l r b left right =>
    rw [nodeCount, leaves, List.length_append]
    omega

theorem leaves_length_pos (h : Hierarchy) : 0 < h.leaves.length := by
  have := nodeCount_add_one h
  omega

/-- The larger half of the leaves is on the right, and halving with rounding up is what the binary
logarithm counts. -/
theorem Balanced.depth_eq {h : Hierarchy} (balanced : h.Balanced) :
    h.depth = 1 + Nat.clog 2 h.leaves.length := by
  induction h with
  | leaf => rfl
  | branch l r b left right =>
    obtain ⟨⟨smaller, larger⟩, balancedL, balancedR⟩ := balanced_branch_iff.mp balanced
    have some := leaves_length_pos l
    have order : l.leaves.length ≤ r.leaves.length := by omega
    have halved :
        Nat.clog 2 (l.leaves.length + r.leaves.length) = Nat.clog 2 r.leaves.length + 1 := by
      rw [Nat.clog_of_two_le Nat.one_lt_two (by omega)]
      congr 2
      exact larger.symm
    rw [depth, left balancedL, right balancedR, leaves, List.length_append, halved,
      max_eq_right (Nat.add_le_add_left (Nat.clog_mono_right 2 order) 1)]
    omega

/-! ## The boxes of a scene -/

/-- The hierarchy over a list of boxes under a policy, with any arrangement of the items. There is
no answer if the recursion comes to an empty list of items. -/
def ofBoxes? (a : Arrangement) (boxes : List Box) (policy : SplitPolicy) :
    Option (Except RenderError Hierarchy) :=
  if boxes = [] then some (.error .emptyScene)
  else (grow? a (.ofPolicy policy) (numbered boxes)).map fun grown => .ok grown.1

/-- With the order of the centres this is what a scene builds. -/
theorem ofBoxes?_sorted (shapes : Array Shape) (policy : SplitPolicy) :
    ofBoxes? .sorted (shapes.toList.map Shape.box) policy = some (ofShapes shapes policy) := by
  obtain rfl | nonempty := eq_or_ne shapes #[]
  · rfl
  · have some := items_ne_nil nonempty
    rw [ofShapes, dif_pos some, ofBoxes?, if_neg, ← items_eq_numbered, grow?_sorted _ _ some,
      Option.map_some]
    simpa using nonempty

section

variable {a : Arrangement} {boxes : List Box} {policy : SplitPolicy} {h : Hierarchy}

theorem exists_grown (a : Arrangement) (policy : SplitPolicy) (nonempty : boxes ≠ []) :
    ∃ grown, grow? a (.ofPolicy policy) (numbered boxes) = some grown ∧
      ofBoxes? a boxes policy = some (.ok grown.1) := by
  have some : numbered boxes ≠ [] := by
    rwa [ne_eq, numbered, List.mapIdx_eq_nil_iff]
  have grows : (grow? a (.ofPolicy policy) (numbered boxes)).isSome := grow?_isSome some
  obtain ⟨grown, found⟩ := Option.isSome_iff_exists.mp grows
  exact ⟨grown, found, by rw [ofBoxes?, if_neg nonempty, found, Option.map_some]⟩

theorem grown_of_ofBoxes? (built : ofBoxes? a boxes policy = some (.ok h)) :
    ∃ axes, grow? a (.ofPolicy policy) (numbered boxes) = some (h, axes) := by
  have nonempty : boxes ≠ [] := by
    rintro rfl
    cases built
  obtain ⟨grown, found, same⟩ := exists_grown a policy nonempty
  rw [built] at same
  cases same
  exact ⟨grown.2, found⟩

theorem leaves_ofBoxes? (built : ofBoxes? a boxes policy = some (.ok h)) :
    h.leaves.Perm (numbered boxes) := by
  obtain ⟨axes, grown⟩ := grown_of_ofBoxes? built
  exact leaves_grow? grown

/-- The hierarchy over the boxes of some shapes; with the order of the centres it is the one that a
scene has. -/
theorem exists_ofShapes {shapes : Array Shape} (a : Arrangement) (policy : SplitPolicy)
    (nonempty : shapes ≠ #[]) :
    ∃ h, ofBoxes? a (shapes.toList.map Shape.box) policy = some (.ok h) ∧
      (a = .sorted → ofShapes shapes policy = .ok h) ∧ h.leaves.Perm (items shapes) := by
  have some : shapes.toList.map Shape.box ≠ [] := by simpa using nonempty
  obtain ⟨grown, -, built⟩ := exists_grown a policy some
  refine ⟨grown.1, built, ?_, items_eq_numbered shapes ▸ leaves_ofBoxes? built⟩
  rintro rfl
  exact Option.some.inj ((ofBoxes?_sorted shapes policy).symm.trans built)

theorem ofShapes_eq_ok {shapes : Array Shape} (nonempty : shapes ≠ #[]) (policy : SplitPolicy) :
    ∃ h, ofShapes shapes policy = .ok h ∧ h.leaves.Perm (items shapes) := by
  obtain ⟨h, -, built, leaves⟩ := exists_ofShapes .sorted policy nonempty
  exact ⟨h, built rfl, leaves⟩

/-- No order is asked of two boxes, so the tree over them depends on the axis of its one branch
alone. -/
theorem ofBoxes?_two (a : Arrangement) (b c : Box) (policy : SplitPolicy) :
    ∃ axis, ofBoxes? a [b, c] policy = some (.ok (pair axis ⟨0, b⟩ ⟨1, c⟩)) := by
  refine ⟨((AxisSource.ofPolicy policy).next [⟨0, b⟩, ⟨1, c⟩]).1, ?_⟩
  rw [ofBoxes?, if_neg (List.cons_ne_nil _ _)]
  show (grow? a _ [⟨0, b⟩, ⟨1, c⟩]).map _ = _
  rw [grow?, Option.map_some]

theorem ofShapes_two (s t : Shape) (policy : SplitPolicy) :
    ∃ axis, ofShapes #[s, t] policy = .ok (pair axis ⟨0, s.box⟩ ⟨1, t.box⟩) := by
  obtain ⟨axis, built⟩ := ofBoxes?_two .sorted s.box t.box policy
  exact ⟨axis, Option.some.inj ((ofBoxes?_sorted #[s, t] policy).symm.trans built)⟩

end

/-- The hierarchy over boxes is balanced and holds each of them once, at the place of a leaf. This
is so for any boxes and under each policy, and it needs no more of the sort than that it loses no
item; the recursion never comes to an empty list of items. Without boxes there is no hierarchy. -/
theorem ofBoxes?_balanced (a : Arrangement) (boxes : List Box) (policy : SplitPolicy) :
    (boxes = [] → ofBoxes? a boxes policy = some (.error .emptyScene)) ∧
      (boxes ≠ [] → ∃ h, ofBoxes? a boxes policy = some (.ok h) ∧
        h.objects.Perm (List.range boxes.length) ∧
        (∀ i ∈ h.leaves, boxes[i.object]? = some i.box) ∧
        h.Balanced ∧ h.nodeCount = 2 * boxes.length - 1 ∧ h.depth = 1 + Nat.clog 2 boxes.length) ∧
      ∀ shapes : Array Shape,
        ofBoxes? .sorted (shapes.toList.map Shape.box) policy = some (ofShapes shapes policy) := by
  refine ⟨fun empty => if_pos empty, fun nonempty => ?_,
    fun shapes => ofBoxes?_sorted shapes policy⟩
  obtain ⟨⟨h, axes⟩, grown, built⟩ := exists_grown a policy nonempty
  have leaves : h.leaves.Perm (numbered boxes) := leaves_grow? grown
  have balanced : h.Balanced := balanced_grow? grown
  have count : h.leaves.length = boxes.length := leaves.length_eq.trans (length_numbered boxes)
  refine ⟨h, built, ?_, fun i mem => mem_numbered.mp (leaves.mem_iff.mp mem), balanced, ?_, ?_⟩
  · rw [objects_eq_map_leaves, ← map_object_numbered]
    exact leaves.map Item.object
  · have nodes := nodeCount_add_one h
    omega
  · rw [balanced.depth_eq, count]

theorem ofBoxes?_balanced_notANumber :
    let flat : Box := ⟨⟨0, Number.notANumber⟩, .empty, .all⟩
    let boxes := [flat, .empty, flat, default, flat]
    boxes ≠ [] ∧ ∃ h, ofBoxes? .sorted boxes (.random 7) = some (.ok h) ∧
      h.objects.Perm (List.range 5) ∧ h.nodeCount = 9 ∧ h.depth = 4 := by
  intro flat boxes
  have nonempty : boxes ≠ [] := List.cons_ne_nil _ _
  obtain ⟨h, built, objects, -, -, nodes, depth⟩ :=
    (ofBoxes?_balanced .sorted boxes (.random 7)).2.1 nonempty
  refine ⟨nonempty, h, built, objects, nodes, depth.trans ?_⟩
  decide

end RayTracer.Hierarchy
