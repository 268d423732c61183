import Mathlib.Data.List.Basic
import Mathlib.Tactic.SplitIfs
import RayTracer.Hierarchy.Build

/-! # Leaves and items

A tree is built over numbered items, and its leaves are items again. `objects_perm` says what this
means for the objects of a scene: a tree whose leaves are the items holds each object once.
-/

namespace RayTracer.Hierarchy

theorem leaves_pair (axis : Axis) (a b : Item) : (pair axis a b).leaves.Perm [a, b] := by
  unfold pair
  split_ifs
  · exact .refl _
  · exact .swap a b []

/-! ## The items of a list of shapes -/

/-- The items of a list of boxes, numbered in order. -/
def numbered (boxes : List Box) : List Item := boxes.mapIdx Item.mk

theorem mem_numbered {boxes : List Box} {i : Item} :
    i ∈ numbered boxes ↔ boxes[i.object]? = some i.box := by
  rw [numbered, List.mem_mapIdx, List.getElem?_eq_some_iff]
  constructor
  · rintro ⟨object, inside, rfl⟩
    exact ⟨inside, rfl⟩
  · rintro ⟨inside, same⟩
    exact ⟨i.object, inside, by rw [same]⟩

theorem length_numbered (boxes : List Box) : (numbered boxes).length = boxes.length :=
  List.length_mapIdx

theorem map_object_numbered (boxes : List Box) :
    (numbered boxes).map Item.object = List.range boxes.length := by
  refine List.ext_getElem (by simp [numbered]) fun object _ _ => ?_
  simp [numbered]

theorem items_eq_numbered (shapes : Array Shape) :
    items shapes = numbered (shapes.toList.map Shape.box) := by
  refine List.ext_getElem (by simp [numbered, items]) fun object _ _ => ?_
  simp [numbered, items]

theorem mem_items {shapes : Array Shape} {i : Item} :
    i ∈ items shapes ↔ ∃ s, shapes[i.object]? = some s ∧ i.box = s.box := by
  rw [items_eq_numbered, mem_numbered, List.getElem?_map, Array.getElem?_toList,
    Option.map_eq_some_iff]
  simp only [eq_comm]

theorem items_ne_nil {shapes : Array Shape} (nonempty : shapes ≠ #[]) : items shapes ≠ [] := by
  intro nothing
  rw [items, List.mapIdx_eq_nil_iff, Array.toList_eq_nil_iff] at nothing
  exact nonempty nothing

theorem objects_eq_map_leaves (h : Hierarchy) : h.objects = h.leaves.map Item.object := by
  induction h with
  | leaf object b => rfl
  | branch l r b left right => rw [objects, leaves, List.map_append, left, right]

theorem map_object_items (shapes : Array Shape) :
    (items shapes).map Item.object = List.range shapes.size := by
  rw [items_eq_numbered, map_object_numbered, List.length_map, Array.length_toList]

/-- The leaves hold each object once. -/
theorem objects_perm {shapes : Array Shape} {h : Hierarchy}
    (leaves : h.leaves.Perm (items shapes)) :
    h.objects.Perm (List.range shapes.size) := by
  rw [objects_eq_map_leaves, ← map_object_items]
  exact leaves.map Item.object

end RayTracer.Hierarchy
