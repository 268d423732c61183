import RayTracer.Hierarchy.Tree

/-!
# Items to build over

An `Item` is an object's number with its box. A list of items is ordered along an axis by the
centres of the boxes. The sort is stable, and an item whose centre is NaN is before no other and no
other before it.
-/

namespace RayTracer

structure Item where
  object : Nat
  box : Box
deriving DecidableEq, Inhabited

namespace Item

def leaf (i : Item) : Hierarchy := .leaf i.object i.box

end Item

namespace Hierarchy

/-- The items in the leaves, from left to right. -/
def leaves : Hierarchy → List Item
  | leaf object b => [⟨object, b⟩]
  | branch l r _ => l.leaves ++ r.leaves

/-- The two trees below each branch: the root's first, then those in its left subtree, then those in
its right one. -/
def branches : Hierarchy → List (Hierarchy × Hierarchy)
  | leaf .. => []
  | branch l r _ => (l, r) :: (l.branches ++ r.branches)

end Hierarchy

namespace Item

/-- The centre on an axis. -/
def center (i : Item) (axis : Axis) : Float32 := i.box.centroid.along axis

def before (axis : Axis) (a b : Item) : Bool := a.center axis < b.center axis

/-- Inserts an item into a list that is sorted backwards: behind the items that it is before. -/
def insert (axis : Axis) (i : Item) : List Item → List Item
  | [] => [i]
  | j :: rest => if before axis i j then j :: insert axis i rest else i :: j :: rest

/-- The items sorted backwards, each inserted in turn. -/
def sortBackwards (axis : Axis) (items : List Item) : List Item :=
  items.foldl (fun sorted i => insert axis i sorted) []

/-- The items in the order of their centres on an axis. -/
def sort (axis : Axis) (items : List Item) : List Item := (sortBackwards axis items).reverse

theorem insert_perm (axis : Axis) (i : Item) (items : List Item) :
    (insert axis i items).Perm (i :: items) := by
  induction items with
  | nil => exact .refl _
  | cons j rest ih =>
    unfold insert
    split
    · exact (ih.cons j).trans (.swap i j rest)
    · exact .refl _

theorem sort_perm (axis : Axis) (items : List Item) : (sort axis items).Perm items := by
  have fold : ∀ (l sorted : List Item),
      (l.foldl (fun sorted i => insert axis i sorted) sorted).Perm (l.reverse ++ sorted) := by
    intro l
    induction l with
    | nil => intro sorted; exact .refl _
    | cons i l ih =>
      intro sorted
      refine (ih _).trans ?_
      rw [List.reverse_cons, List.append_assoc]
      exact (insert_perm axis i sorted).append_left _
  have backwards : (sortBackwards axis items).Perm items.reverse := by
    simpa [sortBackwards] using fold items []
  exact ((List.reverse_perm _).trans backwards).trans (List.reverse_perm _)

@[simp] theorem length_sort (axis : Axis) (items : List Item) :
    (sort axis items).length = items.length := (sort_perm axis items).length_eq

/-- The first half of the sorted items; of an odd number the smaller half. -/
def lower (axis : Axis) (items : List Item) : List Item := (sort axis items).take (items.length / 2)

/-- The rest of the sorted items. -/
def upper (axis : Axis) (items : List Item) : List Item := (sort axis items).drop (items.length / 2)

@[simp] theorem length_lower (axis : Axis) (items : List Item) :
    (lower axis items).length = items.length / 2 := by
  simp only [lower, List.length_take, length_sort]
  omega

@[simp] theorem length_upper (axis : Axis) (items : List Item) :
    (upper axis items).length = items.length - items.length / 2 := by
  simp only [upper, List.length_drop, length_sort]

/-- The box around the centres of the items, each padded to a box of its own. -/
def centroidBounds (items : List Item) : Box :=
  items.foldl (fun bounds i => bounds.hull (.ofCorners i.box.centroid i.box.centroid)) .empty

end Item

end RayTracer
