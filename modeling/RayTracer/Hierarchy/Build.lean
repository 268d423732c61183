import RayTracer.Failure
import RayTracer.Hierarchy.Split
import RayTracer.Surface.Shape

/-!
# Building a hierarchy

Top down: an axis for the branch, the items sorted along it, the lower half to the left and the
upper half to the right. The axis of a branch is drawn before those of its left subtree, and these
before those of its right one.
-/

namespace RayTracer.Hierarchy

/-- Two items in the order of their centres; equal centres are swapped. -/
def pair (axis : Axis) (a b : Item) : Hierarchy :=
  if Item.before axis a b then join a.leaf b.leaf else join b.leaf a.leaf

/-- The tree over one item or more, and the source of axes that it leaves. -/
def build (axes : AxisSource) (items : List Item) (nonempty : items ≠ []) :
    Hierarchy × AxisSource :=
  match items with
  | [] => absurd rfl nonempty
  | [i] => (i.leaf, axes)
  | [a, b] =>
    let (axis, axes) := axes.next [a, b]
    (pair axis a b, axes)
  | a :: b :: c :: rest =>
    -- Each half has an item at least and is shorter than the whole.
    let (axis, axes) := axes.next (a :: b :: c :: rest)
    let (left, axes) := build axes (Item.lower axis (a :: b :: c :: rest))
      (List.ne_nil_of_length_pos (by simp only [Item.length_lower, List.length_cons]; omega))
    let (right, axes) := build axes (Item.upper axis (a :: b :: c :: rest))
      (List.ne_nil_of_length_pos (by simp only [Item.length_upper, List.length_cons]; omega))
    (join left right, axes)
termination_by items.length
decreasing_by
  all_goals simp only [Item.length_lower, Item.length_upper, List.length_cons]; omega

/-- The items of a list of shapes, numbered in order. -/
def items (shapes : Array Shape) : List Item :=
  shapes.toList.mapIdx fun object s => ⟨object, s.box⟩

/-- The hierarchy over the shapes under a policy. There is none over no shapes. -/
def ofShapes (shapes : Array Shape) (policy : SplitPolicy) : Except RenderError Hierarchy :=
  if nonempty : items shapes ≠ [] then .ok (build (.ofPolicy policy) (items shapes) nonempty).1
  else .error .emptyScene

end RayTracer.Hierarchy
