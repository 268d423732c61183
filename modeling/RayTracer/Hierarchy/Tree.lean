import RayTracer.Geometry.Box

/-!
# Hierarchies of boxes

A binary tree over numbered objects. Each leaf holds one object's number and box, each branch a box
around the two below it. The tree holds numbers only, so a hit names the same object with and
without it.
-/

namespace RayTracer

inductive Hierarchy where
  | leaf (object : Nat) (box : Box)
  | branch (left right : Hierarchy) (box : Box)
deriving DecidableEq, Inhabited

namespace Hierarchy

def box : Hierarchy → Box
  | leaf _ b => b
  | branch _ _ b => b

/-- The branch over two trees, with the smallest box around theirs. -/
def join (left right : Hierarchy) : Hierarchy := branch left right (left.box.hull right.box)

/-- The numbers in the leaves, from left to right. -/
def objects : Hierarchy → List Nat
  | leaf object _ => [object]
  | branch l r _ => l.objects ++ r.objects

def nodeCount : Hierarchy → Nat
  | leaf .. => 1
  | branch l r _ => 1 + l.nodeCount + r.nodeCount

/-- The number of nodes on the longest path from the root. -/
def depth : Hierarchy → Nat
  | leaf .. => 1
  | branch l r _ => 1 + max l.depth r.depth

end Hierarchy

end RayTracer
