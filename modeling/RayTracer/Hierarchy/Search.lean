import RayTracer.Hierarchy.Tree
import RayTracer.Surface.Shape

/-!
# The closest hit

Both searches carry the closest hit so far and cut the search range at its parameter. The cut is
inclusive, so that an object at the same parameter still competes by its number.

* `scan` tests all shapes in turn.
* `Hierarchy.closest` skips each branch whose box the ray misses within the cut range. The box of a
  leaf is not tested.
-/

namespace RayTracer

/-- The range up to the closest hit so far. -/
def Interval.upTo (range : Interval) : Option Hit → Interval
  | none => range
  | some best => range.withHi best.t

namespace Hit

/-- The closer of two hits; the first stays if neither is closer. -/
def keepCloser (best : Option Hit) (h : Hit) : Hit :=
  match best with
  | none => h
  | some b => if h.isCloser b then h else b

/-- The closest hit once an object has been tested too. -/
def consider (ray : Ray) (range : Interval) (object : Nat) (s : Shape) (best : Option Hit) :
    Option Hit :=
  match s.contact? ray (range.upTo best) with
  | none => best
  | some c => some (keepCloser best { c with object })

end Hit

/-- The closest hit among the shapes within a range, each tested in turn. -/
def scan (shapes : Array Shape) (ray : Ray) (range : Interval) : Option Hit :=
  shapes.size.fold (fun object h best => Hit.consider ray range object shapes[object] best) none

namespace Hierarchy

/-- The closest of `best` and the hits below a node. A number without a shape is no hit. -/
def closest (shapes : Array Shape) (ray : Ray) (range : Interval) :
    Hierarchy → Option Hit → Option Hit
  | leaf object _, best =>
    match shapes[object]? with
    | none => best
    | some s => Hit.consider ray range object s best
  | branch l r b, best =>
    if b.isHit ray (range.upTo best) then
      r.closest shapes ray range (l.closest shapes ray range best)
    else best

/-- The closest hit among the shapes within a range. -/
def trace (h : Hierarchy) (shapes : Array Shape) (ray : Ray) (range : Interval) : Option Hit :=
  h.closest shapes ray range none

/-- Searches, and writes what is found over a hit. -/
def probe (h : Hierarchy) (shapes : Array Shape) (ray : Ray) (range : Interval) (hit : Hit) :
    Bool × Hit :=
  match h.trace shapes ray range with
  | none => (false, hit)
  | some found => (true, found)

end Hierarchy

end RayTracer
