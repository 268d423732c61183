import RayTracer.Geometry.Vec3
import RayTracer.Random.ChaCha

/-!
# Random axes

A stream of uniformly distributed axes. A 64-bit word `w` gives axis `3 w / 2 ^ 64`; to have the
same number of words for each axis, a word is refused if `3 w` modulo `2 ^ 64` is among the top
quarter.
-/

namespace RayTracer.Random

/-- The axis that a keystream word gives, unless it is refused. -/
def axisOfWord? (w : UInt64) : Option Axis :=
  let product := 3 * w.toNat
  if product % UInt64.size ≤ 0xbfffffffffffffff then some (Axis.ofIndex (product / UInt64.size))
  else none

/-- A key with the position of the next word to read. -/
structure AxisStream where
  key : Key
  position : Nat

namespace AxisStream

def ofSeed (seed : UInt64) : AxisStream := ⟨keyOfSeed seed, 0⟩

/-- The first axis that the next words give from a position on, and the position behind its word.
There is none if all of them are refused. -/
def firstFrom? (key : Key) : (words position : Nat) → Option (Axis × Nat)
  | 0, _ => none
  | words + 1, position =>
    match axisOfWord? (keystream key position) with
    | some axis => some (axis, position + 1)
    | none => firstFrom? key words (position + 1)

/-- Draws an axis. The words of one period are all that there are. If every one of them were
refused, no draw would come to an end; the stream then stands still at the first axis. -/
def next (s : AxisStream) : Axis × AxisStream :=
  match firstFrom? s.key period s.position with
  | some (axis, position) => (axis, { s with position })
  | none => (.x, s)

/-- The next `n` axes, in the order in which they are drawn. -/
def take : (n : Nat) → AxisStream → List Axis
  | 0, _ => []
  | n + 1, s => s.next.1 :: take n s.next.2

end AxisStream

end RayTracer.Random
