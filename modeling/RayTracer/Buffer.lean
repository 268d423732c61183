/-!
# Buffers

A buffer is an array of equal elements that is asked for in one piece. Its bytes must not be more
than the largest distance between two addresses, so a buffer of too many elements is refused.
-/

namespace RayTracer.Buffer

/-- The most bytes that a buffer can take, which is the largest signed word. -/
def maxBytes : Nat := 9223372036854775807

/-- A buffer of `count` elements of `bytesEach` bytes can be asked for. -/
def Fits (bytesEach count : Nat) : Prop := count * bytesEach ≤ maxBytes

instance (bytesEach count : Nat) : Decidable (Fits bytesEach count) :=
  inferInstanceAs (Decidable (count * bytesEach ≤ maxBytes))

/-- A buffer that holds the same element `count` times, if it fits. -/
def filled? {α : Type} (bytesEach count : Nat) (a : α) : Option (Array α) :=
  if Fits bytesEach count then some (Array.replicate count a) else none

end RayTracer.Buffer
