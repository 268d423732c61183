import RayTracer.Failure

/-!
# Limited sinks

A sink takes characters until its room is used up, then none. Writing a chunk hands over as much as
fits and fails if some of it is left; writing several chunks stops at the first failure.
-/

namespace RayTracer

structure Sink where
  /-- How many more characters fit. -/
  room : Nat
  /-- What has been taken so far. -/
  received : List Char := []
deriving Repr, DecidableEq

namespace Sink

def write (s : Sink) (chunk : String) : Sink × Except WriteError Unit :=
  let taken := chunk.toList.take s.room
  let s' : Sink := ⟨s.room - taken.length, s.received ++ taken⟩
  (s', if chunk.length ≤ s.room then .ok () else .error .full)

def writeAll (s : Sink) : List String → Sink × Except WriteError Unit
  | [] => (s, .ok ())
  | chunk :: rest =>
    match s.write chunk with
    | (s, .ok ()) => s.writeAll rest
    | (s, .error e) => (s, .error e)

end Sink

end RayTracer
