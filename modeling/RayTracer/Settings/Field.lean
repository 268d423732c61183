import RayTracer.Settings.Reader

/-!
# Settings by field

Each setting under its name: its value, its form in JSON, and the entry of a JSON value that gives
it.
-/

namespace RayTracer.Settings

namespace Field

def Value : Field → Type
  | .width | .height | .maxDepth => UInt32
  | .threads => Option UInt64
  | .background => Color

/-- The value that JSON gives a field, if it has the form of the field. -/
def read? : (f : Field) → Json → Option f.Value
  | .width => word32?
  | .height => word32?
  | .maxDepth => word32?
  | .threads => optionalWord64?
  | .background => color?

/-- The place in the array form. -/
def index (f : Field) : Nat := all.idxOf f

/-- What JSON has for a field: the member with its key, or the item at its place. -/
def entry? (f : Field) : Json → Option Json
  | .object members => members.lookup (some f.key)
  | .array items => items[f.index]?
  | .scalar _ => none

end Field

def get (s : Settings) : (f : Field) → f.Value
  | .width => s.width
  | .height => s.height
  | .maxDepth => s.maxDepth
  | .threads => s.threads
  | .background => s.background

end RayTracer.Settings
