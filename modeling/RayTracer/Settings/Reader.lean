import RayTracer.Settings
import RayTracer.Settings.Json

/-!
# Reading settings from JSON

Settings are an object with any of the five keys, or an array with up to five values in the order of
the fields. What is missing has its default. Keys that are not settings are skipped with their
values; a setting that comes twice is refused.
-/

namespace RayTracer.Settings

inductive Field where
  | width
  | height
  | maxDepth
  | threads
  | background
deriving Repr, DecidableEq

namespace Field

/-- The fields in the order of the array form. -/
def all : List Field := [.width, .height, .maxDepth, .threads, .background]

def key : Field → String
  | .width => "width"
  | .height => "height"
  | .maxDepth => "max_depth"
  | .threads => "threads"
  | .background => "background"

def ofKey? (key : String) : Option Field := all.find? (·.key == key)

end Field

/-- An unsigned integer of 32 bits. -/
def word32? : Json → Option UInt32
  | .scalar (.number n) => (n.natural? UInt32.size).map UInt32.ofNat
  | _ => none

/-- An unsigned integer of 64 bits, or null for none. -/
def optionalWord64? : Json → Option (Option UInt64)
  | .scalar .null => some none
  | .scalar (.number n) => (n.natural? UInt64.size).map fun v => some (UInt64.ofNat v)
  | _ => none

def channel? : Json → Option Float32
  | .scalar (.number n) => n.toFloat32?
  | _ => none

/-- An array of red, green and blue. -/
def color? : Json → Option Color
  | .array [r, g, b] => do return ⟨← channel? r, ← channel? g, ← channel? b⟩
  | _ => none

/-- Sets a field to a value, if that has its form. -/
def assign? (s : Settings) (v : Json) : Field → Option Settings
  | .width => (word32? v).map fun width => { s with width }
  | .height => (word32? v).map fun height => { s with height }
  | .maxDepth => (word32? v).map fun maxDepth => { s with maxDepth }
  | .threads => (optionalWord64? v).map fun threads => { s with threads }
  | .background => (color? v).map fun background => { s with background }

/-- The members of an object that are settings. A key without a text is refused. -/
def fields? : List (Option String × Json) → Option (List (Field × Json))
  | [] => some []
  | (none, _) :: _ => none
  | (some key, v) :: rest =>
    match Field.ofKey? key with
    | none => fields? rest
    | some f => (fields? rest).map ((f, v) :: ·)

/-- The default settings with some fields set. -/
def ofFields? (fields : List (Field × Json)) : Option Settings :=
  fields.foldlM (fun s (f, v) => s.assign? v f) default

def ofJson? : Json → Option Settings
  | .object members => do
    let fields ← fields? members
    if (fields.map Prod.fst).Nodup then ofFields? fields else none
  | .array items =>
    if items.length ≤ Field.all.length then ofFields? (Field.all.zip items) else none
  | .scalar _ => none

/-- The settings that a text holds. -/
def ofText? (text : String) : Option Settings := do ofJson? (← Json.ofText? text)

end RayTracer.Settings
