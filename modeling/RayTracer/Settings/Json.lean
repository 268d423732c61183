import RayTracer.Settings.Token

/-!
# JSON values

The tokens of a text are read one at a time. The state holds the containers that are still open,
innermost first, and what may come next. So nesting is bounded by nothing but the text.
-/

namespace RayTracer

/-- A JSON value. Keys are kept in order and with repetitions; a key that holds half a surrogate
pair is `none`. -/
inductive Json where
  | scalar (s : Scalar)
  | array (items : List Json)
  | object (members : List (Option String × Json))
deriving Inhabited

namespace Json

/-- A container that is open around the current value, with what it holds so far, last first. -/
inductive Frame where
  | item (before : List Json)
  | member (before : List (Option String × Json)) (key : Option String)

inductive State where
  /-- A value must come. -/
  | value (stack : List Frame)
  /-- The first item of an array may come, or its end. -/
  | arrayStart (stack : List Frame)
  /-- The first key of an object may come, or its end. -/
  | objectStart (stack : List Frame)
  /-- A further key must come. -/
  | key (stack : List Frame) (before : List (Option String × Json))
  /-- The colon behind a key must come. -/
  | colon (stack : List Frame) (before : List (Option String × Json)) (key : Option String)
  /-- A value has ended. -/
  | ended (stack : List Frame) (v : Json)

/-- Begins a value. -/
def begin? (stack : List Frame) : Token → Option State
  | .scalar s => some (.ended stack (.scalar s))
  | .openBracket => some (.arrayStart stack)
  | .openBrace => some (.objectStart stack)
  | _ => none

/-- Reads a token. -/
def step? : State → Token → Option State
  | .value stack, t => begin? stack t
  | .arrayStart stack, .closeBracket => some (.ended stack (.array []))
  | .arrayStart stack, t => begin? (.item [] :: stack) t
  | .objectStart stack, .closeBrace => some (.ended stack (.object []))
  | .objectStart stack, .scalar (.string key) => some (.colon stack [] key)
  | .key stack before, .scalar (.string key) => some (.colon stack before key)
  | .colon stack before key, .colon => some (.value (.member before key :: stack))
  | .ended (.item before :: stack) v, .comma => some (.value (.item (v :: before) :: stack))
  | .ended (.item before :: stack) v, .closeBracket =>
    some (.ended stack (.array (v :: before).reverse))
  | .ended (.member before key :: stack) v, .comma => some (.key stack ((key, v) :: before))
  | .ended (.member before key :: stack) v, .closeBrace =>
    some (.ended stack (.object ((key, v) :: before).reverse))
  | _, _ => none

/-- The value of a text that holds one value and nothing else. -/
def ofText? (text : String) : Option Json := do
  let tokens ← Token.scan? text.toList
  match ← tokens.foldlM step? (.value []) with
  | .ended [] v => some v
  | _ => none

end Json

end RayTracer
