/-!
# Vectors of three binary32 numbers

Points, directions and colours. Every operation rounds on its own and in the order written:

* `dot` adds the products of x and y first and then that of z.
* `normalizeOrZero` multiplies by the rounded reciprocal of the length, and sends each vector whose
  reciprocal is not a positive finite number to zero.
-/

namespace RayTracer

/-- The three coordinate axes. -/
inductive Axis where
  | x
  | y
  | z
deriving Repr, DecidableEq, Inhabited

namespace Axis

/-- Axes are numbered from 0; every number past the last axis stands for the last axis. -/
def ofIndex : Nat → Axis
  | 0 => .x
  | 1 => .y
  | _ => .z

def index : Axis → Nat
  | .x => 0
  | .y => 1
  | .z => 2

@[simp] theorem index_ofIndex (n : Nat) : (ofIndex n).index = min n 2 := by
  match n with
  | 0 | 1 => rfl
  | n + 2 => simp [ofIndex, index]

end Axis

/-- A point, a direction or a colour. -/
@[ext] structure Vec3 where
  x : Float32
  y : Float32
  z : Float32
deriving DecidableEq, Inhabited

namespace Vec3

/-- The vector with three equal components. -/
def splat (s : Float32) : Vec3 := ⟨s, s, s⟩

def zero : Vec3 := splat 0

def one : Vec3 := splat 1

def unitY : Vec3 := ⟨0, 1, 0⟩

def unitZ : Vec3 := ⟨0, 0, 1⟩

/-- The component on an axis. -/
def along (v : Vec3) : Axis → Float32
  | .x => v.x
  | .y => v.y
  | .z => v.z

/-- Applies a function to each component. -/
def map (f : Float32 → Float32) (v : Vec3) : Vec3 := ⟨f v.x, f v.y, f v.z⟩

instance : Add Vec3 := ⟨fun a b => ⟨a.x + b.x, a.y + b.y, a.z + b.z⟩⟩
instance : Sub Vec3 := ⟨fun a b => ⟨a.x - b.x, a.y - b.y, a.z - b.z⟩⟩
instance : Neg Vec3 := ⟨fun a => ⟨-a.x, -a.y, -a.z⟩⟩

/-- Component by component, as colours are filtered. -/
instance : Mul Vec3 := ⟨fun a b => ⟨a.x * b.x, a.y * b.y, a.z * b.z⟩⟩

instance : HMul Float32 Vec3 Vec3 := ⟨fun s v => ⟨s * v.x, s * v.y, s * v.z⟩⟩
instance : HMul Vec3 Float32 Vec3 := ⟨fun v s => ⟨v.x * s, v.y * s, v.z * s⟩⟩
instance : HDiv Vec3 Float32 Vec3 := ⟨fun v s => ⟨v.x / s, v.y / s, v.z / s⟩⟩

def dot (a b : Vec3) : Float32 := a.x * b.x + a.y * b.y + a.z * b.z

def cross (a b : Vec3) : Vec3 :=
  ⟨a.y * b.z - b.y * a.z, a.z * b.x - b.z * a.x, a.x * b.y - b.x * a.y⟩

def length (v : Vec3) : Float32 := (v.dot v).sqrt

/-- The unit vector in the same direction. Zero, and every vector so short or so long that the
reciprocal of its length leaves the positive finite numbers, becomes zero. -/
def normalizeOrZero (v : Vec3) : Vec3 :=
  let r := 1 / v.length
  if r.isFinite && r > 0 then v * r else zero

end Vec3

end RayTracer
