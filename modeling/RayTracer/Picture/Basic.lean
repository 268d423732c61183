import RayTracer.Buffer
import RayTracer.Number.Extrema
import RayTracer.Surface.Material

/-!
# Pictures

A picture is its size and its colours, row by row from the top. A pixel is addressed by column and
row; only its place in the row-major order is checked, so a column past the end of its row means a
pixel of a later row. A picture begins black, and only if its pixels fit into a buffer.
-/

namespace RayTracer

open Number (clampUnit)

structure Picture where
  width : Nat
  height : Nat
  pixels : Array Color
deriving DecidableEq, Inhabited

namespace Picture

/-- The black picture of a size. -/
def black (width height : Nat) : Picture := ⟨width, height, Array.replicate (width * height) .zero⟩

/-- A pixel takes twelve bytes, four for each channel. -/
def pixelSize : Nat := 12

/-- So many black pixels, if they fit into a buffer. -/
def blackPixels? (count : Nat) : Option (Array Color) := Buffer.filled? pixelSize count .zero

/-- The black picture of a size, if its pixels fit into a buffer. -/
def black? (width height : Nat) : Option Picture :=
  if Buffer.Fits pixelSize (width * height) then some (black width height) else none

/-- The place of a pixel in row-major order. -/
def place (p : Picture) (x y : Nat) : Nat := y * p.width + x

/-- The colour of a pixel, unless its place is past the end. -/
def get? (p : Picture) (x y : Nat) : Option Color := p.pixels[p.place x y]?

/-- Sets a pixel, unless its place is past the end. -/
def set? (p : Picture) (x y : Nat) (c : Color) : Option Picture :=
  if h : p.place x y < p.pixels.size then some { p with pixels := p.pixels.set (p.place x y) c }
  else none

/-- The colours cut into rows, from top to bottom. -/
def rows (p : Picture) : List (Array Color) :=
  let step := max p.width 1
  (List.range ((p.pixels.size + step - 1) / step)).map fun i =>
    p.pixels.extract (i * step) ((i + 1) * step)

end Picture

/-! ## Displayed colours -/

namespace Color

/-- Each channel clamped to `[0, 1]`. -/
def clamp (c : Color) : Color := c.map clampUnit

/-- The byte of a channel: `255.999` times the clamped value, without its fraction. NaN gives 0. -/
def channelByte (c : Float32) : UInt8 := (255.999 * clampUnit c).toUInt8

/-- The bytes of red, green and blue. -/
def bytes (c : Color) : UInt8 × UInt8 × UInt8 := (channelByte c.x, channelByte c.y, channelByte c.z)

end Color

end RayTracer
