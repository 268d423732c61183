import RayTracer.Picture.Basic
import RayTracer.Picture.Sink

/-!
# Plain pixmaps (P3)

The text form of a picture: the magic number `P3`, a line with width and height, a line with the
largest channel value, and a line for each pixel with its three bytes in decimal. All of it is
ASCII, so a character is a byte.
-/

namespace RayTracer.Picture

/-- The chunks in which a pixel is written. -/
def pixelChunks (c : Color) : List String :=
  let (r, g, b) := Color.bytes c
  [toString r.toNat, " ", toString g.toNat, " ", toString b.toNat, "\n"]

/-- The chunks of the text, in the order in which they are written. -/
def chunks (p : Picture) : List String :=
  ["P3\n", toString p.width, " ", toString p.height, "\n", "255\n"] ++
    p.pixels.toList.flatMap pixelChunks

/-- The whole text. -/
def pixmap (p : Picture) : String := String.join p.chunks

/-- Writes the text to a sink. -/
def writeTo (p : Picture) (sink : Sink) : Sink × Except RenderError Unit :=
  match sink.writeAll p.chunks with
  | (s, .ok ()) => (s, .ok ())
  | (s, .error e) => (s, .error (.io e))

end RayTracer.Picture
