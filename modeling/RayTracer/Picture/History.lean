import RayTracer.Picture.Basic

/-!
# Histories of a picture

The pictures that come out of a black one by setting pixels in turn. A dot is a colour for one
pixel; it is inside a picture if its column and its row are.
-/

namespace RayTracer.Picture

/-- A colour for a pixel. -/
structure Dot where
  x : Nat
  y : Nat
  color : Color
deriving DecidableEq

/-- The column and the row are those of a picture of the size. -/
def Dot.Inside (d : Dot) (width height : Nat) : Prop := d.x < width ∧ d.y < height

instance (d : Dot) (width height : Nat) : Decidable (d.Inside width height) :=
  inferInstanceAs (Decidable (_ ∧ _))

/-- Sets pixels in turn, unless the place of one of them is past the end. -/
def setAll? (p : Picture) (dots : List Dot) : Option Picture :=
  dots.foldlM (fun p d => p.set? d.x d.y d.color) p

/-- The picture of a size on which the dots are set, from black on. -/
def drawn? (width height : Nat) (dots : List Dot) : Option Picture :=
  (black? width height).bind (·.setAll? dots)

end RayTracer.Picture
