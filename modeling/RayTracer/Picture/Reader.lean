/-!
# Reading plain pixmaps

A plain pixmap (P3) is read as words between blanks: the magic number, width, height, the largest
channel value, and three numbers for each pixel. Line ends are blanks like any other. What is read
is the contents of the text and knows nothing of how the text was laid out.
-/

namespace RayTracer

/-- The contents of a plain pixmap with bytes as channels, its pixels row by row from the top. -/
structure Pixmap where
  width : Nat
  height : Nat
  pixels : List (Nat × Nat × Nat)
deriving Repr, DecidableEq

namespace Pixmap

def isBlank (c : Char) : Bool :=
  c = ' ' || c = '\t' || c = '\n' || c = '\x0b' || c = '\x0c' || c = '\r'

/-- The words of a text behind the beginning of a word, which is given backwards. -/
def wordsAfter (begun : List Char) : List Char → List (List Char)
  | [] => if begun.isEmpty then [] else [begun.reverse]
  | c :: rest =>
    if isBlank c then
      if begun.isEmpty then wordsAfter [] rest else begun.reverse :: wordsAfter [] rest
    else wordsAfter (c :: begun) rest

/-- The longest runs of characters without a blank. -/
def words (text : List Char) : List (List Char) := wordsAfter [] text

/-- The value of a word of decimal digits. -/
def natural? (word : List Char) : Option Nat :=
  if word.all Char.isDigit && !word.isEmpty then
    some (word.foldl (fun n c => 10 * n + (c.toNat - '0'.toNat)) 0)
  else none

/-- Cuts numbers into threes. -/
def triples? : List Nat → Option (List (Nat × Nat × Nat))
  | [] => some []
  | r :: g :: b :: rest => (triples? rest).map ((r, g, b) :: ·)
  | _ => none

/-- The contents of a text, if it has the form, the largest channel value 255, no larger channel,
and as many pixels as its size asks for. -/
def ofText? (text : String) : Option Pixmap :=
  match words text.toList with
  | ['P', '3'] :: numbers => do
    match ← numbers.mapM natural? with
    | width :: height :: 255 :: channels =>
      let pixels ← triples? channels
      if pixels.length = width * height ∧ channels.all (· ≤ 255) then some ⟨width, height, pixels⟩
      else none
    | _ => none
  | _ => none

end Pixmap

end RayTracer
