import RenderLoop.Text.Chars
import RenderLoop.Text.Width.Tables

/-!
# Display widths

How many cells of a terminal line characters take. Most take one; ideographs
and pictures take two, control characters and combining marks none.
-/

namespace RenderLoop

/-- The cells a character takes. -/
def cellWidth (c : Char) : Nat :=
  let u := c.toNat
  if 0x20 ≤ u && u < 0x7f then 1
  else if inRanges wideRanges u then 2
  else if inRanges widthlessRanges u then 0
  else 1

/-- The cells a text takes. -/
def cellLength : List Char → Nat
  | [] => 0
  | c :: rest => cellWidth c + cellLength rest

/-- Blanks up to a width. -/
def fill (width : Nat) (cs : List Char) : List Char :=
  List.replicate (width - cellLength cs) ' '

/-- A text with blanks after it. -/
def padRight (width : Nat) (cs : List Char) : List Char := cs ++ fill width cs

/-- A text with blanks before it. -/
def padLeft (width : Nat) (cs : List Char) : List Char := fill width cs ++ cs

/-- A text with blanks on both sides; an odd one goes to the right. -/
def center (width : Nat) (cs : List Char) : List Char :=
  let left := (width - cellLength cs) / 2
  padRight width (List.replicate left ' ' ++ cs)

end RenderLoop
