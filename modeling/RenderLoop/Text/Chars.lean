import RenderLoop.Text.Chars.Tables

/-!
# Character classes

The classes that names, patterns and messages are judged by. Each is decided
for ASCII by its definition and beyond by the tables.
-/

namespace RenderLoop

/-- Whether a code point lies in one of the ranges. -/
def inRanges (ranges : List (Nat × Nat)) (u : Nat) : Bool :=
  ranges.any fun (lo, hi) => lo ≤ u && u ≤ hi

/-- A letter or digit of any script, or an underscore. -/
def isWordChar (c : Char) : Bool :=
  if c.toNat < 0x80 then c.isAlphanum || c == '_'
  else inRanges wordRanges c.toNat

/-- A decimal digit of any script. -/
def isDecimalDigit (c : Char) : Bool :=
  if c.toNat < 0x80 then c.isDigit else inRanges digitRanges c.toNat

/-- A blank of any script, line boundaries and separators included. -/
def isBlankChar (c : Char) : Bool :=
  inRanges [(0x09, 0x0d), (0x1c, 0x20), (0x85, 0x85), (0xa0, 0xa0),
    (0x1680, 0x1680), (0x2000, 0x200a), (0x2028, 0x2029), (0x202f, 0x202f),
    (0x205f, 0x205f), (0x3000, 0x3000)] c.toNat

/-- A character with a visible form, or a plain blank. -/
def isPrintable (c : Char) : Bool :=
  if c.toNat < 0x80 then 0x20 ≤ c.toNat && c.toNat < 0x7f
  else !inRanges unprintableRanges c.toNat

/-- The character that stands for half of a surrogate pair. Documents can hold
such a half by itself, which is no character; the last private ones, of which
there are as many as there are halves, are taken for them. -/
def halfOf (u : Nat) : Char := Char.ofNat (0x10F800 + (u - 0xD800))

/-- The character stands for half of a surrogate pair. -/
def isHalf (c : Char) : Bool := 0x10F800 ≤ c.toNat

/-- A half that stands for a single byte outside of any text, as names of
files may hold them. -/
def isStrayByte (c : Char) : Bool := 0x10FC80 ≤ c.toNat && c.toNat ≤ 0x10FCFF

/-- The small letter of a capital one; any other character is its own. -/
def toSmall (c : Char) : List Char :=
  if c.toNat < 0x80 then [c.toLower]
  else if c.toNat = 0x130 then ['i', '\u0307']
  else
    match lowerRuns.find? fun (lo, hi, step, _) =>
        lo ≤ c.toNat && c.toNat ≤ hi && (c.toNat - lo) % step == 0 with
    | some (_, _, _, offset) => [Char.ofNat ((c.toNat : Int) + offset).toNat]
    | none => [c]

end RenderLoop
