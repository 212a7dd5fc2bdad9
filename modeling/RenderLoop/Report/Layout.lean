import RenderLoop.Text.Width

/-!
# Styled text on a terminal

Text is printed piece by piece, each piece in a style, and wrapped to a width.
A line is broken before the first word that does not fit; a word is what lies
between two breaks at which a blank run ends, and the blanks after it belong
to it. A word that fits on no line is cut.

Blanks at the end of a line may stand beyond the width; they are dropped as
far as they do.
-/

namespace RenderLoop

/-- The colours in use. -/
inductive Colour where
  | red
  | green
  | yellow
  | magenta
  | cyan
  deriving DecidableEq, Repr, Inhabited

def Colour.number : Colour → Nat
  | red => 31
  | green => 32
  | yellow => 33
  | magenta => 35
  | cyan => 36

/-- How text looks. -/
structure Style where
  bold : Bool := false
  dim : Bool := false
  italic : Bool := false
  underline : Bool := false
  colour : Option Colour := none
  deriving DecidableEq, Repr, Inhabited

namespace Style

def plain : Style := {}

/-- The numbers a terminal knows a style by. -/
def numbers (s : Style) : List Nat :=
  (if s.bold then [1] else []) ++ (if s.dim then [2] else []) ++
    (if s.italic then [3] else []) ++ (if s.underline then [4] else []) ++
    (s.colour.map Colour.number).toList

/-- A text in a style, between the marks that switch it on and off. Nothing
needs no marks. -/
def paint (s : Style) (text : String) : String :=
  if text == "" || s.numbers.isEmpty then text
  else "\x1b[" ++ ";".intercalate (s.numbers.map toString) ++ "m" ++
    text ++ "\x1b[0m"

end Style

/-- A text in one style. -/
structure Piece where
  style : Style
  text : String
  deriving DecidableEq, Repr, Inhabited

/-- A character of a piece, which is known by its number. -/
structure Mark where
  char : Char
  piece : Nat
  style : Style
  deriving DecidableEq, Repr, Inhabited

namespace Layout

/-! ### Words -/

/-- The words of a line, given what has been read of the current one: nothing
but blanks before `seen`, and blanks since its last letter if `resting`. -/
def wordsFrom (word : List Char) (seen resting : Bool) :
    List Char → List (List Char)
  | [] => if seen then [word] else []
  | c :: rest =>
    if isBlankChar c then wordsFrom (word ++ [c]) seen seen rest
    else if resting then word :: wordsFrom [c] true false rest
    else wordsFrom (word ++ [c]) true false rest

/-- The words of a line with the blanks after them; blanks at the start belong
to the first. -/
def words (line : List Char) : List (List Char) := wordsFrom [] false false line

/-- A text without the blanks at its end. -/
def trimEnd (cs : List Char) : List Char :=
  (cs.reverse.dropWhile isBlankChar).reverse

/-- Cuts a text into parts of at most `width` cells. -/
def chop (width : Nat) (part : List Char) (used : Nat) :
    List Char → List (List Char)
  | [] => [part]
  | c :: rest =>
    if used + cellWidth c > width then part :: chop width [c] (cellWidth c) rest
    else chop width (part ++ [c]) (used + cellWidth c) rest

/-! ### Lines -/

/-- A line being broken: how much of it is done, the cells used since the last
break, and the breaks. -/
structure Breaking where
  done : Nat := 0
  used : Nat := 0
  breaks : List Nat := []
  deriving DecidableEq, Repr, Inhabited

namespace Breaking

/-- A break at a place, unless the line starts there. -/
def breakAt (b : Breaking) (place : Nat) : Breaking :=
  if place == 0 then b else { b with breaks := b.breaks ++ [place] }

/-- Takes in the parts of a word that fits on no line. -/
def addParts (b : Breaking) (parts : List (List Char)) : Breaking :=
  parts.foldl (fun b part =>
    let b := b.breakAt b.done
    { b with done := b.done + part.length, used := cellLength part }) b

/-- Takes in a word. -/
def addWord (width : Nat) (b : Breaking) (word : List Char) : Breaking :=
  let size := cellLength (trimEnd word)
  let after := b.done + word.length
  if b.used + size ≤ width then
    { b with done := after, used := b.used + cellLength word }
  else if width < size then b.addParts (chop width [] 0 word)
  else if b.used ≠ 0 && b.done ≠ 0 then
    { b.breakAt b.done with done := after, used := cellLength word }
  else { b with done := after }

end Breaking

/-- Where a line is broken. -/
def breaks (width : Nat) (line : List Char) : List Nat :=
  ((words line).foldl (Breaking.addWord width) {}).breaks

/-- Cuts a list at ascending places, counted from `start`. -/
def cutAt (start : Nat) : List Nat → List α → List (List α)
  | [], xs => [xs]
  | place :: more, xs =>
    xs.take (place - start) :: cutAt place more (xs.drop (place - start))

/-- Drops blanks at the end as far as the line is longer than the width. -/
def dropExcess (width : Nat) (line : List Mark) : List Mark :=
  let blanks := (line.reverse.takeWhile fun m => isBlankChar m.char).length
  line.take (line.length - min blanks (line.length - width))

/-- Cuts a line to a width. A character that would lie half outside becomes a
blank. -/
def crop (width : Nat) : List Mark → List Mark
  | [] => []
  | m :: rest =>
    let w := cellWidth m.char
    if width = 0 then []
    else if w ≤ width then m :: crop (width - w) rest
    else [{ m with char := ' ' }]

/-- Cuts a line that takes more cells than the width has. -/
def cropIfWider (width : Nat) (line : List Mark) : List Mark :=
  if cellLength (line.map (·.char)) > width then crop width line else line

/-- The lines that a line is wrapped to. -/
def wrap (width : Nat) (line : List Mark) : List (List Mark) :=
  (cutAt 0 (breaks width (line.map (·.char))) line).map fun l =>
    cropIfWider width (dropExcess width l)

/-! ### Text -/

/-- How far tabs go. -/
def tabSize : Nat := 8

/-- Puts blanks for the tabs of a line. A tab ends the piece it is in, so that
the pieces after it count on by the number of tabs passed. -/
def expandTabs (column tabs : Nat) : List Mark → List Mark
  | [] => []
  | m :: rest =>
    let m := { m with piece := m.piece + tabs }
    if m.char == '\t' then
      let gap := tabSize - column % tabSize
      List.replicate gap { m with char := ' ' } ++ expandTabs (column + gap)
        (tabs + 1) rest
    else m :: expandTabs (column + cellWidth m.char) tabs rest

/-- Characters that would move the cursor. -/
def isControl (c : Char) : Bool :=
  ['\x07', '\x08', '\x0b', '\x0c', '\x0d'].contains c

/-- The characters of pieces, numbered from `first`. -/
def marksFrom (first : Nat) : List Piece → List Mark
  | [] => []
  | p :: rest =>
    (p.text.toList.filter fun c => !isControl c).map
      (fun c => ⟨c, first, p.style⟩) ++ marksFrom (first + 1) rest

/-- The pieces that the characters of a line form. -/
def pieces (line : List Mark) : List Piece :=
  (line.splitBy fun a b => a.piece == b.piece).map fun run =>
    ⟨(run.head?.map (·.style)).getD .plain, String.ofList (run.map (·.char))⟩

/-- The lines that pieces are printed on. -/
def lines (width : Nat) (text : List Piece) : List (List Piece) :=
  let ls := (marksFrom 0 text).splitOnP fun m => m.char == '\n'
  (ls.flatMap fun l => wrap width (expandTabs 0 0 l)).map pieces

/-- A line as it is sent to the terminal. -/
def render (coloured : Bool) (line : List Piece) : String :=
  String.join (line.map fun p => if coloured then p.style.paint p.text
    else p.text)

end Layout

end RenderLoop
