/-!
# Lines of text

A text is cut into lines at every line boundary a text editor may show: line
feed, carriage return, the two together, vertical tab, form feed, the
separators U+001C to U+001E, U+0085, U+2028 and U+2029. A boundary at the
very end opens no further line.
-/

namespace RenderLoop

/-- A character that ends a line. -/
def isLineBoundary (c : Char) : Bool :=
  c == '\n' || c == '\r' || c == '\x0b' || c == '\x0c' || c == '\x1c' || c ==
    '\x1d' || c == '\x1e' || c == '\x85' || c == '\u2028' || c == '\u2029'

/-- The lines of a text whose current line so far is `done`, in reverse. -/
def splitLinesFrom (done : List Char) : List Char → List String
  | [] => if done.isEmpty then [] else [String.ofList done.reverse]
  | '\r' :: '\n' :: rest => String.ofList done.reverse :: splitLinesFrom [] rest
  | c :: rest =>
    if isLineBoundary c then String.ofList done.reverse ::
      splitLinesFrom [] rest
    else splitLinesFrom (c :: done) rest

/-- The lines of a text, without their boundaries. -/
def splitLines (text : String) : List String := splitLinesFrom [] text.toList

/-- The text with every carriage return, alone or before a line feed, turned
into a line feed. -/
def unifyNewlines : List Char → List Char
  | '\r' :: '\n' :: rest => '\n' :: unifyNewlines rest
  | '\r' :: rest => '\n' :: unifyNewlines rest
  | c :: rest => c :: unifyNewlines rest
  | [] => []

end RenderLoop
