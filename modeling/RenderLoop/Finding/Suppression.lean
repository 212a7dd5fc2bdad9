import RenderLoop.Text.Regex.Basic

/-!
# Suppressed lines

A comment that opens with `rld-ignore` silences the findings of its own line,
and one that opens with `rld-ignore-next-line` those of the line below.
-/

namespace RenderLoop

namespace Suppression

/-- The opening of a comment and the blanks behind it. -/
def commentOpening : Regex :=
  .seq (.alt (.literal "//") (.literal "/*"))
    (.rep (.set false [.blank false]) 0 none)

/-- Silences the line it stands on. -/
def sameLineMarker : Regex :=
  .seq commentOpening <| .seq (.literal "rld-ignore") <|
    .seq (.ahead true (.literal "-next-line")) (.assert .wordEdge)

/-- Silences the line below. -/
def nextLineMarker : Regex :=
  .seq commentOpening <| .seq (.literal "rld-ignore-next-line")
    (.assert .wordEdge)

/-- The line with a number, counted from one. -/
def lineAt? (lines : List String) (line : Int) : Option String :=
  if 1 ≤ line then lines[(line - 1).toNat]? else none

end Suppression

open Suppression in
/-- Whether findings on a line, counted from one, are silenced. -/
def isLineIgnored (lines : List String) (line : Int) : Bool :=
  (lineAt? lines line).any sameLineMarker.search ||
    (lineAt? lines (line - 1)).any nextLineMarker.search

end RenderLoop
