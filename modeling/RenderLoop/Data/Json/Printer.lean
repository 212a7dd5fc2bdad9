import RenderLoop.Data.Value
import RenderLoop.Text.Chars

/-!
# Writing JSON

Documents are written in printable ASCII: every other character is escaped by
its UTF-16 units. `Json.render` writes on one line; `Json.renderIndented` puts
each item on a line of its own, indented by two blanks a level, and leaves
empty containers closed up.
-/

namespace RenderLoop

namespace Json

/-- A hexadecimal digit in lower case. -/
def hexChar (n : Nat) : Char := Nat.digitChar (n % 16)

/-- The escape of one UTF-16 unit. -/
def escapeUnit (u : Nat) : List Char :=
  ['\\', 'u', hexChar (u / 0x1000), hexChar (u / 0x100),
    hexChar (u / 0x10), hexChar u]

/-- A character as it stands inside a string. -/
def escapeChar (c : Char) : List Char :=
  match c with
  | '"' => ['\\', '"']
  | '\\' => ['\\', '\\']
  | '\n' => ['\\', 'n']
  | '\r' => ['\\', 'r']
  | '\t' => ['\\', 't']
  | '\x0c' => ['\\', 'f']
  | '\x08' => ['\\', 'b']
  | c =>
    let u := c.toNat
    if 0x20 ≤ u ∧ u ≤ 0x7e then [c]
    else if u < 0x10000 then escapeUnit u
    else if isHalf c then escapeUnit (0xD800 + (u - 0x10F800))
    else
      let v := u - 0x10000
      escapeUnit (0xD800 + v / 0x400) ++ escapeUnit (0xDC00 + v % 0x400)

/-- A string with its quotes. -/
def quote (s : String) : String :=
  "\"" ++ String.ofList (s.toList.flatMap escapeChar) ++ "\""

/-- A double; infinities and what is not a number are written as words. -/
def number (d : Double) : String :=
  match d with
  | .nan => "NaN"
  | .infinite negative => if negative then "-Infinity" else "Infinity"
  | d => d.text

mutual

/-- A value on one line, without blanks. -/
def render : Value → String
  | .null => "null"
  | .bool b => if b then "true" else "false"
  | .int i => toString i
  | .float d => number d
  | .text s => quote s
  | .moment m => quote m.text
  | .list items => "[" ++ ",".intercalate (renderItems items) ++ "]"
  | .table entries =>
    "\x7b" ++ ",".intercalate (renderEntries entries) ++ "\x7d"

def renderItems : List Value → List String
  | [] => []
  | v :: rest => render v :: renderItems rest

def renderEntries : List (String × Value) → List String
  | [] => []
  | (k, v) :: rest => (quote k ++ ":" ++ render v) :: renderEntries rest

end

/-- A line break followed by the blanks of a level. -/
def lineBreak (level : Nat) : String :=
  "\n" ++ String.ofList (List.replicate (2 * level) ' ')

mutual

/-- A value over several lines, its closing bracket at the given level. -/
def renderAt (level : Nat) : Value → String
  | .list items =>
    if items.isEmpty then "[]"
    else
      let sep := lineBreak (level + 1)
      "[" ++ sep ++ ("," ++ sep).intercalate
        (renderItemsAt (level + 1) items) ++ lineBreak level ++ "]"
  | .table entries =>
    if entries.isEmpty then "\x7b\x7d"
    else
      let sep := lineBreak (level + 1)
      "\x7b" ++ sep ++ ("," ++ sep).intercalate
        (renderEntriesAt (level + 1) entries) ++ lineBreak level ++ "\x7d"
  | .null => "null"
  | .bool b => if b then "true" else "false"
  | .int i => toString i
  | .float d => number d
  | .text s => quote s
  | .moment m => quote m.text

def renderItemsAt (level : Nat) : List Value → List String
  | [] => []
  | v :: rest => renderAt level v :: renderItemsAt level rest

def renderEntriesAt (level : Nat) : List (String × Value) → List String
  | [] => []
  | (k, v) :: rest =>
    (quote k ++ ": " ++ renderAt level v) :: renderEntriesAt level rest

end

/-- A document over several lines. -/
def renderIndented (v : Value) : String := renderAt 0 v

end Json

end RenderLoop
