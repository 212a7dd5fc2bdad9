import RenderLoop.Data.Json
import RenderLoop.Text.Chars

/-!
# JSON with comments

Configuration files of compilers are JSON with two liberties: comments, from
`//` to the end of the line or between `/*` and `*/`, and a comma behind the
last item of a list or table. Comments are taken out first, with regard to
strings; then every comma before a closing bracket is dropped, wherever it
stands. What remains is read as JSON, and anything but a table counts as an
empty one.
-/

namespace RenderLoop

namespace Jsonc

/-- Drops a comment up to the end of its line. -/
def afterLine : List Char → List Char
  | [] => []
  | c :: rest => if c == '\n' then c :: rest else afterLine rest

/-- Drops a comment up to and including its closing mark. -/
def afterBlock : List Char → List Char
  | [] => []
  | '*' :: '/' :: rest => rest
  | _ :: rest => afterBlock rest

/-- What follows a line comment is no longer than what it was taken from. -/
theorem length_afterLine_le (cs : List Char) :
    (afterLine cs).length ≤ cs.length := by
  fun_induction afterLine cs <;> simp_all
  omega

/-- And so it is for a block. -/
theorem length_afterBlock_le (cs : List Char) :
    (afterBlock cs).length ≤ cs.length := by
  fun_induction afterBlock cs <;> simp_all <;> omega

/-- The text without its comments; `inString` says whether it starts within a
string. -/
def stripFrom (inString : Bool) (cs : List Char) : List Char :=
  match inString, cs with
  | _, [] => []
  | true, '\\' :: c :: rest => '\\' :: c :: stripFrom true rest
  | true, c :: rest => c :: stripFrom (c != '"') rest
  | false, '"' :: rest => '"' :: stripFrom true rest
  | false, '/' :: '/' :: rest => stripFrom false (afterLine rest)
  | false, '/' :: '*' :: rest => stripFrom false (afterBlock rest)
  | false, c :: rest => c :: stripFrom false rest
termination_by cs.length
decreasing_by
  · simp only [List.length_cons]; omega
  · simp only [List.length_cons]; omega
  · simp only [List.length_cons]; omega
  · have := length_afterLine_le rest; simp only [List.length_cons]; omega
  · have := length_afterBlock_le rest; simp only [List.length_cons]; omega
  · simp only [List.length_cons]; omega

/-- The text without its comments. -/
def stripComments (cs : List Char) : List Char := stripFrom false cs

/-- A closing bracket comes next, behind blanks. -/
def closesNext (cs : List Char) : Bool :=
  match cs.dropWhile isBlankChar with
  | c :: _ => c == '}' || c == ']'
  | [] => false

/-- The text without the commas that stand before a closing bracket. -/
def dropTrailingCommas : List Char → List Char
  | [] => []
  | c :: rest =>
    if c == ',' && closesNext rest then dropTrailingCommas rest
    else c :: dropTrailingCommas rest

/-- The text as JSON: without its comments and the commas that should not be. -/
def plain (text : String) : List Char :=
  dropTrailingCommas (stripComments text.toList)

/-- Reads a text as JSON with comments, in which at most `depth` lists and
tables are open at once. -/
def read (depth : Nat) (text : String) : Except JsonFault (Table Value) :=
  (Json.read depth (plain text)).map fun v => v.asTable?.getD []

/-- Reads a text as JSON with comments, however deep it goes. -/
def parse? (text : String) : Option (Table Value) :=
  (Json.parse? (plain text)).map fun v => v.asTable?.getD []

end Jsonc

end RenderLoop
