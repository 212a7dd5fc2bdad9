import RenderLoop.Text.Chars
import RenderLoop.Data.Value

/-!
# Quoted values

How values are shown inside messages. Text stands in single quotes, or in
double quotes when it holds a single quote and no double one; backslashes, the
chosen quote and characters without a visible form are escaped. Truth values
and null are capitalised words.
-/

namespace RenderLoop

namespace Quoted

/-- The `width` last hexadecimal digits of a number. -/
def hexDigits : Nat → Nat → List Char
  | 0, _ => []
  | width + 1, n => hexDigits width (n / 16) ++ [Nat.digitChar (n % 16)]

/-- A character as it stands between the quotes. -/
def escapeChar (quote c : Char) : List Char :=
  if c == quote || c == '\\' then ['\\', c]
  else if c == '\n' then ['\\', 'n']
  else if c == '\r' then ['\\', 'r']
  else if c == '\t' then ['\\', 't']
  else if isPrintable c then [c]
  else
    let u := c.toNat
    if u < 0x100 then '\\' :: 'x' :: hexDigits 2 u
    else if u < 0x10000 then '\\' :: 'u' :: hexDigits 4 u
    else if isHalf c then '\\' :: 'u' :: hexDigits 4 (0xD800 + (u - 0x10F800))
    else '\\' :: 'U' :: hexDigits 8 u

/-- A text in quotes. -/
def text (s : String) : String :=
  let cs := s.toList
  let quote := if cs.contains '\'' && !cs.contains '"' then '"' else '\''
  String.ofList (quote :: cs.flatMap (escapeChar quote) ++ [quote])

mutual

/-- A value as it is shown in a message. -/
def value : Value → String
  | .null => "None"
  | .bool b => if b then "True" else "False"
  | .int i => toString i
  | .float d => d.text
  | .text s => text s
  | .moment m => m.quoted
  | .list items => "[" ++ ", ".intercalate (values items) ++ "]"
  | .table es => "\x7b" ++ ", ".intercalate (entries es) ++ "\x7d"

def values : List Value → List String
  | [] => []
  | v :: rest => value v :: values rest

def entries : List (String × Value) → List String
  | [] => []
  | (k, v) :: rest => (text k ++ ": " ++ value v) :: entries rest

end

end Quoted

end RenderLoop
