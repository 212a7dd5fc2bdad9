import RenderLoop.Number.Decimal
import RenderLoop.Text.Chars

/-!
# Numbers people type

Numbers as they come from a command line: blanks around them do not count, a
sign may stand in front, and underscores may stand between digits.
-/

namespace RenderLoop

namespace NumberInput

/-- A text without the blanks around it. -/
def trim (cs : List Char) : List Char :=
  ((cs.dropWhile isBlankChar).reverse.dropWhile isBlankChar).reverse

/-- Leaves out underscores; nothing if one does not stand between two digits. -/
def joinDigits? (afterDigit : Bool) : List Char → Option (List Char)
  | [] => some []
  | '_' :: c :: rest =>
    if afterDigit && c.isDigit then (joinDigits? true rest).map (c :: ·)
    else none
  | c :: rest =>
    if c == '_' then none else (joinDigits? c.isDigit rest).map (c :: ·)

/-- The sign in front of a number, and the number. -/
def sign : List Char → Bool × List Char
  | '-' :: rest => (true, rest)
  | '+' :: rest => (false, rest)
  | cs => (false, cs)

/-- A whole number. -/
def int? (s : String) : Option Int := do
  let (negative, cs) := sign (trim s.toList)
  let digits ← joinDigits? false cs
  if digits.isEmpty || !digits.all Char.isDigit then none
  else return if negative then -(Decimal.natOf digits : Int)
    else Decimal.natOf digits

/-- A number with an optional point and exponent, an infinity, or not a
number. -/
def double? (s : String) : Option Double := do
  let (negative, cs) := sign (trim s.toList)
  match String.ofList (cs.map Char.toLower) with
  | "inf" | "infinity" => return .infinite negative
  | "nan" => return .nan
  | _ => return (← Decimal.read? (← joinDigits? false cs)).toDouble negative

end NumberInput

namespace Double

/-- A finite value in units of the smallest positive double. -/
def units? : Double → Option Int
  | finite negative m e =>
    let n : Int := (m <<< (e - minExponent).toNat : Nat)
    some (if negative then -n else n)
  | _ => none

/-- Strictly less; nothing is less or greater than what is not a number. -/
def lt : Double → Double → Bool
  | nan, _ => false
  | _, nan => false
  | infinite true, b => b != infinite true
  | infinite false, _ => false
  | _, infinite negative => !negative
  | a, b =>
    match a.units?, b.units? with
    | some x, some y => decide (x < y)
    | _, _ => false

end Double

end RenderLoop
