import RenderLoop.Number.Double

/-!
# Decimal text of numbers

`Decimal.read?` reads an unsigned decimal, and `Double.text` writes a double
with the fewest digits that read back as the same double, the nearest such
decimal when there are several. Values from `0.0001` up to sixteen digits are
written positionally, all others with an exponent.
-/

namespace RenderLoop

/-- A decimal `digits * 10 ^ exponent`. -/
structure Decimal where
  digits : Nat
  exponent : Int
  deriving DecidableEq, Repr, Inhabited

namespace Decimal

/-- The value of a run of decimal digits. -/
def natOf (cs : List Char) : Nat :=
  cs.foldl (fun acc c => 10 * acc + (c.toNat - '0'.toNat)) 0

/-- A run of digits after an optional sign, with nothing behind it. -/
def readExponent? (cs : List Char) : Option Int :=
  let (negative, ds) :=
    match cs with
    | '-' :: r => (true, r)
    | '+' :: r => (false, r)
    | r => (false, r)
  if ds.isEmpty || !ds.all Char.isDigit then none
  else some (if negative then -(natOf ds : Int) else natOf ds)

/-- Reads digits with an optional point and an optional exponent. There must
be a digit before the exponent, on either side of the point. -/
def read? (cs : List Char) : Option Decimal :=
  let whole := cs.takeWhile Char.isDigit
  let rest := cs.dropWhile Char.isDigit
  let (fraction, rest) :=
    match rest with
    | '.' :: r => (r.takeWhile Char.isDigit, r.dropWhile Char.isDigit)
    | r => ([], r)
  if whole.isEmpty && fraction.isEmpty then none
  else
    let digits := natOf (whole ++ fraction)
    let shift := -(fraction.length : Int)
    match rest with
    | [] => some ⟨digits, shift⟩
    | c :: r =>
      if c == 'e' || c == 'E' then (readExponent? r).map fun e =>
        ⟨digits, e + shift⟩
      else none

/-- The double nearest to a decimal. -/
def toDouble (negative : Bool) (d : Decimal) : Double :=
  Double.ofDecimal negative d.digits d.exponent

end Decimal

namespace Double

/-- A power of ten as a quotient. -/
def powTen (e : Int) : Nat × Nat :=
  if e < 0 then (1, Nat.pow 10 (-e).toNat) else (Nat.pow 10 e.toNat, 1)

/-- The position of the first significant digit of `num / den`: the least `k`
with `num / den < 10 ^ k`, found by moving up from a lower bound. -/
def decimalPoint (num den : Nat) : Int :=
  let start := (digitCount num : Int) - (digitCount den : Int)
  let (p, q) := powTen start
  if num * q < p * den then start else start + 1

/-- Among the decimals with `n` significant digits, the one nearest to
`m * 2 ^ e` that reads back as that double. -/
def withDigits? (m : Nat) (e : Int) (n : Nat) : Option Decimal :=
  let (num, den) := if e < 0 then (m, 1 <<< (-e).toNat) else (m <<< e.toNat, 1)
  let grid := decimalPoint num den - (n : Int)
  let (p, q) := powTen grid
  let a := num * q
  let b := den * p
  let low := a / b
  let reads (d : Nat) : Bool := ofDecimal false d grid == finite false m e
  let lowFits := reads low
  let highFits := reads (low + 1)
  let r := a % b
  if lowFits && highFits then
    some ⟨if 2 * r < b ∨ (2 * r = b ∧ low % 2 = 0) then low else low + 1, grid⟩
  else if lowFits then some ⟨low, grid⟩
  else if highFits then some ⟨low + 1, grid⟩
  else none

/-- The shortest decimal that reads back as `m * 2 ^ e`. Seventeen digits
always suffice. -/
def shortest (m : Nat) (e : Int) : Decimal :=
  ((List.range 17).findSome? fun i => withDigits? m e (i + 1)).getD ⟨0, 0⟩

/-- The digits of a decimal without the zeros behind the last one, and the
position of the point relative to the first digit. -/
def significant (d : Decimal) : List Char × Int :=
  let ds := Nat.toDigits 10 d.digits
  let point := (ds.length : Int) + d.exponent
  let kept := (ds.reverse.dropWhile (· == '0')).reverse
  (if kept.isEmpty then ['0'] else kept, point)

/-- Writes an exponent with a sign and at least two digits. -/
def exponentText (e : Int) : String :=
  let ds := Nat.toDigits 10 e.natAbs
  let padded := if ds.length < 2 then '0' :: ds else ds
  String.ofList ((if e < 0 then '-' else '+') :: padded)

/-- The digits with the point put in, or with an exponent outside the
positional range. -/
def layout (ds : List Char) (point : Int) : String :=
  if point ≤ -4 ∨ 16 < point then
    let tail := ds.drop 1
    let mantissa := ds.take 1 ++ (if tail.isEmpty then [] else '.' :: tail)
    String.ofList mantissa ++ "e" ++ exponentText (point - 1)
  else if point ≤ 0 then
    "0." ++ String.ofList (List.replicate (-point).toNat '0' ++ ds)
  else
    let k := point.toNat
    if ds.length ≤ k then
      String.ofList (ds ++ List.replicate (k - ds.length) '0') ++ ".0"
    else String.ofList (ds.take k ++ '.' :: ds.drop k)

/-- The text of a double. -/
def text : Double → String
  | nan => "nan"
  | infinite negative => if negative then "-inf" else "inf"
  | finite negative m e =>
    let sign := if negative then "-" else ""
    if m = 0 then sign ++ "0.0"
    else
      let (ds, point) := significant (shortest m e)
      sign ++ layout ds point

end Double

end RenderLoop
