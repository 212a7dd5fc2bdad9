/-!
# Double-precision numbers

A `Double` is an exact binary fraction `mantissa * 2 ^ exponent` with at most
53 bits of mantissa and an exponent of at least -1074, an infinity or not a
number. Each finite value has one representation: the mantissa has exactly 53
bits unless the exponent is the least one. So equality of doubles is equality
of representations, the sign of zero aside.

`Double.ofRatio` rounds a quotient of natural numbers to the nearest double, a
tie to the even mantissa, and `Double.ofDecimal` reads a decimal that way.
-/

namespace RenderLoop

/-- A double-precision number. -/
inductive Double where
  | finite (negative : Bool) (mantissa : Nat) (exponent : Int)
  | infinite (negative : Bool)
  | nan
  deriving DecidableEq, Repr, Inhabited

namespace Double

/-- The exponent of the smallest positive double. -/
def minExponent : Int := -1074

/-- The largest exponent of a finite double. -/
def maxExponent : Int := 971

def zero (negative : Bool) : Double := finite negative 0 minExponent

/-- `num / den` in units of `2 ^ e`, as a quotient of natural numbers. -/
def scaled (num den : Nat) (e : Int) : Nat × Nat :=
  if e < 0 then (num <<< (-e).toNat, den) else (num, den <<< e.toNat)

/-- The quotient `a / b` rounded to the nearest natural number, a tie to the
even one. -/
def divNearest (a b : Nat) : Nat :=
  let q := a / b
  let r := a % b
  if 2 * r < b then q
  else if b < 2 * r then q + 1
  else if q % 2 = 0 then q else q + 1

/-- The exponent at which `num / den` has 53 bits before the point, or the
least exponent. -/
def unitOf (num den : Nat) : Int :=
  let guess := (num.log2 : Int) - (den.log2 : Int) - 52
  let (a, b) := scaled num den guess
  let e := if a / b < 1 <<< 52 then guess - 1 else guess
  max e minExponent

/-- The double nearest to `num / den`. -/
def ofRatio (negative : Bool) (num den : Nat) : Double :=
  if num = 0 ∨ den = 0 then zero negative
  else
    let e := unitOf num den
    let (a, b) := scaled num den e
    let m := divNearest a b
    let (m, e) := if m = 1 <<< 53 then (1 <<< 52, e + 1) else (m, e)
    if maxExponent < e then infinite negative else finite negative m e

/-- How many decimal digits a number is written with. -/
def digitCount (n : Nat) : Nat := (Nat.toDigits 10 n).length

/-- The double nearest to `digits * 10 ^ exponent`. Decimals far outside the
range of doubles are told apart by their magnitude alone. -/
def ofDecimal (negative : Bool) (digits : Nat) (exponent : Int) : Double :=
  if digits = 0 then zero negative
  else
    let magnitude := (digitCount digits : Int) + exponent
    if 310 < magnitude then infinite negative
    else if magnitude < -330 then zero negative
    else if exponent < 0 then
      ofRatio negative digits (Nat.pow 10 (-exponent).toNat)
    else ofRatio negative (digits * Nat.pow 10 exponent.toNat) 1

def ofInt (i : Int) : Double := ofRatio (decide (i < 0)) i.natAbs 1

/-- Zero, of either sign. -/
def isZero : Double → Bool
  | finite _ m _ => m == 0
  | _ => false

/-- Equality as numbers: the zeros agree and a value that is not a number
differs from everything. -/
def agrees : Double → Double → Bool
  | nan, _ => false
  | _, nan => false
  | a, b => (a.isZero && b.isZero) || a == b

end Double

end RenderLoop
