import RenderLoop.Data.Value
import RenderLoop.Text.Chars

/-!
# Reading JSON

`Json.read` reads one document and nothing behind it but blanks. Integers have
at most `Json.maxDigits` digits, a name that occurs twice in an object keeps
its first place and its last value, control characters must be escaped in
strings, and the three number words `NaN`, `Infinity` and `-Infinity` are read
as doubles.

A document fails in one of two ways. It may be malformed, or more lists and
tables may be open in it at once than the reader keeps track of; a reader
comes to the first of these on its way through the text and stops there. How
many lists and tables may be open is up to the caller. `Json.parse?` sets no
bound.

Each step of the reader uses up a character, so the length of the text bounds
the number of steps; no document runs out of them.
-/

namespace RenderLoop

/-- Why a document is not read. -/
inductive JsonFault where
  | malformed
  /-- Too many lists and tables are open at once. -/
  | tooDeep
  deriving DecidableEq, Repr, Inhabited

namespace Json

def isBlank (c : Char) : Bool := c == ' ' || c == '\t' || c == '\n' || c == '\r'

def skipBlanks (cs : List Char) : List Char := cs.dropWhile isBlank

/-- The value of a hexadecimal digit. -/
def hexDigit? (c : Char) : Option Nat :=
  if c.isDigit then some (c.toNat - '0'.toNat)
  else if 'a' ≤ c ∧ c ≤ 'f' then some (c.toNat - 'a'.toNat + 10)
  else if 'A' ≤ c ∧ c ≤ 'F' then some (c.toNat - 'A'.toNat + 10)
  else none

/-- The value of hexadecimal digits, most significant first. -/
def hexValue? (cs : List Char) : Option Nat :=
  cs.foldl (fun acc c => do return 16 * (← acc) + (← hexDigit? c)) (some 0)

def isHighSurrogate (u : Nat) : Bool := 0xD800 ≤ u && u < 0xDC00

def isLowSurrogate (u : Nat) : Bool := 0xDC00 ≤ u && u < 0xE000

/-- The character with a code point. Half of a surrogate pair is none, and has
a character that stands for it. -/
def charOf (u : Nat) : Char :=
  if 0xD800 ≤ u ∧ u < 0xE000 then halfOf u else Char.ofNat u

/-- The character a single-letter escape stands for. -/
def escaped? : Char → Option Char
  | '"' => some '"'
  | '\\' => some '\\'
  | '/' => some '/'
  | 'b' => some '\x08'
  | 'f' => some '\x0c'
  | 'n' => some '\n'
  | 'r' => some '\r'
  | 't' => some '\t'
  | _ => none

/-- Reads a string whose opening quote is already behind; `done` holds its
characters in reverse. -/
def string? (done : List Char) : List Char → Option (String × List Char)
  | [] => none
  | '"' :: rest => some (String.ofList done.reverse, rest)
  | '\\' :: 'u' :: a :: b :: c :: d :: '\\' :: 'u' :: e :: f :: g ::
      h :: rest =>
    match hexValue? [a, b, c, d], hexValue? [e, f, g, h] with
    | some hi, some lo =>
      if isHighSurrogate hi && isLowSurrogate lo then
        string? (Char.ofNat (0x10000 + (hi - 0xD800) * 0x400 + (lo - 0xDC00)) ::
          done) rest
      else string? (charOf hi :: done) ('\\' :: 'u' :: e :: f :: g :: h :: rest)
    | some hi, none =>
      string? (charOf hi :: done) ('\\' :: 'u' :: e :: f :: g :: h :: rest)
    | none, _ => none
  | '\\' :: 'u' :: a :: b :: c :: d :: rest =>
    match hexValue? [a, b, c, d] with
    | some u => string? (charOf u :: done) rest
    | none => none
  | '\\' :: c :: rest =>
    match escaped? c with
    | some x => string? (x :: done) rest
    | none => none
  | c :: rest =>
    if c.toNat < 0x20 || c == '\\' then none else string? (c :: done) rest

/-- The digits an integer part may consist of: a single zero, or a run that
starts otherwise. -/
def wholeDigits (cs : List Char) : List Char :=
  match cs with
  | '0' :: _ => ['0']
  | _ => cs.takeWhile Char.isDigit

/-- The fraction at the front of a text, its point included, empty if there is
none. -/
def fractionPart (cs : List Char) : List Char :=
  match cs with
  | '.' :: r =>
    let ds := r.takeWhile Char.isDigit
    if ds.isEmpty then [] else '.' :: ds
  | _ => []

/-- The exponent at the front of a text, its letter included, empty if there
is none. -/
def exponentPart (cs : List Char) : List Char :=
  match cs with
  | c :: r =>
    if c == 'e' || c == 'E' then
      let (sign, r) :=
        match r with
        | '-' :: q => (['-'], q)
        | '+' :: q => (['+'], q)
        | q => ([], q)
      let ds := r.takeWhile Char.isDigit
      if ds.isEmpty then [] else c :: sign ++ ds
    else []
  | [] => []

/-- How many digits an integer may have. -/
def maxDigits : Nat := 4300

/-- Reads a number without its sign. -/
def number? (negative : Bool) (cs : List Char) : Option (Value × List Char) :=
  let whole := wholeDigits cs
  if whole.isEmpty then none
  else
    let rest := cs.drop whole.length
    let fraction := fractionPart rest
    let rest := rest.drop fraction.length
    let exponent := exponentPart rest
    let rest := rest.drop exponent.length
    if fraction.isEmpty && exponent.isEmpty then
      let n : Int := Decimal.natOf whole
      if maxDigits < whole.length then none
      else some (.int (if negative then -n else n), rest)
    else
      (Decimal.read? (whole ++ fraction ++ exponent)).map fun d =>
        (.float (d.toDouble negative), rest)

/-- What could not be read is malformed. -/
def orMalformed (x : Option α) : Except JsonFault α :=
  match x with
  | some a => .ok a
  | none => .error .malformed

mutual

/-- Reads a value that starts at the front of the text, in at most so many
steps; `depth` lists and tables may be opened inside one another. -/
def value : (steps depth : Nat) → List Char →
    Except JsonFault (Value × List Char)
  | 0, _, _ => .error .malformed
  | steps + 1, depth, cs =>
    match cs with
    | '"' :: r => orMalformed ((string? [] r).map fun (s, r) => (.text s, r))
    | '[' :: r =>
      match depth with
      | 0 => .error .tooDeep
      | depth + 1 =>
        match skipBlanks r with
        | ']' :: r => .ok (.list [], r)
        | r => items steps depth [] r
    | '{' :: r =>
      match depth with
      | 0 => .error .tooDeep
      | depth + 1 =>
        match skipBlanks r with
        | '}' :: r => .ok (.table [], r)
        | r => members steps depth [] r
    | 't' :: 'r' :: 'u' :: 'e' :: r => .ok (.bool true, r)
    | 'f' :: 'a' :: 'l' :: 's' :: 'e' :: r => .ok (.bool false, r)
    | 'n' :: 'u' :: 'l' :: 'l' :: r => .ok (.null, r)
    | 'N' :: 'a' :: 'N' :: r => .ok (.float .nan, r)
    | 'I' :: 'n' :: 'f' :: 'i' :: 'n' :: 'i' :: 't' :: 'y' :: r =>
      .ok (.float (.infinite false), r)
    | '-' :: 'I' :: 'n' :: 'f' :: 'i' :: 'n' :: 'i' :: 't' :: 'y' :: r =>
      .ok (.float (.infinite true), r)
    | '-' :: r => orMalformed (number? true r)
    | r => orMalformed (number? false r)

/-- Reads the items of a list up to its closing bracket; `done` holds the
earlier ones in reverse. -/
def items : (steps depth : Nat) → List Value → List Char →
    Except JsonFault (Value × List Char)
  | 0, _, _, _ => .error .malformed
  | steps + 1, depth, done, cs => do
    let (v, r) ← value steps depth cs
    match skipBlanks r with
    | ',' :: r => items steps depth (v :: done) (skipBlanks r)
    | ']' :: r => .ok (.list (v :: done).reverse, r)
    | _ => .error .malformed

/-- Reads the members of an object up to its closing brace; `done` holds the
earlier ones in reverse. -/
def members : (steps depth : Nat) → List (String × Value) → List Char →
    Except JsonFault (Value × List Char)
  | 0, _, _, _ => .error .malformed
  | steps + 1, depth, done, cs =>
    match cs with
    | '"' :: r => do
      let (name, r) ← orMalformed (string? [] r)
      match skipBlanks r with
      | ':' :: r => do
        let (v, r) ← value steps depth (skipBlanks r)
        match skipBlanks r with
        | ',' :: r => members steps depth ((name, v) :: done) (skipBlanks r)
        | '}' :: r =>
          .ok (.table (Table.ofEntries ((name, v) :: done).reverse), r)
        | _ => .error .malformed
      | _ => .error .malformed
    | _ => .error .malformed

end

/-- Reads a whole document in which at most `depth` lists and tables are open at
once. -/
def read (depth : Nat) (cs : List Char) : Except JsonFault Value :=
  match value (cs.length + 1) depth (skipBlanks cs) with
  | .ok (v, rest) =>
    if (skipBlanks rest).isEmpty then .ok v else .error .malformed
  | .error e => .error e

/-- Reads a whole document, however deep it goes: no more lists and tables
are open than there are characters. -/
def parse? (cs : List Char) : Option Value := (read cs.length cs).toOption

end Json

end RenderLoop
