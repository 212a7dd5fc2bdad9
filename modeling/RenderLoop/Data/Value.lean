import RenderLoop.Number.Decimal
import RenderLoop.Data.Table
import RenderLoop.Data.Moment

/-!
# Data values

`Value` is the common form of what settings files, package descriptions and
reports hold. Tables keep their order. Numbers written with a fraction or an
exponent are doubles, all others integers.
-/

namespace RenderLoop

/-- A value of a data document. -/
inductive Value where
  | null
  | bool (b : Bool)
  | int (i : Int)
  | float (d : Double)
  | text (s : String)
  | list (items : List Value)
  | table (entries : List (String × Value))
  | moment (m : Moment)
  deriving Inhabited

namespace Value

def ofOption (f : α → Value) : Option α → Value
  | none => null
  | some a => f a

def ofTexts (ss : List String) : Value := list (ss.map text)

def ofNat (n : Nat) : Value := int n

/-- The value under a name of a table; nothing for anything that is not a
table. -/
def get? : Value → String → Option Value
  | table entries, name => Table.get? entries name
  | _, _ => none

def asText? : Value → Option String
  | text s => some s
  | _ => none

def asBool? : Value → Option Bool
  | bool b => some b
  | _ => none

def asInt? : Value → Option Int
  | int i => some i
  | _ => none

def asList? : Value → Option (List Value)
  | list items => some items
  | _ => none

def asTable? : Value → Option (Table Value)
  | table entries => some entries
  | _ => none

/-- Whether a value counts as present: neither null, false, zero nor empty. -/
def isTruthy : Value → Bool
  | null => false
  | bool b => b
  | int i => i != 0
  | float d => !d.isZero
  | text s => s != ""
  | list items => !items.isEmpty
  | table entries => !entries.isEmpty
  | moment _ => true

/-- The numeric reading under which truth values count as zero and one. -/
def number? : Value → Option Double
  | bool b => some (Double.ofInt (if b then 1 else 0))
  | int i => some (Double.ofInt i)
  | float d => some d
  | _ => none

/-- The exact integer reading, under which truth values count as zero and
one. -/
def integer? : Value → Option Int
  | bool b => some (if b then 1 else 0)
  | int i => some i
  | _ => none

mutual

/-- Equality of values: numbers agree across their spellings, and the order of
a table does not matter. -/
def agrees : Value → Value → Bool
  | null, null => true
  | text a, text b => a == b
  | moment a, moment b => a == b
  | list as, list bs => agreesList as bs
  | table as, table bs => as.length == bs.length && agreesEntries as bs
  | a, b =>
    match a.integer?, b.integer? with
    | some i, some j => i == j
    | _, _ =>
      match a.number?, b.number? with
      | some x, some y => x.agrees y
      | _, _ => false

def agreesList : List Value → List Value → Bool
  | [], [] => true
  | a :: as, b :: bs => a.agrees b && agreesList as bs
  | _, _ => false

/-- Every entry of the first table has an agreeing entry in the second. -/
def agreesEntries : List (String × Value) → List (String × Value) → Bool
  | [], _ => true
  | (k, v) :: rest, bs =>
    (match Table.get? bs k with
      | some w => v.agrees w
      | none => false) && agreesEntries rest bs

end

end Value

end RenderLoop
