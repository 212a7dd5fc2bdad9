import RenderLoop.Expr.Bare
import RenderLoop.Number.Decimal

/-!
# Literals and accesses

What can be read off an expression without running it: whether it is a falsy
or an empty literal, which variable an access starts from, and whether two
expressions certainly have the same value.
-/

namespace RenderLoop

/-- The number a literal denotes. Underscores between digits are ignored;
other bases and big integers have no value here. -/
def numberValue? (text : String) : Option Double :=
  (Decimal.read? (text.toList.filter (· != '_'))).map (Decimal.toDouble false)

/-- The text between the quotes of a string literal. -/
def unquoted (text : String) : String :=
  match text.toList with
  | [] => ""
  | _ :: rest => String.ofList rest.dropLast

namespace Node

/-- The text between the quotes of a string literal. -/
def stringValue (n : Node) : String := unquoted n.text

/-- `false`, a zero, the empty string, `null` or `undefined`. -/
def isFalsy (n : Node) : Bool :=
  let b := n.bare
  match b.kind with
  | .false | .null | .undefined => true
  | .identifier => b.text == "undefined"
  | .number =>
    match numberValue? b.text with
    | some d => d.isZero
    | none => false
  | .string => b.stringValue == ""
  | _ => false

/-- A falsy literal, or an array or object literal without elements. -/
def isReset (n : Node) : Bool :=
  let b := n.bare
  match b.kind with
  | .array | .object => b.parts.isEmpty
  | _ => b.isFalsy

/-- The variable that an identifier or a chain of property accesses starts
from. -/
def rootName? (n : Node) : Option String :=
  if n.bare.kind.isAccess then
    match _h : n.bare.child? .object with
    | some o => o.rootName?
    | none => none
  else if n.bare.kind == .identifier then some n.bare.text
  else none
termination_by n.size
decreasing_by exact size_lt_of_bare_child? _h

/-- The property a member access names, or the one a subscript names by a
string literal. -/
def accessName? (n : Node) : Option String :=
  match n.kind with
  | .member => some (n.childText .property)
  | .subscript =>
    match n.bareChild? .index with
    | some i => if i.kind == .string then some i.stringValue else none
    | none => none
  | _ => none

/-- Literals of one kind with the same value. -/
def sameLiteral (a b : Node) : Bool :=
  a.kind == b.kind &&
    match a.kind with
    | .number =>
      match numberValue? a.text, numberValue? b.text with
      | some x, some y => x.agrees y
      | _, _ => false
    | .string => a.stringValue == b.stringValue
    | .true | .false | .null | .undefined => true
    | _ => false

/-- Certain equality of value, over identifiers, `this`, property accesses and
literals. The two spellings `a.b` and `a['b']` of an access agree. -/
def equivalent (a b : Node) : Bool :=
  match a.bare.kind, b.bare.kind with
  | .identifier, .identifier => a.bare.text == b.bare.text
  | .this, .this => true
  | .subscript, .subscript =>
    (match _h : a.bare.child? .index, b.bare.child? .index with
      | some i, some j => i.equivalent j
      | _, _ => false) &&
    (match _h : a.bare.child? .object, b.bare.child? .object with
      | some o, some p => o.equivalent p
      | _, _ => false)
  | .member, .member | .member, .subscript | .subscript, .member =>
    (match a.bare.accessName?, b.bare.accessName? with
      | some x, some y => x == y
      | _, _ => false) &&
    (match _h : a.bare.child? .object, b.bare.child? .object with
      | some o, some p => o.equivalent p
      | _, _ => false)
  | _, _ => a.bare.sameLiteral b.bare
termination_by a.size
decreasing_by
  all_goals exact size_lt_of_bare_child? _h

end Node

end RenderLoop
