import RenderLoop.Expr.Binding

/-!
# Functions

The parts of a function: its body, its parameter patterns and the name it is
known by, which is its own or that of the variable it is bound to.
`isPascalCase` is the spelling that marks a component.
-/

namespace RenderLoop

/-- Letters, digits, `_` and `$`. -/
def isNameChar (c : Char) : Bool := c.isAlphanum || c == '_' || c == '$'

/-- A capital followed by name characters; a line break at the very end is let
pass. -/
def isPascalCase (name : String) : Bool :=
  match name.toList with
  | [] => false
  | c :: rest =>
    let tail := if rest.getLast? == some '\n' then rest.dropLast else rest
    c.isUpper && tail.all isNameChar

namespace Node

def functionBody? (n : Node) : Option Node := n.child? .body

/-- The parameter patterns, without the type-level wrappers around them. -/
def functionParams (n : Node) : List Node :=
  match n.child? .parameter with
  | some p => [p]
  | none =>
    match n.child? .parameters with
    | none => []
    | some ps =>
      ps.parts.filterMap fun p =>
        if p.kind.isParameter then p.child? .pattern else some p

/-- The name of a declarator that binds a plain identifier. -/
def declaredName? (n : Node) : Option String :=
  match n.child? .name with
  | some target => if target.kind == .identifier then some target.text else none
  | none => none

/-- The name a function is known by. A method is not known by its property
name. -/
def functionName? (n : Node) : Option String :=
  match n.child? .name with
  | some name =>
    if n.kind != .methodDefinition then some name.text else boundTo?
  | none => boundTo?
where
  /-- The variable whose declarator holds the function. -/
  boundTo? : Option String :=
    match n.parentBeyond? Kind.isWrapper with
    | some p => if p.kind == .declarator then p.declaredName? else none
    | none => none

end Node

end RenderLoop
