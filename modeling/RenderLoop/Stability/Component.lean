import RenderLoop.Expr.Call
import RenderLoop.Expr.Function

/-!
# Components

A component is a function known by a capitalised name: declared under it, or
bound to it directly or through `memo` and `forwardRef`.
-/

namespace RenderLoop

/-- The extent of a component in its source. -/
structure Component where
  name : String
  start : Nat
  stop : Nat
  startLine : Nat
  endLine : Nat
  deriving DecidableEq, Repr, Inhabited

namespace Component

/-- A node lies within the component, ends included. -/
def contains (c : Component) (n : Node) : Bool :=
  c.start ≤ n.start && n.stop ≤ c.stop

/-- The wrappers between a component's function and the variable it is bound
to. -/
def isTransparent : Kind → Bool
  | .parenthesized | .asExpression | .satisfiesExpression | .nonNull => true
  | _ => false

/-- The nearest ancestor of a function literal that is neither a wrapper nor a
component factory. -/
def holder? (fn : Node) : Option Node :=
  match fn.parentBeyond? isTransparent with
  | some p =>
    if p.kind == .arguments then
      match p.parent? with
      | some call =>
        if call.isCallOf ["memo", "forwardRef"] then
          call.parentBeyond? isTransparent else some p
      | none => some p
    else some p
  | none => none

/-- The name under which a function would be a component. -/
def nameOf? (fn : Node) : Option String :=
  if fn.kind.isFunctionDeclaration then (fn.child? .name).map (·.text)
  else if fn.kind.isFunctionLiteral then
    match holder? fn with
    | some p => if p.kind == .declarator then p.declaredName? else none
    | none => none
  else none

/-- The component a function is, if it is one. -/
def ofFunction? (fn : Node) : Option Component :=
  match nameOf? fn with
  | some name =>
    if isPascalCase name then some ⟨name, fn.start, fn.stop, fn.line,
      fn.label.endLine⟩ else none
  | none => none

end Component

/-- The components below a node, in preorder. -/
def Node.components (root : Node) : List Component :=
  (root.walk.filter (·.isFunction)).filterMap Component.ofFunction?

/-- The functions around a node, nearest first. -/
def Node.enclosingFunctions (n : Node) : List Node :=
  n.ancestors.filter (·.isFunction)

end RenderLoop
