import RenderLoop.Expr.Bare

/-!
# Calls

A call or a construction has a callee, the name it is known by, and arguments.
The callee may be an identifier or a property of an object; `calleeName?` is
the identifier or the property alone, `calleeText` keeps the object, and
`calleeKey?` keeps it only when it is a plain identifier.
-/

namespace RenderLoop

namespace Node

/-- What is called or constructed, without wrappers. -/
def callee? (n : Node) : Option Node :=
  match n.child? .function with
  | some f => some f.bare
  | none => n.bareChild? .constructor

/-- The called identifier, or the called property. -/
def calleeName? (n : Node) : Option String :=
  match n.callee? with
  | none => none
  | some f =>
    match f.kind with
    | .identifier => some f.text
    | .member => (f.child? .property).map text
    | _ => none

/-- The callee as written, an object and its property joined by a point. -/
def calleeText (n : Node) : String :=
  match n.callee? with
  | none => ""
  | some f =>
    match f.kind with
    | .member =>
      ((f.bareChild? .object).map text).getD "" ++ "." ++ f.childText .property
    | _ => f.text

/-- The called identifier, or `object.property` where the object is an
identifier. -/
def calleeKey? (n : Node) : Option String :=
  match n.callee? with
  | none => none
  | some f =>
    match f.kind with
    | .identifier => some f.text
    | .member =>
      match f.bareChild? .object with
      | some o =>
        if o.kind == .identifier then
          some (o.text ++ "." ++ f.childText .property) else none
      | none => none
    | _ => none

/-- A call of one of `names`, plain or as a property of one of `namespaces`. -/
def isCallOfIn (n : Node) (names namespaces : List String) : Bool :=
  n.kind == .call &&
    match n.callee? with
    | none => false
    | some f =>
      match f.kind with
      | .identifier => names.contains f.text
      | .member =>
        match f.bareChild? .object with
        | some o =>
          o.kind == .identifier && namespaces.contains o.text &&
            names.contains (f.childText .property)
        | none => false
      | _ => false

/-- A call of one of `names`, plain or as `React.name`. -/
def isCallOf (n : Node) (names : List String) : Bool :=
  n.isCallOfIn names ["React"]

/-- The arguments of a call, as written. -/
def arguments (n : Node) : List Node :=
  match n.child? .arguments with
  | some args => if args.kind == .arguments then args.parts else []
  | none => []

/-- The first argument, without wrappers. -/
def firstArgument? (n : Node) : Option Node := n.arguments.head?.map bare

end Node

end RenderLoop
