import RenderLoop.Expr.Bare

/-!
# Element tags

The name of an element tag and its attributes. An attribute's value is the
expression between the braces, the quoted string as written, or nothing for a
bare attribute.
-/

namespace RenderLoop

namespace Node

def jsxName (n : Node) : String := n.childText .name

/-- The name and value of one attribute. -/
def jsxAttribute? (n : Node) : Option (String × Option Node) :=
  if n.kind != .jsxAttribute then none
  else
    match n.parts with
    | [] => none
    | [name] => some (name.text, none)
    | name :: value :: _ =>
      some (name.text, if value.kind == .jsxExpression then
        value.parts.head?.map bare else some value)

/-- The attributes of a tag, in order. -/
def jsxAttributes (n : Node) : List (String × Option Node) :=
  n.namedChildren.filterMap jsxAttribute?

end Node

end RenderLoop
