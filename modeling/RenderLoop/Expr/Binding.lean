import RenderLoop.Expr.Bare

/-!
# Bound names

A destructuring pattern binds the names at its leaves. `Node.boundNames` lists
them in source order: through pairs it follows the value, through defaults the
left side, and property keys and default values contribute nothing.
-/

namespace RenderLoop

namespace Tree

mutual

/-- The names a pattern binds. -/
def boundNames : Tree → List String
  | node l cs =>
    match l.kind with
    | .identifier | .shorthandPattern => [l.text]
    | .pairPattern => boundAt .value cs
    | .assignmentPattern | .objectAssignmentPattern => boundAt .left cs
    | .arrayPattern | .objectPattern | .restPattern => boundInParts cs
    | .requiredParameter | .optionalParameter => boundInParts cs
    | _ => []

/-- The names bound by the first child with a role. -/
def boundAt (f : Field) : List Tree → List String
  | [] => []
  | t :: ts => if t.label.field == some f then t.boundNames else boundAt f ts

/-- The names bound by the parts among siblings. -/
def boundInParts : List Tree → List String
  | [] => []
  | t :: ts => (if t.isPart then t.boundNames else []) ++ boundInParts ts

end

end Tree

namespace Node

/-- The names a pattern binds, in source order. -/
def boundNames (n : Node) : List String := n.tree.boundNames

end Node

end RenderLoop
