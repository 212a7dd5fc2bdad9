import RenderLoop.Tree.Basic

/-!
# Preorder walks

`Node.walk` lists a node and everything below it, parents before children and
siblings in order. `Node.walkShallow` does the same without looking inside
functions other than the node itself, so it lists what runs when that function
runs.
-/

namespace RenderLoop

namespace Tree

mutual

/-- The nodes of a tree in preorder, given the trees above it. -/
def walk (above : List Tree) : Tree → List Node
  | node l cs => ⟨node l cs, above⟩ :: walkList (node l cs :: above) cs

/-- The nodes of sibling trees in preorder. -/
def walkList (above : List Tree) : List Tree → List Node
  | [] => []
  | t :: ts => t.walk above ++ walkList above ts

end

mutual

/-- The nodes of a tree in preorder, nothing below a function. -/
def walkOutside (above : List Tree) : Tree → List Node
  | node l cs =>
    ⟨node l cs, above⟩ ::
      if l.kind.isFunction then [] else walkOutsideList (node l cs :: above) cs

/-- The nodes of sibling trees in preorder, nothing below a function. -/
def walkOutsideList (above : List Tree) : List Tree → List Node
  | [] => []
  | t :: ts => t.walkOutside above ++ walkOutsideList above ts

end

end Tree

namespace Node

/-- The node and all nodes below it, in preorder. -/
def walk (n : Node) : List Node := n.tree.walk n.above

/-- The node and, in preorder, the nodes below it that no nested function
hides. A nested function itself is listed. -/
def walkShallow (n : Node) : List Node :=
  n :: Tree.walkOutsideList (n.tree :: n.above) n.tree.children

/-- The texts of the identifiers inside a node, in order. -/
def identifiers (n : Node) : List String :=
  (n.walk.filter (·.kind == .identifier)).map (·.text)

end Node

end RenderLoop
