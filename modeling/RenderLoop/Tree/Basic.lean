import RenderLoop.Tree.Kind

/-!
# Parse trees and nodes

A `Tree` is a labelled rose tree. The analysis moves around in it in both
directions, so what it passes about is a `Node`: a tree together with the
trees above it, nearest first. A parent is then the head of a list, the
ancestors are the list itself, and every step down extends it.

Two nodes are the same node of a source when their `Key`s agree: the byte
range and the kind.

Main statements: a child is strictly smaller than its parent
(`Node.size_lt_of_mem_children`), which is what the recursions that follow
fields of a node end by.
-/

namespace RenderLoop

/-- What a parse tree records about one node. Offsets count bytes of the
source from zero, lines count from one, and a column counts the bytes since
the line began. -/
structure Label where
  kind : Kind
  /-- Named nodes are phrases, the others are the tokens between them. -/
  named : Bool
  /-- A node the parser had to invent. -/
  missing : Bool := false
  /-- The role in the parent. -/
  field : Option Field := none
  start : Nat
  stop : Nat
  /-- The source between `start` and `stop`. -/
  text : String
  line : Nat
  column : Nat
  endLine : Nat
  deriving DecidableEq, Repr, Inhabited

/-- A parse tree. -/
inductive Tree where
  | node (label : Label) (children : List Tree)
  deriving Inhabited

namespace Tree

def label : Tree → Label
  | node l _ => l

def children : Tree → List Tree
  | node _ cs => cs

mutual

/-- The number of nodes in a tree. -/
def size : Tree → Nat
  | node _ cs => 1 + sizeList cs

/-- The number of nodes in a list of trees. -/
def sizeList : List Tree → Nat
  | [] => 0
  | t :: ts => t.size + sizeList ts

end

theorem size_pos (t : Tree) : 0 < t.size := by
  cases t with
  | node l cs => simp only [size]; omega

/-- A tree is no larger than the siblings it is among. -/
theorem size_le_sizeList {t : Tree} {ts : List Tree} (h : t ∈ ts) :
    t.size ≤ sizeList ts := by
  induction ts with
  | nil => cases h
  | cons u us ih =>
    simp only [sizeList]
    rcases List.mem_cons.1 h with rfl | h
    · omega
    · have := ih h
      omega

/-- A child is smaller than its parent. -/
theorem size_lt_of_mem_children {t u : Tree} (h : u ∈ t.children) :
    u.size < t.size := by
  cases t with
  | node l cs =>
    have := size_le_sizeList h
    simp only [size]
    simp only [children] at this
    omega

end Tree

/-- What identifies a node within one source. -/
structure Key where
  start : Nat
  stop : Nat
  kind : Kind
  deriving DecidableEq, Repr, Inhabited

/-- A tree in its place: the tree itself and the trees above it, nearest
first. -/
structure Node where
  tree : Tree
  above : List Tree := []
  deriving Inhabited

namespace Node

/-- The node at the root of a tree. -/
def ofRoot (t : Tree) : Node := ⟨t, []⟩

def label (n : Node) : Label := n.tree.label

def kind (n : Node) : Kind := n.label.kind

def text (n : Node) : String := n.label.text

def start (n : Node) : Nat := n.label.start

def stop (n : Node) : Nat := n.label.stop

/-- The line, counted from one, on which a node starts. -/
def line (n : Node) : Nat := n.label.line

/-- The bytes between the start of the line and the start of the node. -/
def column (n : Node) : Nat := n.label.column

def isNamed (n : Node) : Bool := n.label.named

def key (n : Node) : Key := ⟨n.start, n.stop, n.kind⟩

def size (n : Node) : Nat := n.tree.size

/-- `inner` lies within the bytes of `outer`, ends included. -/
def encloses (outer inner : Node) : Bool :=
  outer.start ≤ inner.start && inner.stop ≤ outer.stop

/-- A child tree of `n` seen from below `n`. -/
def below (n : Node) (t : Tree) : Node := ⟨t, n.tree :: n.above⟩

def children (n : Node) : List Node := n.tree.children.map n.below

def namedChildren (n : Node) : List Node := n.children.filter (·.isNamed)

/-- The named children that are not comments. -/
def parts (n : Node) : List Node := n.namedChildren.filter (·.kind != .comment)

/-- The first child with the given role. -/
def child? (n : Node) (f : Field) : Option Node :=
  n.children.find? (·.label.field == some f)

/-- The text of the child with the given role, empty without one. -/
def childText (n : Node) (f : Field) : String := ((n.child? f).map text).getD ""

def parent? (n : Node) : Option Node :=
  match n.above with
  | [] => none
  | t :: ts => some ⟨t, ts⟩

/-- The nodes at the heads of a chain of trees, each in the place the chain
gives it. -/
def chain : List Tree → List Node
  | [] => []
  | t :: ts => ⟨t, ts⟩ :: chain ts

/-- The nodes above `n`, nearest first. -/
def ancestors (n : Node) : List Node := chain n.above

/-- The ancestors below `stop`, all of them when there is no such boundary. -/
def ancestorsBelow (n : Node) (stop : Option Key) : List Node :=
  n.ancestors.takeWhile fun a => stop != some a.key

/-- Each ancestor below `stop` paired with the node under it on the way down
to `n`. -/
def stepsBelow (n : Node) (stop : Option Key) : List (Node × Node) :=
  let up := n.ancestorsBelow stop
  (n :: up).zip up

/-- Climbs over the ancestors of the given kinds and gives the first other
one. -/
def parentBeyond? (n : Node) (skip : Kind → Bool) : Option Node :=
  n.ancestors.find? fun a => !skip a.kind

def isFunction (n : Node) : Bool := n.kind.isFunction

/-- Whether one of the children is the keyword `async`. -/
def isAsync (n : Node) : Bool := n.children.any (·.kind == .async)

/-! ### Children are smaller -/

theorem size_pos (n : Node) : 0 < n.size := n.tree.size_pos

theorem size_lt_of_mem_children {n c : Node} (h : c ∈ n.children) :
    c.size < n.size := by
  obtain ⟨t, ht, rfl⟩ := List.mem_map.1 h
  exact Tree.size_lt_of_mem_children ht

/-- Named children are children. -/
theorem mem_children_of_mem_namedChildren {n c : Node}
    (h : c ∈ n.namedChildren) : c ∈ n.children :=
  (List.mem_filter.1 h).1

theorem mem_children_of_mem_parts {n c : Node} (h : c ∈ n.parts) :
    c ∈ n.children :=
  mem_children_of_mem_namedChildren (List.mem_filter.1 h).1

/-- The child with a role is a child. -/
theorem mem_children_of_child? {n c : Node} {f : Field}
    (h : n.child? f = some c) : c ∈ n.children :=
  List.mem_of_find?_eq_some h

/-- Recursion over the parts of a node ends. -/
theorem size_lt_of_mem_parts {n c : Node} (h : c ∈ n.parts) : c.size < n.size :=
  size_lt_of_mem_children (mem_children_of_mem_parts h)

/-- So does recursion over the child with a role. -/
theorem size_lt_of_child? {n c : Node} {f : Field} (h : n.child? f = some c) :
    c.size < n.size :=
  size_lt_of_mem_children (mem_children_of_child? h)

end Node

end RenderLoop
