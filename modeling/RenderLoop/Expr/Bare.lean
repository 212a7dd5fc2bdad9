import RenderLoop.Tree.Walk

/-!
# Expressions without their wrappers

Parentheses and type annotations around an expression do not change its value.
`Node.bare` strips them. In `<T>e` the expression is the last part of the
wrapper, in every other wrapper the first; a wrapper without parts stays as it
is.
-/

namespace RenderLoop

namespace Tree

/-- A phrase that is not a comment. -/
def isPart (t : Tree) : Bool := t.label.named && t.label.kind != .comment

mutual

/-- The node inside the wrappers of a tree. -/
def bare (above : List Tree) : Tree → Node
  | node l cs =>
    if l.kind.isWrapper then
      (if l.kind = .typeAssertion then lastBare? (node l cs :: above) cs
        else firstBare? (node l cs :: above) cs).getD ⟨node l cs, above⟩
    else ⟨node l cs, above⟩

/-- The first part among siblings, without its wrappers. -/
def firstBare? (above : List Tree) : List Tree → Option Node
  | [] => none
  | t :: ts => if t.isPart then some (t.bare above) else firstBare? above ts

/-- The last part among siblings, without its wrappers. -/
def lastBare? (above : List Tree) : List Tree → Option Node
  | [] => none
  | t :: ts =>
    match lastBare? above ts with
    | some n => some n
    | none => if t.isPart then some (t.bare above) else none

end

mutual

/-- Taking wrappers off makes nothing larger. -/
theorem size_bare_le (above : List Tree) :
    ∀ t : Tree, (t.bare above).size ≤ t.size
  | node l cs => by
    rw [bare]
    split
    · split
      · cases h : lastBare? (node l cs :: above) cs with
        | none => exact Nat.le_refl _
        | some n =>
          have := size_lastBare?_le (node l cs :: above) cs n h
          simp only [Option.getD_some, size]
          omega
      · cases h : firstBare? (node l cs :: above) cs with
        | none => exact Nat.le_refl _
        | some n =>
          have := size_firstBare?_le (node l cs :: above) cs n h
          simp only [Option.getD_some, size]
          omega
    · exact Nat.le_refl _

theorem size_firstBare?_le (above : List Tree) :
    ∀ (ts : List Tree) (n : Node), firstBare? above ts = some n →
      n.size ≤ sizeList ts
  | [], n, h => by simp [firstBare?] at h
  | t :: ts, n, h => by
    rw [firstBare?] at h
    simp only [sizeList]
    split at h
    · have := size_bare_le above t
      cases h
      omega
    · have := size_firstBare?_le above ts n h
      omega

theorem size_lastBare?_le (above : List Tree) :
    ∀ (ts : List Tree) (n : Node), lastBare? above ts = some n →
      n.size ≤ sizeList ts
  | [], n, h => by simp [lastBare?] at h
  | t :: ts, n, h => by
    rw [lastBare?] at h
    simp only [sizeList]
    split at h
    · next m hm =>
      have := size_lastBare?_le above ts m hm
      cases h
      omega
    · split at h
      · have := size_bare_le above t
        cases h
        omega
      · cases h

end

end Tree

namespace Node

/-- The expression inside its wrappers. -/
def bare (n : Node) : Node := n.tree.bare n.above

theorem size_bare_le (n : Node) : n.bare.size ≤ n.size :=
  n.tree.size_bare_le n.above

/-- Recursion through wrappers ends. -/
theorem size_lt_of_bare_child? {n c : Node} {f : Field}
    (h : n.bare.child? f = some c) :
    c.size < n.size :=
  Nat.lt_of_lt_of_le (size_lt_of_child? h) n.size_bare_le

/-- The child with the given role, without its wrappers. -/
def bareChild? (n : Node) (f : Field) : Option Node := (n.child? f).map bare

end Node

end RenderLoop
