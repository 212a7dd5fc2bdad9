import RenderLoop.Guard.Enclosing
import RenderLoop.Source.Hook
import Mathlib.Data.List.TakeWhile

/-!
# The way down to a node

A node below another one is reached by a chain of steps from parent to child.
`Node.Descent` keeps that chain, each step with its parent, so that what
stands between the two nodes can be spoken of. The list of steps that the
guards climb is the same chain (`Descent.stepsBelow_eq`), as long as nothing
on the way passes for the upper node.

In a parse tree siblings stand one behind the other and take up some text each
(`Node.Spaced`). Then a child never lies inside another one
(`Spaced.not_encloses`), and only the parts of a conditional that need not run
count as conditions (`conditionAt?_eq_none`).

The walk of a node and the descents from it are two views of the same thing:
what a walk meets is the node itself or lies at the end of a descent. Proofs
about a scan go down with the walk, and proofs about guards go up with the
steps; `Descent.steps_eq` is where they meet.
-/

namespace RenderLoop

namespace Node

/-! ### Parents and children -/

theorem ancestors_of_mem_children {n c : Node} (h : c ∈ n.children) :
    c.ancestors = n :: n.ancestors := by
  obtain ⟨t, -, rfl⟩ := List.mem_map.1 h
  rfl

/-- A node below `top`. Each step holds a node on the way and its parent, the
nearest first; the step out of `top` itself is not listed. -/
inductive Descent (top : Node) : List (Node × Node) → Node → Prop where
  | first {c : Node} (h : c ∈ top.children) : Descent top [] c
  | next {steps : List (Node × Node)} {n c : Node} (d : Descent top steps n)
      (h : c ∈ n.children) : Descent top ((c, n) :: steps) c

namespace Descent

variable {top n : Node} {steps : List (Node × Node)}

/-- The ancestors of a node are the parents on the way down, then those of the
node at the top. -/
theorem ancestors_eq (d : Descent top steps n) :
    n.ancestors = steps.map (·.2) ++ top :: top.ancestors := by
  induction d with
  | first h => exact ancestors_of_mem_children h
  | next _ h ih =>
    rw [ancestors_of_mem_children h, ih]
    rfl

/-- Pairing every node of the way with the next parent gives the steps
back. -/
theorem zip_parents (d : Descent top steps n) :
    (n :: steps.map (·.2)).zip (steps.map (·.2)) = steps := by
  induction d with
  | first _ => rfl
  | next _ _ ih =>
    rw [List.map_cons, List.zip_cons_cons, ih]

/-- Climbing from a node to `top` goes back over the steps that led down. -/
theorem stepsBelow_eq (d : Descent top steps n)
    (h : ∀ s ∈ steps, s.2.key ≠ top.key) :
    n.stepsBelow (some top.key) = steps := by
  have hup : n.ancestorsBelow (some top.key) = steps.map (·.2) := by
    unfold ancestorsBelow
    rw [d.ancestors_eq, List.takeWhile_append_of_pos]
    · simp
    · intro a ha
      obtain ⟨s, hs, rfl⟩ := List.mem_map.1 ha
      simpa using (h s hs).symm
  unfold stepsBelow
  rw [hup]
  exact d.zip_parents

/-- A climb to a function stops there if there is no other function on the
way. -/
theorem stepsBelow_of_not_isFunction (d : Descent top steps n)
    (htop : top.isFunction = true) (h : ∀ s ∈ steps, s.2.isFunction = false) :
    n.stepsBelow (some top.key) = steps := by
  refine d.stepsBelow_eq fun s hs hkey => ?_
  -- equal keys would be of equal kind
  have hkind : s.2.kind = top.kind := congrArg Key.kind hkey
  have hno := h s hs
  unfold isFunction at htop hno
  rw [hkind, htop] at hno
  cases hno

/-- There is only one way down. -/
theorem steps_eq {steps' : List (Node × Node)} (d : Descent top steps n)
    (d' : Descent top steps' n) :
    steps = steps' := by
  have hparents : steps.map (·.2) = steps'.map (·.2) :=
    List.append_cancel_right (d.ancestors_eq.symm.trans d'.ancestors_eq)
  rw [← d.zip_parents, ← d'.zip_parents, hparents]

/-- What is between two nodes has the lower one below it. -/
theorem mem_children_of_mem (d : Descent top steps n) {s : Node × Node}
    (hs : s ∈ steps) :
    s.1 ∈ s.2.children := by
  induction d with
  | first _ => cases hs
  | next _ h ih =>
    rcases List.mem_cons.1 hs with rfl | hs
    · exact h
    · exact ih hs

end Descent

/-! ### Walks -/

theorem mem_walkList {m : Node} {above : List Tree} {ts : List Tree} :
    m ∈ Tree.walkList above ts ↔ ∃ t ∈ ts, m ∈ t.walk above := by
  induction ts with
  | nil => simp [Tree.walkList]
  | cons t ts ih => simp [Tree.walkList, ih]

/-- A walk meets the node itself, and what the walks of its children meet. -/
theorem mem_walk_iff {m n : Node} :
    m ∈ n.walk ↔ m = n ∨ ∃ c ∈ n.children, m ∈ c.walk := by
  obtain ⟨⟨l, cs⟩, above⟩ := n
  unfold walk
  rw [Tree.walk, List.mem_cons, mem_walkList]
  constructor
  · rintro (h | ⟨t, ht, hm⟩)
    · exact .inl h
    · exact .inr ⟨_, List.mem_map.2 ⟨t, ht, rfl⟩, hm⟩
  · rintro (h | ⟨c, hc, hm⟩)
    · exact .inl h
    · obtain ⟨t, ht, rfl⟩ := List.mem_map.1 hc
      exact .inr ⟨t, ht, hm⟩

theorem mem_walk_self (n : Node) : n ∈ n.walk := mem_walk_iff.2 (.inl rfl)

theorem mem_walk_of_mem_children {n c : Node} (h : c ∈ n.children) :
    c ∈ n.walk :=
  mem_walk_iff.2 (.inr ⟨c, h, mem_walk_self c⟩)

/-- A part of a part is a part. -/
theorem mem_walk_trans {l m n : Node} (hlm : l ∈ m.walk) (hmn : m ∈ n.walk) :
    l ∈ n.walk := by
  -- the induction is on the size of the upper node, which every step down makes
  -- smaller
  induction hsize : n.size using Nat.strongRecOn generalizing n with
  | ind k ih =>
    rcases mem_walk_iff.1 hmn with rfl | ⟨c, hc, hmc⟩
    · exact hlm
    · have hlt : c.size < k := hsize ▸ size_lt_of_mem_children hc
      exact mem_walk_iff.2 (.inr ⟨c, hc, ih _ hlt hmc rfl⟩)

theorem mem_walk_of_child? {n c : Node} {f : Field} (h : n.child? f = some c) :
    c ∈ n.walk :=
  mem_walk_of_mem_children (mem_children_of_child? h)

end Node

namespace Tree

mutual

/-- Taking off parentheses and casts leads to a node inside. -/
theorem bare_mem_walk (above : List Tree) :
    ∀ t : Tree, t.bare above ∈ t.walk above
  | node l cs => by
    rw [bare, walk]
    split
    · split
      · cases h : lastBare? (node l cs :: above) cs with
        | none => exact List.mem_cons_self
        | some n =>
          exact List.mem_cons_of_mem _ (lastBare?_mem_walkList _ cs n h)
      · cases h : firstBare? (node l cs :: above) cs with
        | none => exact List.mem_cons_self
        | some n =>
          exact List.mem_cons_of_mem _ (firstBare?_mem_walkList _ cs n h)
    · exact List.mem_cons_self

theorem firstBare?_mem_walkList (above : List Tree) :
    ∀ (ts : List Tree) (n : Node), firstBare? above ts = some n →
      n ∈ walkList above ts
  | [], n, h => by simp [firstBare?] at h
  | t :: ts, n, h => by
    rw [firstBare?] at h
    rw [walkList]
    split at h
    · cases h
      exact List.mem_append_left _ (bare_mem_walk above t)
    · exact List.mem_append_right _ (firstBare?_mem_walkList above ts n h)

theorem lastBare?_mem_walkList (above : List Tree) :
    ∀ (ts : List Tree) (n : Node), lastBare? above ts = some n →
      n ∈ walkList above ts
  | [], n, h => by simp [lastBare?] at h
  | t :: ts, n, h => by
    rw [lastBare?] at h
    rw [walkList]
    split at h
    · next hm =>
      cases h
      exact List.mem_append_right _ (lastBare?_mem_walkList above ts n hm)
    · split at h
      · cases h
        exact List.mem_append_left _ (bare_mem_walk above t)
      · cases h

end

end Tree

namespace Node

theorem bare_mem_walk (n : Node) : n.bare ∈ n.walk :=
  n.tree.bare_mem_walk n.above

/-- The arguments of a call are inside it. -/
theorem mem_walk_of_mem_arguments {n a : Node} (h : a ∈ n.arguments) :
    a ∈ n.walk := by
  unfold arguments at h
  split at h
  · next args hargs =>
    split at h
    · have hpart := mem_walk_of_mem_children (mem_children_of_mem_parts h)
      exact mem_walk_trans hpart (mem_walk_of_child? hargs)
    · cases h
  · cases h

theorem firstArgument?_mem_walk {n a : Node} (h : n.firstArgument? = some a) :
    a ∈ n.walk := by
  unfold firstArgument? at h
  obtain ⟨b, hb, rfl⟩ := Option.map_eq_some_iff.1 h
  exact mem_walk_trans b.bare_mem_walk
    (mem_walk_of_mem_arguments (List.mem_of_mem_head? hb))

/-- The callback of a hook call is a node of the same tree. -/
theorem callback_mem_walk {root callback : Node} {h : Hook}
    (hh : h ∈ root.hooks) (hc : h.callback? = some callback) :
    callback ∈ root.walk := by
  obtain ⟨n, hn, hof⟩ := List.mem_filterMap.1 hh
  have hcall : h.call = n := by
    unfold Hook.ofNode? at hof
    split at hof
    · obtain ⟨k, -, rfl⟩ := Option.map_eq_some_iff.1 hof
      rfl
    · cases hof
  subst hcall
  exact mem_walk_trans (firstArgument?_mem_walk hc) hn

/-- The way down to a node never leaves the node at the top. -/
theorem Descent.parent_mem_walk {top n : Node} {steps : List (Node × Node)}
    (d : Descent top steps n) : n ∈ top.walk ∧ ∀ s ∈ steps, s.2 ∈ top.walk := by
  induction d with
  | first h =>
    exact ⟨mem_walk_of_mem_children h, fun s hs => absurd hs List.not_mem_nil⟩
  | next _ h ih =>
    refine ⟨mem_walk_trans (mem_walk_of_mem_children h) ih.1, fun s hs => ?_⟩
    rcases List.mem_cons.1 hs with rfl | hs
    · exact ih.1
    · exact ih.2 s hs

/-! ### Siblings apart -/

/-- The children of a node take up some text each and stand one behind the
other. -/
structure Spaced (n : Node) : Prop where
  solid : ∀ c ∈ n.children, c.start < c.stop
  apart : n.children.Pairwise fun a b => a.stop ≤ b.start

/-- All nodes of a parse tree are spaced. -/
def WellSpaced (root : Node) : Prop := ∀ n ∈ root.walk, n.Spaced

/-- Of two children that stand one behind the other neither lies inside the
other one. -/
theorem Spaced.not_encloses {n a b : Node} (h : n.Spaced) (ha : a ∈ n.children)
    (hb : b ∈ n.children) (hne : a ≠ b) : a.encloses b = false := by
  have hab : a = b ∨ a.stop ≤ b.start ∨ b.stop ≤ a.start :=
    List.Pairwise.forall_of_forall_of_flip
      (R := fun x y => x = y ∨ x.stop ≤ y.start ∨ y.stop ≤ x.start)
        (fun _ _ => .inl rfl)
      (h.apart.imp fun hxy => .inr (.inl hxy))
        (h.apart.imp fun hxy => .inr (.inr hxy)) ha hb
  have hab := hab.resolve_left hne
  have hsolid := h.solid b hb
  unfold encloses
  simp only [Bool.and_eq_false_iff, decide_eq_false_iff_not]
  omega

theorem encloses_self (n : Node) : n.encloses n = true := by simp [encloses]

theorem field_of_child? {n c : Node} {f : Field} (h : n.child? f = some c) :
    c.label.field = some f := by
  simpa using List.find?_some h

end Node

namespace Guard

/-- A part that need not run when its parent does: a branch of an `if`, an arm
of a ternary, the right operand of a short circuit, anything in a `case` or a
`catch`. -/
def IsBranch (child parent : Node) : Prop :=
  match parent.kind with
  | .ifStatement | .ternary => parent.child? .condition ≠ some child
  | .binary =>
    isShortCircuit parent.operator = true ∧ child.label.field = some .right
  | .switchCase | .catchClause => True
  | _ => False

/-- Of two children with different roles neither holds the other. -/
theorem not_any_encloses {child parent : Node} {f : Field}
    (hspaced : parent.Spaced) (hchild : child ∈ parent.children)
    (hf : child.label.field ≠ some f) :
    (parent.child? f).any (·.encloses child) = false := by
  cases hother : parent.child? f with
  | none => rfl
  | some other =>
    refine hspaced.not_encloses (Node.mem_children_of_child? hother) hchild
      fun he => hf ?_
    rw [← he]
    exact Node.field_of_child? hother

/-- A part that runs whenever its parent does is under no condition there. -/
theorem conditionAt?_eq_none {child parent : Node} (hspaced : parent.Spaced)
    (hchild : child ∈ parent.children) (h : ¬ IsBranch child parent) :
    conditionAt? child parent = none := by
  unfold conditionAt?
  split
  · next hkind =>
    -- the child is the condition of an `if`, so the consequence does not hold
    -- it
    have hcond : parent.child? .condition = some child := by
      simpa [IsBranch, hkind] using h
    have hrole : child.label.field ≠ some .consequence := by
      rw [Node.field_of_child? hcond]
      decide
    simp [not_any_encloses hspaced hchild hrole, hcond, Node.encloses_self]
  · next hkind =>
    have hcond : parent.child? .condition = some child := by
      simpa [IsBranch, hkind] using h
    simp [hcond, Node.encloses_self]
  · next hkind =>
    refine if_neg fun hboth => h ?_
    rw [Bool.and_eq_true] at hboth
    simp only [IsBranch, hkind]
    refine ⟨hboth.1, Classical.not_not.1 fun hrole => ?_⟩
    rw [not_any_encloses hspaced hchild hrole] at hboth
    cases hboth.2
  · next hkind => exact absurd (by simp [IsBranch, hkind]) h
  · next hkind => exact absurd (by simp [IsBranch, hkind]) h
  · rfl

/-- A block that returns before its child when a test of the state holds. -/
def ReturnsBefore (state : String) (child block : Node) : Prop :=
  block.kind = .block ∧
    ∃ s ∈ block.namedChildren, s.start < child.start ∧
      isEarlyReturn state s = true

/-- A call without a function, a branch or an early return above it has no
guard. -/
theorem inEffect?_eq_none {top call : Node} {steps : List (Node × Node)}
    (setter : String) (state : Option String) (d : top.Descent steps call)
    (htop : top.isFunction = true)
    (hspaced : ∀ s ∈ steps, s.2.Spaced)
    (hfn : ∀ s ∈ steps, s.2.isFunction = false)
    (hbranch : ∀ s ∈ steps, ¬ IsBranch s.1 s.2)
    (hreturn : ∀ name, state = some name →
      ∀ s ∈ steps, ¬ ReturnsBefore name s.1 s.2) :
    inEffect? call setter state (some top.key) = none := by
  have hsteps := d.stepsBelow_of_not_isFunction htop hfn
  have hconditions : enclosingConditions call (some top.key) = [] := by
    unfold enclosingConditions
    rw [hsteps]
    refine List.filterMap_eq_nil_iff.2 fun s hs => ?_
    exact conditionAt?_eq_none (hspaced s hs) (d.mem_children_of_mem hs)
      (hbranch s hs)
  unfold inEffect?
  split
  · rfl
  · next name =>
    have hearly : returnsEarly call (some top.key) name = false := by
      unfold returnsEarly
      rw [hsteps]
      refine List.any_eq_false.2 fun s hs hany => hreturn name rfl s hs ?_
      obtain ⟨hblock, hany⟩ := Bool.and_eq_true_iff.1 hany
      obtain ⟨st, hst, hret⟩ := List.any_eq_true.1 hany
      refine ⟨by simpa using hblock, st, List.takeWhile_subset _ hst, ?_, hret⟩
      simpa using List.mem_takeWhile_imp hst
    split
    · rfl
    · simp [hconditions, hearly, firstMatch?]

end Guard

end RenderLoop
