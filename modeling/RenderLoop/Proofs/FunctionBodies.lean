import RenderLoop.Proofs.Awaits
import RenderLoop.Stability.Component
import Mathlib.Data.List.Nodup

/-!
# Which function a node belongs to

Functions nest, and each node belongs to the nearest function around it. What
belongs to a function are the nodes that its shallow walk lists below it
(`Node.ownNodes`).

> `walk_perm`: the nodes outside all functions, and the own nodes of each
> function, are together all nodes of the tree, each as often as the walk
> lists it.

> `head?_enclosingFunctions`: the nearest function around an own node of a
> function is that function.

> `nodup_walk`: where siblings stand apart, the walk lists no node twice.

The three statements are proved by induction over trees that follows the walks
themselves, with one case for a node and one for a list of siblings. The walk
enters every child; the shallow walk stops at nested functions. Where it
stops, the nested function takes over, with own nodes of its own.

That a walk lists no node twice needs the places of nodes: equal trees at
different places are different nodes only if siblings stand apart. A parse
tree has that property, and a tree that is made by hand may not.
-/

namespace RenderLoop

namespace Node

/-- The nodes below a function that belong to no function nested in it. -/
def ownNodes (fn : Node) : List Node :=
  Tree.walkOutsideList (fn.tree :: fn.above) fn.tree.children

/-- The shallow walk of a function is the function and its own nodes. -/
theorem walkShallow_eq (fn : Node) : fn.walkShallow = fn :: fn.ownNodes := rfl

end Node

/-! ### All nodes -/

namespace Tree

/-- The own nodes of all functions among some nodes. -/
def ownNodesIn (nodes : List Node) : List Node :=
  (nodes.filter (·.isFunction)).flatMap Node.ownNodes

theorem ownNodesIn_append (ns ms : List Node) :
    ownNodesIn (ns ++ ms) = ownNodesIn ns ++ ownNodesIn ms := by
  unfold ownNodesIn
  rw [List.filter_append, List.flatMap_append]

theorem ownNodesIn_cons_of_isFunction {n : Node} (h : n.isFunction = true)
    (ns : List Node) :
    ownNodesIn (n :: ns) = n.ownNodes ++ ownNodesIn ns := by
  unfold ownNodesIn
  rw [List.filter_cons_of_pos h, List.flatMap_cons]

theorem ownNodesIn_cons_of_not {n : Node} (h : ¬ n.isFunction = true)
    (ns : List Node) :
    ownNodesIn (n :: ns) = ownNodesIn ns := by
  unfold ownNodesIn
  rw [List.filter_cons_of_neg h]

mutual

/-- Every node of a tree is outside all functions or an own node of one, and
is counted once. -/
theorem walk_perm (above : List Tree) :
    ∀ t : Tree, (t.walk above).Perm
      (t.walkOutside above ++ ownNodesIn (t.walk above))
  | node l cs => by
    have hbelow := walkList_perm (node l cs :: above) cs
    rw [walk, walkOutside]
    by_cases hfn : l.kind.isFunction = true
    · -- what stands directly below a function is its own
      have htop : Node.isFunction ⟨node l cs, above⟩ = true := hfn
      rw [if_pos hfn, ownNodesIn_cons_of_isFunction htop]
      exact hbelow.cons _
    · have htop : ¬ Node.isFunction ⟨node l cs, above⟩ = true := hfn
      rw [if_neg hfn, ownNodesIn_cons_of_not htop]
      exact hbelow.cons _

theorem walkList_perm (above : List Tree) :
    ∀ ts : List Tree, (walkList above ts).Perm (walkOutsideList above ts ++
      ownNodesIn (walkList above ts))
  | [] => .refl _
  | t :: ts => by
    rw [walkList, walkOutsideList, ownNodesIn_append]
    refine ((walk_perm above t).append (walkList_perm above ts)).trans ?_
    -- what is outside functions comes first, in all of the trees
    rw [List.append_assoc, List.append_assoc]
    exact (List.perm_append_comm_assoc ..).append_left _

end

end Tree

namespace Node

variable {root fn n : Node} {steps : List (Node × Node)}

/-- Every node is outside all functions or one of a function's own. -/
theorem mem_walk_cases (h : n ∈ root.walk) :
    n ∈ root.tree.walkOutside root.above ∨
    ∃ fn ∈ root.walk, fn.isFunction = true ∧ n ∈ fn.ownNodes := by
  rcases List.mem_append.1 ((root.tree.walk_perm root.above).mem_iff.1 h)
    with hout | hown
  · exact .inl hout
  · obtain ⟨fn, hfn, hn⟩ := List.mem_flatMap.1 hown
    obtain ⟨hmem, hfn⟩ := List.mem_filter.1 hfn
    exact .inr ⟨fn, hmem, hfn, hn⟩

/-! ### The nearest function -/

/-- No function stands between a function and its own nodes. -/
theorem exists_descent_of_mem_ownNodes (h : n ∈ fn.ownNodes) :
    ∃ steps, fn.Descent steps n ∧ ∀ s ∈ steps, s.2.isFunction = false := by
  obtain ⟨t, ht, hn⟩ := mem_walkOutsideList.1 h
  exact exists_descent_of_mem_walkOutside (List.mem_map.2 ⟨t, ht, rfl⟩) hn

/-- Where no function stands in between, the functions around a node are those
around the node at the top, and that node itself. -/
theorem Descent.enclosingFunctions_eq (d : fn.Descent steps n)
    (hfn : ∀ s ∈ steps, s.2.isFunction = false) :
    n.enclosingFunctions = (fn :: fn.ancestors).filter (·.isFunction) := by
  have hnone : (steps.map (·.2)).filter (·.isFunction) = [] := by
    refine List.filter_eq_nil_iff.2 fun a ha => ?_
    obtain ⟨s, hs, rfl⟩ := List.mem_map.1 ha
    simp [hfn s hs]
  unfold enclosingFunctions
  rw [d.ancestors_eq, List.filter_append, hnone, List.nil_append]

/-- So the nearest one is the function to which the node belongs. -/
theorem head?_enclosingFunctions (hfn : fn.isFunction = true)
    (h : n ∈ fn.ownNodes) :
    n.enclosingFunctions.head? = some fn := by
  obtain ⟨steps, d, hsteps⟩ := exists_descent_of_mem_ownNodes h
  rw [d.enclosingFunctions_eq hsteps, List.filter_cons_of_pos hfn,
    List.head?_cons]

/-- A node that no function below the root hides is in no function at all. -/
theorem enclosingFunctions_of_mem_walkOutside {tree : Tree}
    (h : n ∈ (ofRoot tree).tree.walkOutside (ofRoot tree).above) :
    n.enclosingFunctions = [] := by
  rcases mem_walkOutside_iff.1 h with rfl | ⟨htop, c, hc, hn⟩
  · rfl
  · obtain ⟨steps, d, hsteps⟩ := exists_descent_of_mem_walkOutside hc hn
    rw [d.enclosingFunctions_eq hsteps,
      List.filter_cons_of_neg (by simp [htop])]
    rfl

/-! ### No node twice -/

theorem walkList_eq_flatMap (above : List Tree) (ts : List Tree) :
    Tree.walkList above ts = ts.flatMap (·.walk above) := by
  induction ts with
  | nil => rfl
  | cons t ts ih => rw [Tree.walkList, ih, List.flatMap_cons]

/-- A walk is the node followed by the walks of its children. -/
theorem walk_eq_cons (n : Node) : n.walk = n :: n.children.flatMap walk := by
  obtain ⟨⟨l, cs⟩, above⟩ := n
  unfold walk children
  rw [Tree.walk, walkList_eq_flatMap, List.flatMap_map]
  rfl

/-- What is above a node is above everything in its walk. -/
theorem suffix_of_mem_walk {m n : Node} (h : m ∈ n.walk) :
    n.tree :: n.above <:+ m.tree :: m.above := by
  induction hsize : n.size using Nat.strongRecOn generalizing n with
  | ind k ih =>
    rcases mem_walk_iff.1 h with rfl | ⟨c, hc, hm⟩
    · exact List.suffix_rfl
    · have hlonger := ih c.size (hsize ▸ size_lt_of_mem_children hc) hm rfl
      obtain ⟨t, -, rfl⟩ := List.mem_map.1 hc
      exact (List.suffix_cons _ _).trans hlonger

/-- A node lies below one child only. -/
theorem eq_of_mem_walk {a b m : Node} (ha : a ∈ n.children)
    (hb : b ∈ n.children) (hma : m ∈ a.walk) (hmb : m ∈ b.walk) : a = b := by
  obtain ⟨t, -, rfl⟩ := List.mem_map.1 ha
  obtain ⟨u, -, rfl⟩ := List.mem_map.1 hb
  -- equally long chains above the same node are the same chain
  have hsuffix := List.suffix_of_suffix_length_le (suffix_of_mem_walk hma)
    (suffix_of_mem_walk hmb) (Nat.le_refl _)
  have htree : t = u := (List.cons.inj (hsuffix.eq_of_length rfl)).1
  rw [htree]

/-- What stands between a node and something below one of its children lies
below that child too. -/
theorem mem_walk_of_below {top c g : Node} (hc : c ∈ top.children)
    (hn : n ∈ c.walk) (hg : g ∈ top.walk) (hng : n ∈ g.walk) :
    g = top ∨ g ∈ c.walk := by
  rcases mem_walk_iff.1 hg with rfl | ⟨c', hc', hg⟩
  · exact .inl rfl
  · obtain rfl := eq_of_mem_walk hc hc' hn (mem_walk_trans hng hg)
    exact .inr hg

/-- Two nodes that lie below each other are the same. -/
theorem eq_of_mem_walk_of_mem_walk {g : Node} (hg : g ∈ n.walk)
    (hn : n ∈ g.walk) : g = n := by
  have hup := suffix_of_mem_walk hg
  have hchain := hup.eq_of_length_le (suffix_of_mem_walk hn).length_le
  obtain ⟨tree, above⟩ := g
  obtain ⟨htree, habove⟩ := List.cons.inj hchain
  cases n
  cases htree
  cases habove
  rfl

/-- The walks of two siblings that stand apart have no node in common. -/
theorem disjoint_walk {a b : Node} (ha : a ∈ n.children) (hb : b ∈ n.children)
    (hsolid : a.start < a.stop) (hapart : a.stop ≤ b.start) :
    a.walk.Disjoint b.walk := by
  intro m hma hmb
  obtain rfl := eq_of_mem_walk ha hb hma hmb
  omega

/-- A walk lists no node twice, since the walks of two siblings share none. -/
theorem nodup_walk (h : n.WellSpaced) : n.walk.Nodup := by
  induction hsize : n.size using Nat.strongRecOn generalizing n with
  | ind k ih =>
    have hspaced := h n n.mem_walk_self
    rw [walk_eq_cons, List.nodup_cons, List.nodup_flatMap]
    refine ⟨fun hself => ?_, fun c hc => ?_, ?_⟩
    · obtain ⟨c, hc, hn⟩ := List.mem_flatMap.1 hself
      have hlength := (suffix_of_mem_walk hn).length_le
      obtain ⟨t, -, rfl⟩ := List.mem_map.1 hc
      simp only [below, List.length_cons] at hlength
      omega
    · refine ih c.size (hsize ▸ size_lt_of_mem_children hc) (fun m hm => ?_) rfl
      exact h m (mem_walk_trans hm (mem_walk_of_mem_children hc))
    · exact hspaced.apart.imp_of_mem fun ha hb hapart =>
        disjoint_walk ha hb (hspaced.solid _ ha) hapart

end Node

end RenderLoop
