/-!
# Search of a finite space

`Space.visit` walks a space depth first and lists every node once, in the
order in which they are met. What can be met from the start is finite, which
is all that the walk needs to end: the finite domain stands in a proposition
and costs nothing when the search runs.
-/

namespace RenderLoop

/-- Nodes to start from, and the nodes one step away from a node. -/
structure Space (α : Type) where
  start : List α
  next : α → List α
  bounded : ∃ domain : List α,
    (∀ a ∈ start, a ∈ domain) ∧ ∀ a ∈ domain, ∀ b ∈ next a, b ∈ domain

namespace Space

variable {α : Type}

/-- A node that may be met. -/
def Inside (s : Space α) (a : α) : Prop := a ∈ s.bounded.choose

/-- The search starts inside. -/
theorem inside_of_start (s : Space α) : ∀ a ∈ s.start, s.Inside a :=
  s.bounded.choose_spec.1

/-- And no step leads outside. -/
theorem inside_of_next (s : Space α) {a b : α} (ha : s.Inside a)
    (hb : b ∈ s.next a) : s.Inside b :=
  s.bounded.choose_spec.2 a ha b hb

/-- Every node that is listed leaves fewer to be seen. -/
theorem length_filter_lt [DecidableEq α] {domain seen : List α} {a : α}
    (ha : a ∈ domain) (hs : a ∉ seen) :
    (domain.filter (· ∉ a :: seen)).length <
      (domain.filter (· ∉ seen)).length := by
  have h : domain.filter (· ∉ a :: seen) =
      (domain.filter (· ∉ seen)).filter (· ≠ a) := by
    rw [List.filter_filter]
    refine List.filter_congr fun x _ => ?_
    simp [not_or]
  rw [h]
  refine List.length_filter_lt_length_iff_exists.2 ⟨a, ?_, by simp⟩
  simp [ha, hs]

/-- Visits the pending nodes, the first one and all that it leads to before
the others, except those already seen. -/
def visitFrom [DecidableEq α] (s : Space α) (seen : List α) :
    (pending : List α) → (∀ a ∈ pending, s.Inside a) → List α
  | [], _ => []
  | a :: rest, h =>
    if _hs : a ∈ seen then visitFrom s seen rest fun b hb =>
      h b (List.mem_cons_of_mem _ hb)
    else
      a :: visitFrom s (a :: seen) (s.next a ++ rest) fun b hb =>
        match List.mem_append.1 hb with
        | .inl hb => s.inside_of_next (h a List.mem_cons_self) hb
        | .inr hb => h b (List.mem_cons_of_mem _ hb)
termination_by pending =>
  ((s.bounded.choose.filter (· ∉ seen)).length, pending.length)
decreasing_by
  · exact Prod.Lex.right _ (by simp)
  · exact Prod.Lex.left _ _ (length_filter_lt (h a List.mem_cons_self) _hs)

/-- All nodes that can be met, in the order of a depth-first walk. -/
def visit [DecidableEq α] (s : Space α) : List α :=
  s.visitFrom [] s.start s.inside_of_start

end Space

end RenderLoop
