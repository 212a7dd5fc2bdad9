import RenderLoop.Stability.Facts
import RenderLoop.Proofs.FunctionBodies
import RenderLoop.Proofs.Outcome
import RenderLoop.Proofs.Sketch

/-!
# The innermost component around a node

`Facts.componentAt?` goes through the components of a file in preorder and
compares starts only. That it arrives at the innermost one rests on the places
of a parse tree: children lie within their parent and stand one behind the
other (`Node.WellRanged`); they may be empty.

> `pairwise_walk`: of two nodes in preorder, the first encloses the second or
> ends before it begins.

Components take over the ranges of their functions, so the same holds of them.
Those around one piece of text cannot be apart, so each lies within the ones
before it:

> `componentAt?_eq_getLast?`: the answer is the last component that contains
> the node.

> `componentAt?_innermost`: it is there iff a component contains the node, and
> lies within all that do.

The pass keeps a component if it contains the node and starts no earlier than
the one kept before. Components that do not contain the node change nothing
(`foldl_inner_filter`), so only those around the node have to be followed, and
there every component replaces the one before it. For an empty node this would
fail: it may touch two components that stand side by side.
-/

namespace RenderLoop

namespace Node

/-- The children of a node lie within it and stand one behind the other. -/
structure Ranged (n : Node) : Prop where
  within : ∀ c ∈ n.children, n.start ≤ c.start ∧ c.stop ≤ n.stop
  apart : n.children.Pairwise fun a b => a.stop ≤ b.start

instance (n : Node) : Decidable n.Ranged :=
  decidable_of_iff ((∀ c ∈ n.children, n.start ≤ c.start ∧ c.stop ≤ n.stop) ∧
    n.children.Pairwise fun a b => a.stop ≤ b.start) ⟨fun h =>
      ⟨h.1, h.2⟩, fun h => ⟨h.within, h.apart⟩⟩

/-- All nodes of a tree are so. -/
def WellRanged (root : Node) : Prop := ∀ n ∈ root.walk, n.Ranged

instance (root : Node) : Decidable root.WellRanged :=
  inferInstanceAs (Decidable (∀ n ∈ root.walk, n.Ranged))

variable {root n : Node}

theorem WellRanged.of_mem_children (h : root.WellRanged) {c : Node}
    (hc : c ∈ root.children) : c.WellRanged :=
  fun m hm => h m (mem_walk_trans hm (mem_walk_of_mem_children hc))

/-- In such a tree every node lies within the root. -/
theorem WellRanged.within_of_mem_walk (h : root.WellRanged)
    (hn : n ∈ root.walk) :
    root.start ≤ n.start ∧ n.stop ≤ root.stop := by
  induction hsize : root.size using Nat.strongRecOn generalizing root with
  | ind k ih =>
    rcases mem_walk_iff.1 hn with rfl | ⟨c, hc, hnc⟩
    · exact ⟨Nat.le_refl _, Nat.le_refl _⟩
    · have hchild := (h root root.mem_walk_self).within c hc
      have hbelow := ih c.size (hsize ▸ size_lt_of_mem_children hc)
        (h.of_mem_children hc) hnc rfl
      omega

/-- Of two nodes in preorder, the second stands below the first or behind it. -/
theorem WellRanged.pairwise_walk_below (h : root.WellRanged) :
    root.walk.Pairwise fun a b =>
    (∃ c ∈ a.children, b ∈ c.walk) ∨ a.stop ≤ b.start := by
  induction hsize : root.size using Nat.strongRecOn generalizing root with
  | ind k ih =>
    have hranged := h root root.mem_walk_self
    rw [walk_eq_cons, List.pairwise_cons, List.pairwise_flatMap]
    refine ⟨fun m hm => .inl (List.mem_flatMap.1 hm), fun c hc => ?_, ?_⟩
    · exact ih c.size (hsize ▸ size_lt_of_mem_children hc)
        (h.of_mem_children hc) rfl
    · refine hranged.apart.imp_of_mem fun {a b} ha hb hapart x hx y hy =>
        .inr ?_
      -- what is in two siblings is as far apart as they are
      have hxa := (h.of_mem_children ha).within_of_mem_walk hx
      have hyb := (h.of_mem_children hb).within_of_mem_walk hy
      omega

/-- Of two nodes in preorder, the second lies within the first or behind it. -/
theorem WellRanged.pairwise_walk (h : root.WellRanged) :
    root.walk.Pairwise fun a b =>
    (a.start ≤ b.start ∧ b.stop ≤ a.stop) ∨ a.stop ≤ b.start := by
  refine h.pairwise_walk_below.imp_of_mem fun {a b} ha _ hab => hab.imp_left ?_
  rintro ⟨c, hc, hbc⟩
  have hranged : a.WellRanged := fun m hm => h m (mem_walk_trans hm ha)
  exact hranged.within_of_mem_walk (mem_walk_iff.2 (.inr ⟨c, hc, hbc⟩))

end Node

/-! ### Components -/

/-- A component lies within another one. -/
def Component.Within (c d : Component) : Prop :=
  d.start ≤ c.start ∧ c.stop ≤ d.stop

namespace Component

variable {c d : Component} {n : Node}

theorem contains_iff : c.contains n = true ↔ c.start ≤ n.start ∧
    n.stop ≤ c.stop := by simp [contains]

/-- A component takes up the text of its function. -/
theorem range_ofFunction? {fn : Node} (h : ofFunction? fn = some c) :
    c.start = fn.start ∧ c.stop = fn.stop := by
  unfold ofFunction? at h
  split at h
  · split at h
    · cases h
      exact ⟨rfl, rfl⟩
    · cases h
  · cases h

/-- The components of a file, in order: each lies within an earlier one or
behind it. -/
theorem pairwise_components {root : Node} (h : root.WellRanged) :
    root.components.Pairwise fun c d => d.Within c ∨ c.stop ≤ d.start := by
  unfold Node.components
  refine (h.pairwise_walk.filter _).filterMap _ fun fn gn hranges c hc d hd =>
    ?_
  obtain ⟨hcstart, hcstop⟩ := range_ofFunction? hc
  obtain ⟨hdstart, hdstop⟩ := range_ofFunction? hd
  unfold Within
  omega

/-- Of those around a piece of text, each lies within the earlier ones. -/
theorem pairwise_around {cs : List Component}
    (h : cs.Pairwise fun c d => d.Within c ∨ c.stop ≤ d.start)
    (hn : n.start < n.stop) :
    (cs.filter (·.contains n)).Pairwise fun c d => d.Within c := by
  refine (h.filter _).imp_of_mem fun {c d} hc hd hranges =>
    hranges.resolve_right fun hapart => ?_
  have hcn := contains_iff.1 (List.mem_filter.1 hc).2
  have hdn := contains_iff.1 (List.mem_filter.1 hd).2
  omega

end Component

namespace Facts

variable {n : Node}

/-- The component kept when another one is met. -/
def inner (n : Node) (best : Option Component) (c : Component) :
    Option Component :=
  if c.contains n && best.all (fun b => b.start ≤ c.start) then some c else best

/-- Among components one inside the other, the pass ends with the last. -/
theorem foldl_inner_of_contains {cs : List Component}
    (hall : ∀ c ∈ cs, c.contains n = true)
    (h : cs.Pairwise fun c d => d.Within c) {best : Option Component}
    (hbest : ∀ b ∈ best, ∀ c ∈ cs, c.Within b) :
    cs.foldl (inner n) best = cs.getLast?.or best := by
  induction cs generalizing best with
  | nil => rfl
  | cons c cs ih =>
    obtain ⟨hwithin, hrest⟩ := List.pairwise_cons.1 h
    have hkept : inner n best c = some c := by
      refine if_pos (Bool.and_eq_true_iff.2 ⟨hall c List.mem_cons_self, ?_⟩)
      cases best with
      | none => rfl
      | some b => simpa using (hbest b rfl c List.mem_cons_self).1
    rw [List.foldl_cons, hkept,
      ih (fun d hd => hall d (List.mem_cons_of_mem _ hd)) hrest,
      List.getLast?_cons]
    · cases cs.getLast? <;> rfl
    · rintro b ⟨⟩
      exact hwithin

/-- Components that do not contain the node are passed over. -/
theorem foldl_inner_filter (cs : List Component) (best : Option Component) :
    cs.foldl (inner n) best = (cs.filter (·.contains n)).foldl
      (inner n) best := by
  induction cs generalizing best with
  | nil => rfl
  | cons c cs ih =>
    by_cases hc : c.contains n = true
    · rw [List.filter_cons, if_pos hc, List.foldl_cons, List.foldl_cons, ih]
    · have hpassed : inner n best c = best := by simp [inner, hc]
      rw [List.filter_cons, if_neg hc, List.foldl_cons, hpassed, ih]

/-- Only the components around the node count, and of these the last one is
kept. -/
theorem componentAt?_eq_getLast? {f : Facts}
    (h : f.components.Pairwise fun c d => d.Within c ∨ c.stop ≤ d.start)
    (hn : n.start < n.stop) :
    f.componentAt? n = (f.components.filter (·.contains n)).getLast? := by
  have hfold : f.componentAt? n = f.components.foldl (inner n) none := rfl
  rw [hfold, foldl_inner_filter,
    foldl_inner_of_contains (fun c hc => (List.mem_filter.1 hc).2)
      (Component.pairwise_around h hn) (fun _ hb => absurd hb (by simp)),
    Option.or_none]

/-- The facts of a file list the components of its tree. -/
theorem components_of_extract {ctx : Context} {file : String}
    {root : Node} {f : Facts} (h : extract ctx file root = .ok f) :
    f.components = root.components := by
  obtain ⟨ds, -, h⟩ := bind_eq_ok.1 h
  cases h
  rfl

/-- In a tree whose nodes lie within their parents and behind their elder
siblings, the component at a piece of text is there iff some component
contains the text, and it is one that lies within all others that do. -/
theorem componentAt?_innermost {ctx : Context} {file : String}
    {root : Node} {f : Facts} (hroot : root.WellRanged)
    (hf : extract ctx file root = .ok f) (hn : n.start < n.stop) :
    (f.componentAt? n = none ↔ ∀ c ∈ f.components, c.contains n = false) ∧
      ∀ c, f.componentAt? n = some c → c ∈ f.components ∧ c.contains n = true ∧
        ∀ d ∈ f.components, d.contains n = true → d.start ≤ c.start ∧
          c.stop ≤ d.stop := by
  have hranges : f.components.Pairwise fun c d => d.Within c ∨
      c.stop ≤ d.start := by
    rw [components_of_extract hf]
    exact Component.pairwise_components hroot
  rw [componentAt?_eq_getLast? hranges hn]
  constructor
  · simp
  · intro c hc
    obtain ⟨hmem, hcontains⟩ := List.mem_filter.1 (List.mem_of_getLast? hc)
    refine ⟨hmem, hcontains, fun d hd hdn => ?_⟩
    -- whatever else contains the node comes before the last that does
    obtain ⟨before, hsplit⟩ := List.getLast?_eq_some_iff.1 hc
    have hnested := Component.pairwise_around hranges hn
    rw [hsplit, List.pairwise_append] at hnested
    have hdmem : d ∈ before ++ [c] := hsplit ▸ List.mem_filter.2 ⟨hd, hdn⟩
    rcases List.mem_append.1 hdmem with hdbefore | hdlast
    · exact hnested.2.2 d hdbefore c List.mem_cons_self
    · obtain rfl := List.mem_singleton.1 hdlast
      exact ⟨Nat.le_refl _, Nat.le_refl _⟩

/-! ### A component in a component -/

namespace Nested

/-- A component whose body declares another one. -/
def page : Node := Sketch.program
  [.function "Page" [] [.function "Row" [] [.giveBack (.name "item")],
    .giveBack (.name "rows")]]

/-- The name inside the inner component. -/
def item : Node := page.at [0, 2, 0, 2, 0, 0]

end Nested

open Nested in
/-- Two components are around the name, and the inner one is found. -/
theorem componentAt?_innermost_item : page.WellRanged ∧ item.start < item.stop ∧
    ∃ f c, extract .usual "Page.tsx" page = .ok f ∧
      f.componentAt? item = some c ∧ c.name = "Row" ∧
      (f.components.filter (·.contains item)).length = 2 ∧
      ∀ d ∈ f.components, d.contains item = true → d.start ≤ c.start ∧
        c.stop ≤ d.stop := by
  have hpage : page.WellRanged := by decide +kernel
  have hitem : item.start < item.stop := by decide +kernel
  obtain ⟨f, hf, hrow⟩ :=
    exists_of_any_toOption (x := extract .usual "Page.tsx" page)
      (p := fun f => (f.componentAt? item).any (·.name == "Row") &&
        (f.components.filter (·.contains item)).length == 2) (by decide +kernel)
  obtain ⟨hname, hlength⟩ := Bool.and_eq_true_iff.1 hrow
  obtain ⟨c, hc, hname⟩ := (Option.any_eq_true _ _).1 hname
  obtain ⟨-, hinner⟩ := componentAt?_innermost hpage hf hitem
  exact ⟨hpage, hitem, f, c, hf,
    hc, by simpa using hname, by simpa using hlength, (hinner c hc).2.2⟩

end Facts

end RenderLoop
