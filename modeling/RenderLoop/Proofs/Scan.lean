import RenderLoop.Update.Scan
import RenderLoop.Proofs.Descent
import RenderLoop.Proofs.Outcome

/-!
# What the scan of a function lists

The scan goes down the tree of a function with a scope that only nested
functions change. So a call that no nested function hides is met in the scope
the scan began with:

> `scan_child`: outside nested functions, what the scan of a child lists is
> listed for its parent.

> `mem_scanCalls_of_descent`: a call below a function, with no function
> between the two, is listed, and in a function that is not asynchronous it is
> listed as one that does not run later.

The scan fails only on settings that are not well-formed (`exists_scanCalls`).

The scan can fail only at a call about which the settings cannot be asked
(`exists_callsBackLater`), so with well-formed settings there is always a list
(`exists_scanCalls`). That half goes through every definition of the scan once
and is used wherever a result has to be there at all.

For the other half the scope is the thing to watch. It changes at nested
functions, and a descent without functions never gets to one, so the scope at
its end is the one it began with.
-/

namespace RenderLoop

/-- Every entry of the settings is a table. -/
def Options.WellFormed (o : Options) : Prop :=
  ∀ entry ∈ o.overrides, ∀ written, entry.2 ≠ .malformed written

/-- With well-formed settings it is known which functions call back later. -/
theorem Options.WellFormed.exists_deferredFunctions {o : Options}
    (h : o.WellFormed) :
    ∃ names, o.deferredFunctions = .ok names := by
  have hread : ∀ entry ∈ o.overrides,
      ∃ later, Override.isDeferred entry.2 = .ok later := by
    rintro ⟨name, entry⟩ hentry
    cases entry with
    | entry stable deferred => exact ⟨_, rfl⟩
    | malformed written => exact absurd rfl (h _ hentry written)
  obtain ⟨marked, hmarked⟩ := exists_filterM hread
  exact ⟨_, bind_eq_ok.2 ⟨marked, hmarked, rfl⟩⟩

namespace Update

variable {ctx : Context} {skip : List Key} {own : Key}

/-! ### Success -/

/-- So it can be told of every call whether it does. -/
theorem exists_callsBackLater (h : ctx.options.WellFormed) (call : Node) :
    ∃ later, callsBackLater ctx call = .ok later := by
  obtain ⟨names, hnames⟩ := h.exists_deferredFunctions
  unfold callsBackLater
  split
  · exact ⟨_, rfl⟩
  · split
    · exact ⟨_, rfl⟩
    · exact ⟨_, bind_eq_ok.2 ⟨names, hnames, rfl⟩⟩

/-- And with which scope a nested function is entered. -/
theorem exists_enter? (h : ctx.options.WellFormed) (skip : List Key) (s : Scope)
    (fn : Node) :
    ∃ inner, s.enter? ctx skip fn = .ok inner := by
  unfold Scope.enter?
  simp only
  split
  · exact ⟨_, rfl⟩
  · split
    · exact ⟨_, rfl⟩
    · next receiver _ =>
      split
      · exact ⟨_, rfl⟩
      · obtain ⟨later, hlater⟩ := exists_callsBackLater h receiver
        exact ⟨_, bind_eq_ok.2 ⟨later, hlater, rfl⟩⟩

mutual

/-- Then no scan of a tree fails. -/
theorem exists_scanTree (h : ctx.options.WellFormed) (above : List Tree)
    (s : Scope) :
    ∀ t : Tree, ∃ sites, scanTree ctx skip own above s t = .ok sites
  | .node l cs => by
    rw [scanTree]
    split
    · obtain ⟨inner, hinner⟩ := exists_enter? h skip s ⟨.node l cs, above⟩
      cases inner with
      | none => exact ⟨[], bind_eq_ok.2 ⟨none, hinner, rfl⟩⟩
      | some inner =>
        obtain ⟨sites, hsites⟩ :=
          exists_scanTrees h (.node l cs :: above) inner cs
        exact ⟨sites, bind_eq_ok.2 ⟨some inner, hinner, hsites⟩⟩
    · obtain ⟨sites, hsites⟩ := exists_scanTrees h (.node l cs :: above) s cs
      exact ⟨_, bind_eq_ok.2 ⟨sites, hsites, rfl⟩⟩

theorem exists_scanTrees (h : ctx.options.WellFormed) (above : List Tree)
    (s : Scope) :
    ∀ ts : List Tree, ∃ sites, scanTrees ctx skip own above s ts = .ok sites
  | [] => ⟨[], rfl⟩
  | t :: ts => by
    obtain ⟨first, hfirst⟩ := exists_scanTree h above s t
    obtain ⟨rest, hrest⟩ := exists_scanTrees h above s ts
    rw [scanTrees]
    exact ⟨_, bind_eq_ok.2 ⟨first, hfirst, bind_eq_ok.2 ⟨rest, hrest, rfl⟩⟩⟩

end

/-- So neither does the scan of a function. -/
theorem exists_scanCalls (h : ctx.options.WellFormed) (skip : List Key)
    (fn : Node) :
    ∃ sites, scanCalls ctx skip fn = .ok sites :=
  exists_scanTree h fn.above _ fn.tree

/-! ### Going down -/

/-- What is listed for one of several siblings is listed for them all. -/
theorem scan_of_mem {above : List Tree} {s : Scope} {ts : List Tree}
    {sites : List Site} (h : scanTrees ctx skip own above s ts = .ok sites)
    {t : Tree} (ht : t ∈ ts) :
    ∃ part, scanTree ctx skip own above s t = .ok part ∧ part ⊆ sites := by
  induction ts generalizing sites with
  | nil => cases ht
  | cons u us ih =>
    rw [scanTrees] at h
    obtain ⟨first, hfirst, h⟩ := bind_eq_ok.1 h
    obtain ⟨rest, hrest, h⟩ := bind_eq_ok.1 h
    cases h
    rcases List.mem_cons.1 ht with rfl | ht
    · exact ⟨first, hfirst, List.subset_append_left _ _⟩
    · obtain ⟨part, hpart, hsub⟩ := ih hrest ht
      exact ⟨part, hpart, List.Subset.trans hsub (List.subset_append_right _ _)⟩

/-- The scan of a node that is no nested function: its children in the same
scope, and the node itself if it is a call. -/
theorem scanTree_plain {n : Node} {s : Scope} {sites : List Site}
    (hplain : n.isFunction = false ∨ n.key = own)
    (h : scanTree ctx skip own n.above s n.tree = .ok sites) :
    ∃ found, scanTrees ctx skip own (n.tree :: n.above) s n.tree.children =
      .ok found ∧ sites = if n.kind.isCall then ⟨n, s.defers n⟩ ::
      found else found := by
  obtain ⟨⟨l, cs⟩, above⟩ := n
  have hcond :
      ¬ (l.kind.isFunction && (⟨.node l cs, above⟩ : Node).key != own) =
      true := by
    rw [Bool.and_eq_true]
    rintro ⟨hfn, hkey⟩
    rcases hplain with hno | hown
    · have hfn' : (⟨.node l cs, above⟩ : Node).isFunction = true := hfn
      rw [hfn'] at hno
      cases hno
    · exact absurd hown (by simpa using hkey)
  rw [scanTree] at h
  simp only [if_neg hcond] at h
  obtain ⟨found, hfound, h⟩ := bind_eq_ok.1 h
  cases h
  exact ⟨found, hfound, rfl⟩

/-- Outside nested functions the scan of a child is part of the scan of its
parent. -/
theorem scan_child {n c : Node} {s : Scope} {sites : List Site}
    (hplain : n.isFunction = false ∨ n.key = own)
    (h : scanTree ctx skip own n.above s n.tree = .ok sites)
    (hc : c ∈ n.children) :
    ∃ part, scanTree ctx skip own c.above s c.tree = .ok part ∧
      part ⊆ sites := by
  obtain ⟨found, hfound, rfl⟩ := scanTree_plain hplain h
  obtain ⟨t, ht, rfl⟩ := List.mem_map.1 hc
  obtain ⟨part, hpart, hsub⟩ := scan_of_mem hfound ht
  refine ⟨part, hpart, fun x hx => ?_⟩
  split
  · exact List.mem_cons_of_mem _ (hsub hx)
  · exact hsub hx

/-- The scope does not change on the way down to a node that no nested
function hides. -/
theorem scan_of_descent {top n : Node} {steps : List (Node × Node)} {s : Scope}
    {sites : List Site} (d : top.Descent steps n)
    (hfn : ∀ x ∈ steps, x.2.isFunction = false)
    (h : scanTree ctx skip top.key top.above s top.tree = .ok sites) :
    ∃ part, scanTree ctx skip top.key n.above s n.tree = .ok part ∧
      part ⊆ sites := by
  induction d with
  | first hc => exact scan_child (.inr rfl) h hc
  | next _ hc ih =>
    obtain ⟨part, hpart, hsub⟩ :=
      ih fun x hx => hfn x (List.mem_cons_of_mem _ hx)
    obtain ⟨below, hbelow, hsub'⟩ :=
      scan_child (.inl (hfn _ List.mem_cons_self)) hpart hc
    exact ⟨below, hbelow, List.Subset.trans hsub' hsub⟩

/-- A call is no function. -/
theorem isFunction_of_isCall {n : Node} (h : n.kind.isCall = true) :
    n.isFunction = false := by
  unfold Node.isFunction
  unfold Kind.isCall at h
  split at h
  · next hkind =>
    rw [hkind]
    rfl
  · next hkind =>
    rw [hkind]
    rfl
  · cases h

/-- A call in a function's own code is listed, and runs with it unless the
function is asynchronous. -/
theorem mem_scanCalls_of_descent {fn call : Node} {steps : List (Node × Node)}
    {sites : List Site} (d : fn.Descent steps call)
    (hfn : ∀ x ∈ steps, x.2.isFunction = false)
    (hcall : call.kind.isCall = true) (hsync : fn.isAsync = false)
    (h : scanCalls ctx skip fn = .ok sites) : ⟨call, false⟩ ∈ sites := by
  unfold scanCalls at h
  rw [hsync] at h
  obtain ⟨part, hpart, hsub⟩ := scan_of_descent d hfn h
  obtain ⟨found, -, rfl⟩ :=
    scanTree_plain (.inl (isFunction_of_isCall hcall)) hpart
  rw [if_pos hcall] at hsub
  exact hsub List.mem_cons_self

end Update

end RenderLoop
