import RenderLoop.Proofs.Scan
import RenderLoop.Proofs.Sketch

/-!
# Code behind an `await`

The scan of a function goes down the tree with a scope, and every nested
function that it enters makes a new one: the calls in it run later if the
function is handed to something that calls it back later, and the `await`s
that count are from then on those of the nested function. The `await`s of the
functions around it are forgotten.

> `met_scanTree`: what the scan says about a call is decided by the nested
> functions around it, all of them for the question of who calls them, and the
> innermost one for its `await`s.

> `scanCalls_deferred_iff`: a call runs later iff some function around it is
> called back later, or its own function waits before the call is over.

The scope is the invariant that the induction over the tree carries: its mark
says whether a function on the way is called back later, and its function is
the one whose `await`s count. Nodes of the same function are those that a walk
reaches without entering a nested one (`exists_descent_of_mem_walkOutside`).
-/

namespace RenderLoop

namespace Node

/-! ### What lies below a node -/

/-- A way down from a child is a way down from its parent, and the child
stands in between. -/
theorem Descent.from_parent {top c n : Node} {steps : List (Node × Node)}
    (hc : c ∈ top.children) (d : c.Descent steps n) :
    ∃ longer, top.Descent longer n ∧
      longer.map (·.2) = steps.map (·.2) ++ [c] := by
  induction d with
  | first h => exact ⟨_, .next (.first hc) h, rfl⟩
  | next _ h ih =>
    obtain ⟨longer, hlonger, hparents⟩ := ih
    refine ⟨_, .next hlonger h, ?_⟩
    rw [List.map_cons, List.map_cons, hparents]
    rfl

/-- Everything in a walk is reached by a way down. -/
theorem exists_descent_of_mem_walk {top n : Node} (h : n ∈ top.walk) :
    n = top ∨ ∃ steps, top.Descent steps n := by
  induction hsize : top.size using Nat.strongRecOn generalizing top with
  | ind k ih =>
    rcases mem_walk_iff.1 h with rfl | ⟨c, hc, hn⟩
    · exact .inl rfl
    · right
      rcases ih c.size (hsize ▸ size_lt_of_mem_children hc) hn rfl with rfl |
        ⟨steps, d⟩
      · exact ⟨[], .first hc⟩
      · obtain ⟨longer, hlonger, -⟩ := d.from_parent hc
        exact ⟨longer, hlonger⟩

theorem mem_walkOutsideList {m : Node} {above : List Tree} {ts : List Tree} :
    m ∈ Tree.walkOutsideList above ts ↔ ∃ t ∈ ts, m ∈ t.walkOutside above := by
  induction ts with
  | nil => simp [Tree.walkOutsideList]
  | cons t ts ih => simp [Tree.walkOutsideList, ih]

/-- Outside functions a walk goes on to the children. -/
theorem mem_walkOutside_iff {m n : Node} : m ∈ n.tree.walkOutside n.above ↔
    m = n ∨ n.isFunction = false ∧
      ∃ c ∈ n.children, m ∈ c.tree.walkOutside c.above := by
  obtain ⟨⟨l, cs⟩, above⟩ := n
  rw [Tree.walkOutside, List.mem_cons]
  refine or_congr_right ?_
  have hchildren : m ∈ Tree.walkOutsideList (.node l cs :: above) cs ↔
      ∃ c ∈ (⟨.node l cs, above⟩ : Node).children,
        m ∈ c.tree.walkOutside c.above := by
    rw [mem_walkOutsideList]
    constructor
    · rintro ⟨t, ht, hm⟩
      exact ⟨_, List.mem_map.2 ⟨t, ht, rfl⟩, hm⟩
    · rintro ⟨c, hc, hm⟩
      obtain ⟨t, ht, rfl⟩ := List.mem_map.1 hc
      exact ⟨t, ht, hm⟩
  rw [← hchildren]
  show _ ↔ l.kind.isFunction = false ∧ _
  cases l.kind.isFunction <;> simp

/-- What the walk meets outside functions is reached by steps none of which
leads through a function. -/
theorem exists_descent_of_mem_walkOutside {top c m : Node}
    (hc : c ∈ top.children) (h : m ∈ c.tree.walkOutside c.above) :
    ∃ steps, top.Descent steps m ∧ ∀ s ∈ steps, s.2.isFunction = false := by
  induction hsize : c.size using Nat.strongRecOn generalizing top c with
  | ind k ih =>
    rcases mem_walkOutside_iff.1 h with rfl | ⟨hfn, d, hd, hm⟩
    · exact ⟨[], .first hc, fun s hs => absurd hs List.not_mem_nil⟩
    · obtain ⟨steps, hsteps, hnone⟩ :=
        ih d.size (hsize ▸ size_lt_of_mem_children hd) hd hm rfl
      obtain ⟨longer, hlonger, hparents⟩ := hsteps.from_parent hc
      refine ⟨longer, hlonger, fun s hs => ?_⟩
      have hs : s.2 ∈ steps.map (·.2) ++ [c] :=
        hparents ▸ List.mem_map.2 ⟨s, hs, rfl⟩
      rcases List.mem_append.1 hs with hs | hs
      · obtain ⟨t, ht, hts⟩ := List.mem_map.1 hs
        exact hts ▸ hnone t ht
      · rw [List.mem_singleton.1 hs]
        exact hfn

/-- A walk outside functions goes on below what it lists. -/
theorem mem_walkOutside_of_mem_children {l m n : Node}
    (hm : m ∈ n.tree.walkOutside n.above) (hfn : m.isFunction = false)
    (hl : l ∈ m.children) : l ∈ n.tree.walkOutside n.above := by
  induction hsize : n.size using Nat.strongRecOn generalizing n with
  | ind k ih =>
    rcases mem_walkOutside_iff.1 hm with rfl | ⟨htop, c, hc, hmc⟩
    · exact mem_walkOutside_iff.2
        (.inr ⟨hfn, l, hl, mem_walkOutside_iff.2 (.inl rfl)⟩)
    · have hlt : c.size < k := hsize ▸ size_lt_of_mem_children hc
      exact mem_walkOutside_iff.2 (.inr ⟨htop, c, hc, ih _ hlt hmc rfl⟩)

/-- And the other way round: such steps lead to a node that the walk meets. -/
theorem Descent.mem_walkOutside {top m : Node} {steps : List (Node × Node)}
    (d : top.Descent steps m) (hfn : ∀ s ∈ steps, s.2.isFunction = false) :
    ∃ c ∈ top.children, m ∈ c.tree.walkOutside c.above := by
  induction d with
  | first h => exact ⟨_, h, mem_walkOutside_iff.2 (.inl rfl)⟩
  | next _ h ih =>
    obtain ⟨c, hc, hm⟩ := ih fun s hs => hfn s (List.mem_cons_of_mem _ hs)
    exact ⟨c, hc, mem_walkOutside_of_mem_children hm
      (hfn _ List.mem_cons_self) h⟩

/-- The nodes of a shallow walk: no function stands between them and the top. -/
theorem mem_walkShallow_iff {m n : Node} : m ∈ n.walkShallow ↔
    m = n ∨ ∃ steps, n.Descent steps m ∧
      ∀ s ∈ steps, s.2.isFunction = false := by
  unfold walkShallow
  rw [List.mem_cons, mem_walkOutsideList]
  refine or_congr_right ⟨?_, ?_⟩
  · rintro ⟨t, ht, hm⟩
    exact exists_descent_of_mem_walkOutside (List.mem_map.2 ⟨t, ht, rfl⟩) hm
  · rintro ⟨steps, d, hfn⟩
    obtain ⟨c, hc, hm⟩ := d.mem_walkOutside hfn
    obtain ⟨t, ht, rfl⟩ := List.mem_map.1 hc
    exact ⟨t, ht, hm⟩

end Node

namespace Update

/-- An `await` in the body of a function that belongs to no function nested
there. -/
def Awaits (fn a : Node) : Prop :=
  a.kind = .await ∧ ∃ body, fn.functionBody? = some body ∧
    (a = body ∨ ∃ steps, body.Descent steps a ∧
      ∀ s ∈ steps, s.2.isFunction = false)

/-- A function is handed to something that calls it back later. -/
def HandedLater (ctx : Context) (fn : Node) : Prop :=
  ∃ receiver, receivingCall? fn = some receiver ∧
    callsBackLater ctx receiver = .ok true

/-- A function other than the one that is scanned. -/
def isNested (own : Key) (n : Node) : Bool := n.isFunction && n.key != own

/-- A call comes after an `await` when one of the function's own pauses ends
before it and does not hold it. -/
theorem isAfterAwait_iff {call fn : Node} : isAfterAwait call fn = true ↔
    ∃ a, Awaits fn a ∧ a.stop ≤ call.stop ∧ a.encloses call = false := by
  unfold isAfterAwait Awaits
  rw [Option.any_eq_true]
  simp only [List.any_eq_true, Bool.and_eq_true, beq_iff_eq, decide_eq_true_eq,
    Bool.not_eq_true', Node.mem_walkShallow_iff]
  constructor
  · rintro ⟨body, hbody, a, ha, ⟨hkind, hstop⟩, hout⟩
    exact ⟨a, ⟨hkind, body, hbody, ha⟩, hstop, hout⟩
  · rintro ⟨a, ⟨hkind, body, hbody, ha⟩, hstop, hout⟩
    exact ⟨body, hbody, a, ha, ⟨hkind, hstop⟩, hout⟩

/-! ### The scope of a call -/

/-- The function whose `await`s count for a call with the given nested
functions around it, nearest first: the innermost one if it may wait, and
outside of them the one of the scope. -/
def Scope.waiting? (scope : Scope) (nested : List Node) : Option Node :=
  match nested with
  | [] => scope.asyncFn
  | g :: _ => if g.isAsync then some g else none

/-- A call with nested functions around it, met below a node that was reached
in a scope, runs later. -/
def Scope.DefersBelow (ctx : Context) (scope : Scope) (nested : List Node)
    (call : Node) : Prop :=
  (scope.deferred = true ∨ ∃ g ∈ nested, HandedLater ctx g) ∨
    ∃ f, scope.waiting? nested = some f ∧ isAfterAwait call f = true

/-- A site is met below a node that was reached in a scope. -/
structure Met (ctx : Context) (own : Key) (scope : Scope) (n : Node)
    (s : Site) : Prop where
  isCall : s.call.kind.isCall = true
  below : s.call ∈ n.walk
  deferred_iff : ∃ way, s.call.ancestors = way ++ n.ancestors ∧
    (s.deferred = true ↔
      scope.DefersBelow ctx (way.filter (isNested own)) s.call)

section

variable {ctx : Context} {skip : List Key} {own : Key} {scope inner : Scope}
  {n c : Node} {s : Site}

/-- A call itself is met in the scope it stands in. -/
theorem Met.here (hcall : n.kind.isCall = true) :
    Met ctx own scope n ⟨n, scope.defers n⟩ := by
  refine ⟨hcall, Node.mem_walk_self n, [], rfl, ?_⟩
  simp [Scope.defers, Scope.DefersBelow, Scope.waiting?, Option.any_eq_true]

/-- A node that is no nested function leaves the scope as it is. -/
theorem Met.plain (hplain : isNested own n = false) (hc : c ∈ n.children)
    (h : Met ctx own scope c s) : Met ctx own scope n s := by
  obtain ⟨way, hway, hdefers⟩ := h.deferred_iff
  refine ⟨h.isCall, Node.mem_walk_iff.2 (.inr ⟨c, hc, h.below⟩),
    way ++ [n], ?_, ?_⟩
  · rw [hway, Node.ancestors_of_mem_children hc, List.append_assoc]
    rfl
  · rw [List.filter_append, List.filter_cons_of_neg (by simp [hplain]),
      List.filter_nil, List.append_nil]
    exact hdefers

/-- What the scope inside a nested function is. -/
theorem Scope.of_enter? (h : scope.enter? ctx skip n = .ok (some inner)) :
    inner.asyncFn = (if n.isAsync then some n else none) ∧
      (inner.deferred = true ↔ scope.deferred = true ∨ HandedLater ctx n) := by
  unfold enter? at h
  simp only at h
  split at h
  · cases h
  · cases hreceiver : receivingCall? n with
    | none =>
      rw [hreceiver] at h
      cases h
      simp [HandedLater, hreceiver]
    | some receiver =>
      rw [hreceiver] at h
      simp only at h
      split at h
      · cases h
      · obtain ⟨later, hlater, h⟩ := bind_eq_ok.1 h
        cases h
        simp [HandedLater, hreceiver, hlater]

/-- A nested function that is entered changes it. -/
theorem Met.entered (hnested : isNested own n = true)
    (henter : scope.enter? ctx skip n = .ok (some inner))
    (hc : c ∈ n.children) (h : Met ctx own inner c s) :
    Met ctx own scope n s := by
  obtain ⟨way, hway, hdefers⟩ := h.deferred_iff
  obtain ⟨hasync, hlater⟩ := Scope.of_enter? henter
  refine ⟨h.isCall, Node.mem_walk_iff.2 (.inr ⟨c, hc, h.below⟩),
    way ++ [n], ?_, ?_⟩
  · rw [hway, Node.ancestors_of_mem_children hc, List.append_assoc]
    rfl
  · rw [List.filter_append, List.filter_cons_of_pos hnested,
      List.filter_nil, hdefers]
    have hwaiting : inner.waiting? (way.filter (isNested own)) =
        scope.waiting? (way.filter (isNested own) ++ [n]) := by
      cases way.filter (isNested own) with
      | nil => exact hasync
      | cons g rest => rfl
    unfold Scope.DefersBelow
    rw [hwaiting, hlater]
    refine or_congr_left ?_
    constructor
    · rintro ((hscope | hself) | ⟨g, hg, hhanded⟩)
      · exact .inl hscope
      · exact .inr ⟨n, List.mem_append_right _ List.mem_cons_self, hself⟩
      · exact .inr ⟨g, List.mem_append_left _ hg, hhanded⟩
    · rintro (hscope | ⟨g, hg, hhanded⟩)
      · exact .inl (.inl hscope)
      · rcases List.mem_append.1 hg with hg | hg
        · exact .inr ⟨g, hg, hhanded⟩
        · exact .inl (.inr (List.mem_singleton.1 hg ▸ hhanded))

mutual

/-- Every site that the scan of a tree lists is met in the scope the scan
began with. -/
theorem met_scanTree (own : Key) (above : List Tree) (scope : Scope) :
    ∀ (t : Tree) (sites : List Site),
      scanTree ctx skip own above scope t = .ok sites →
      ∀ s ∈ sites, Met ctx own scope ⟨t, above⟩ s
  | .node l cs, sites, h => by
    intro s hs
    rw [scanTree] at h
    split at h
    · next hnested =>
      obtain ⟨inner?, henter, h⟩ := bind_eq_ok.1 h
      cases inner? with
      | none =>
        cases h
        cases hs
      | some inner =>
        obtain ⟨t, ht, hmet⟩ := met_scanTrees own _ inner cs sites h s hs
        exact hmet.entered hnested henter (List.mem_map.2 ⟨t, ht, rfl⟩)
    · next hplain =>
      obtain ⟨found, hfound, h⟩ := bind_eq_ok.1 h
      cases h
      have hbelow : ∀ s ∈ found, Met ctx own scope ⟨.node l cs, above⟩ s := by
        intro s hs
        obtain ⟨t, ht, hmet⟩ := met_scanTrees own _ scope cs found hfound s hs
        exact hmet.plain (Bool.eq_false_iff.2 hplain)
          (List.mem_map.2 ⟨t, ht, rfl⟩)
      split at hs
      · next hcall =>
        rcases List.mem_cons.1 hs with rfl | hs
        · exact .here hcall
        · exact hbelow s hs
      · exact hbelow s hs

/-- Each site of a list of siblings was met below one of them. -/
theorem met_scanTrees (own : Key) (above : List Tree) (scope : Scope) :
    ∀ (ts : List Tree) (sites : List Site),
      scanTrees ctx skip own above scope ts = .ok sites →
      ∀ s ∈ sites, ∃ t ∈ ts, Met ctx own scope ⟨t, above⟩ s
  | [], sites, h => by
    intro s hs
    cases h
    cases hs
  | t :: ts, sites, h => by
    intro s hs
    rw [scanTrees] at h
    obtain ⟨first, hfirst, h⟩ := bind_eq_ok.1 h
    obtain ⟨rest, hrest, h⟩ := bind_eq_ok.1 h
    cases h
    rcases List.mem_append.1 hs with hs | hs
    · exact ⟨t, List.mem_cons_self,
        met_scanTree own above scope t first hfirst s hs⟩
    · obtain ⟨u, hu, hmet⟩ := met_scanTrees own above scope ts rest hrest s hs
      exact ⟨u, List.mem_cons_of_mem _ hu, hmet⟩

end

end

/-! ### The calls of a function -/

/-- The functions between a function and a node below it, nearest first. -/
def nestedAround (fn : Node) (steps : List (Node × Node)) : List Node :=
  (steps.map (·.2)).filter (isNested fn.key)

/-- The innermost function around a node below a function. -/
def ownFunction (fn : Node) (steps : List (Node × Node)) : Node :=
  (nestedAround fn steps).headD fn

/-- The functions of the way down that are nested in `fn` are those the steps
lead through, innermost first. -/
theorem filter_isNested_way (fn : Node) (steps : List (Node × Node)) :
    (steps.map (·.2) ++ [fn]).filter (isNested fn.key) =
      nestedAround fn steps := by
  have hself : isNested fn.key fn = false := by simp [isNested]
  rw [List.filter_append, List.filter_cons_of_neg (by simp [hself]),
    List.filter_nil, List.append_nil]
  rfl

/-- In the scope that a scan begins with, the function that counts is the
innermost one, if it may wait. -/
theorem waiting?_own (fn : Node) (steps : List (Node × Node))
    (deferred : Bool) :
    (⟨deferred, if fn.isAsync then some fn else none⟩ : Scope).waiting?
      (nestedAround fn steps) =
      if (ownFunction fn steps).isAsync then some (ownFunction fn steps)
      else none := by
  unfold ownFunction
  cases nestedAround fn steps with
  | nil => rfl
  | cons g rest => rfl

/-- A call below a node is found to run later iff a nested function around it
is called back later, or its own function may wait and an `await` of its own
is over before the call is, unless the call is part of it. In particular what
stands behind such an `await` runs later. -/
theorem scanCalls_deferred_iff (ctx : Context) (skip : List Key) {fn : Node}
    {sites : List Site} (h : scanCalls ctx skip fn = .ok sites) {s : Site}
    (hs : s ∈ sites) (hbelow : s.call ≠ fn) :
    ∃ steps, fn.Descent steps s.call ∧
      (s.deferred = true ↔ (∃ g ∈ nestedAround fn steps, HandedLater ctx g) ∨
        (ownFunction fn steps).isAsync = true ∧
          ∃ a, Awaits (ownFunction fn steps) a ∧ a.stop ≤ s.call.stop ∧
          a.encloses s.call = false) ∧
      ((ownFunction fn steps).isAsync = true → s.call.start < s.call.stop →
        ∀ a, Awaits (ownFunction fn steps) a → a.stop ≤ s.call.start →
          s.deferred = true) := by
  obtain ⟨-, hwalk, way, hway, hdefers⟩ :=
    met_scanTree fn.key fn.above _ fn.tree sites h s hs
  obtain ⟨steps, d⟩ :=
    (Node.exists_descent_of_mem_walk hwalk).resolve_left hbelow
  obtain rfl : way = steps.map (·.2) ++ [fn] := by
    have hup := hway.symm.trans d.ancestors_eq
    rw [← List.singleton_append, ← List.append_assoc] at hup
    exact List.append_cancel_right hup
  have hexact : s.deferred = true ↔
    (∃ g ∈ nestedAround fn steps, HandedLater ctx g) ∨
      (ownFunction fn steps).isAsync = true ∧
        ∃ a, Awaits (ownFunction fn steps) a ∧ a.stop ≤ s.call.stop ∧
        a.encloses s.call = false := by
    rw [hdefers, filter_isNested_way, Scope.DefersBelow,
      waiting?_own, ← isAfterAwait_iff]
    simp [and_assoc]
  refine ⟨steps, d, hexact, fun hasync hsolid a ha hbefore =>
    hexact.2 (.inr ⟨hasync, a, ha, ?_, ?_⟩)⟩
  · omega
  · -- the call takes up some text, and all of it stands behind the `await`
    unfold Node.encloses
    simp only [Bool.and_eq_false_iff, decide_eq_false_iff_not]
    omega

/-- An effect that waits, sets a state, and sets another one in a callback. -/
def waiting : Node := Sketch.program
  [.function "Panel" [] [.useState "v" "setV", .useState "w" "setW",
    .run (.call "useEffect" [.asyncArrow [.run (.await (.call "load" [])),
      .run (.call "setV" [.number "1"]),
        .run (.call "each" [.arrow [.run (.call "setW" [.number "1"])]])],
      .array ["v"]])]]

namespace waiting

def callback : Node := waiting.at [0, 2, 2, 0, 1, 0]

/-- The place where the effect waits. -/
def pause : Node := callback.at [2, 0, 0]

theorem awaits_pause : Awaits callback pause :=
  ⟨rfl, callback.at [2], rfl, .inr ⟨[(pause, callback.at [2, 0])],
    .next (.first (List.mem_of_getElem? (i := 0) rfl))
      (List.mem_of_getElem? (i := 0) rfl),
    by decide⟩⟩

/-- Some site of the effect passes a test. -/
theorem exists_site {p : Site → Bool}
    (h : (scanCalls .usual [] callback).toOption.any (fun sites =>
    sites.any p) = true) :
    ∃ sites s, scanCalls .usual [] callback = .ok sites ∧
      s ∈ sites ∧ p s = true := by
  obtain ⟨sites, hsites, h⟩ := exists_of_any_toOption h
  obtain ⟨s, hs, hp⟩ := List.any_eq_true.1 h
  exact ⟨sites, s, hsites, hs, hp⟩

end waiting

/-- The first state is set later, since the effect itself waits before. -/
theorem scanCalls_waiting :
    ∃ sites s steps, scanCalls .usual [] waiting.callback = .ok sites ∧
    s ∈ sites ∧ s.call ≠ waiting.callback ∧ s.call.calleeKey? = some "setV" ∧
    waiting.callback.Descent steps s.call ∧ s.deferred = true ∧
    ((∃ g ∈ nestedAround waiting.callback steps, HandedLater .usual g) ∨
      (ownFunction waiting.callback steps).isAsync = true ∧
        ∃ a, Awaits (ownFunction waiting.callback steps) a ∧
          a.stop ≤ s.call.stop ∧ a.encloses s.call = false) := by
  obtain ⟨sites, s, hsites, hs, h⟩ := waiting.exists_site
    (p := fun s => s.call.calleeKey? == some "setV" && s.deferred)
      (by decide +kernel)
  simp only [Bool.and_eq_true, beq_iff_eq] at h
  obtain ⟨hkey, hlater⟩ := h
  have hbelow : s.call ≠ waiting.callback := by
    intro hself
    rw [hself] at hkey
    exact absurd hkey (by decide +kernel)
  obtain ⟨steps, hsteps, hexact, -⟩ :=
    scanCalls_deferred_iff .usual [] hsites hs hbelow
  exact ⟨sites, s, steps, hsites, hs, hbelow, hkey, hsteps, hlater,
    hexact.1 hlater⟩

/-- The other state is set behind the same `await`, but in a callback: it is
not found to be set later. -/
theorem scanCalls_forgets_await :
    ∃ sites s, scanCalls .usual [] waiting.callback = .ok sites ∧ s ∈ sites ∧
    s.call.calleeKey? = some "setW" ∧ s.call ∈ waiting.callback.walk ∧
      waiting.callback.isAsync = true ∧
    Awaits waiting.callback waiting.pause ∧ waiting.pause.stop ≤ s.call.start ∧
    s.call.start < s.call.stop ∧ s.deferred = false := by
  obtain ⟨sites, s, hsites, hs, h⟩ := waiting.exists_site (p := fun s =>
    s.call.calleeKey? == some "setW" && !s.deferred &&
      decide (waiting.pause.stop ≤ s.call.start) &&
      decide (s.call.start < s.call.stop)) (by decide +kernel)
  simp only [Bool.and_eq_true, decide_eq_true_eq, Bool.not_eq_true',
    beq_iff_eq] at h
  obtain ⟨⟨⟨hkey, hnow⟩, hbehind⟩, hsolid⟩ := h
  have hmet := met_scanTree _ _ _ _ _ hsites s hs
  exact ⟨sites, s, hsites, hs, hkey, hmet.below, rfl, waiting.awaits_pause,
    hbehind, hsolid, hnow⟩

end Update

end RenderLoop
