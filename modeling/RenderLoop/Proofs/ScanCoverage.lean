import RenderLoop.Proofs.EffectVerdict
import RenderLoop.Proofs.FunctionBodies
import RenderLoop.Proofs.WrappedCallbacks

/-!
# Which calls a scan lists

A scan goes through all of a function except for some of the functions nested
in it: those that are to be skipped, and the callbacks of hooks. Everything
else is gone through in order.

> `Update.calls_scanTree`: the calls that are listed are those of the walk
> that no such function hides, as often and in the order in which the walk
> lists them.

A callback of a hook is one that is handed to it: it is an argument, by
itself, in parentheses or with an `as` (`Update.HandedTo`). Other wrappers
hide the call, and then the callback is gone through as well.

The induction is over the tree. At a nested function that is not entered the
scan lists nothing, and all the calls of the walk are hidden there; at every
other node it lists the node, if it is a call, and goes on with the children.
A node below a child is hidden iff a function below that child hides it
(`hiddenBelow_of_mem_children`), so the two lists agree child by child.
-/

namespace RenderLoop

namespace Node

variable {n : Node}

/-- Above a node that stands above another one is what remains above the
other. -/
theorem ancestors_of_split {above : List Tree} {ws rest : List Node}
    (h : chain above = ws ++ n :: rest) :
    rest = n.ancestors := by
  induction above generalizing ws with
  | nil => cases ws <;> cases h
  | cons t ts ih =>
    cases ws with
    | nil =>
      obtain ⟨rfl, rfl⟩ := List.cons.inj h
      rfl
    | cons w ws => exact ih (List.cons.inj h).2

theorem parent?_eq_some {p : Node} :
    n.parent? = some p ↔ n.ancestors = p :: p.ancestors := by
  obtain ⟨tree, above⟩ := n
  cases above with
  | nil => simp [parent?, ancestors, chain]
  | cons t ts =>
    constructor
    · intro h
      cases h
      rfl
    · intro h
      exact congrArg some (List.cons.inj h).1

end Node

namespace Update

variable {ctx : Context} {skip : List Key} {own : Key} {top c g n : Node}

/-! ### Handing over -/

/-- A function is an argument of a call or construction, by itself, in
parentheses or with an `as`. -/
def HandedTo (g call : Node) : Prop :=
  call.kind.isCall = true ∧ ∃ (ws : List Node) (list : Node),
    list.kind = .arguments ∧
    (∀ w ∈ ws, w.kind = .parenthesized ∨ w.kind = .asExpression) ∧
    g.ancestors = ws ++ list :: call :: call.ancestors

/-- The climb from a function arrives at the call that it is handed to. -/
theorem receivingCall?_eq_some_iff {call : Node} :
    receivingCall? g = some call ↔ HandedTo g call := by
  unfold HandedTo
  constructor
  · intro h
    unfold receivingCall? at h
    split at h
    · next list hlist =>
      obtain ⟨-, ws, rest, hup, hws⟩ := List.find?_eq_some_iff_append.1 hlist
      obtain rfl := Node.ancestors_of_split hup
      split at h
      · next hkind =>
        split at h
        · next call' hparent =>
          split at h
          · next hcall =>
            cases h
            refine ⟨hcall, ws, list, beq_iff_eq.1 hkind, fun w hw => ?_, ?_⟩
            · exact isArgumentWrapper_iff.1 (by simpa using hws w hw)
            · rw [← Node.parent?_eq_some.1 hparent, hup]
          · cases h
        · cases h
      · cases h
    · cases h
  · rintro ⟨hcall, ws, list, hkind, hws, hup⟩
    have hlist : g.parentBeyond? isArgumentWrapper = some list := by
      refine List.find?_eq_some_iff_append.2
        ⟨by simp [hkind, isArgumentWrapper], ws, _, hup, fun w hw => ?_⟩
      simpa using isArgumentWrapper_iff.2 (hws w hw)
    have hparent : list.parent? = some call :=
      Node.parent?_eq_some.2 (Node.ancestors_of_split hup).symm
    unfold receivingCall?
    simp [hlist, hkind, hparent, hcall]

/-- A scan does not go into a nested function. -/
def Barred (ctx : Context) (skip : List Key) (g : Node) : Prop :=
  g.key ∈ skip ∨ ∃ call, HandedTo g call ∧ call.kind = .call ∧
    isHookCall ctx call = true

instance : DecidablePred (Barred ctx skip) := fun g =>
  decidable_of_iff (g.key ∈ skip ∨
      (receivingCall? g).any
        (fun call => call.kind == .call && isHookCall ctx call) = true) <| by
    simp only [Barred, Option.any_eq_true, Bool.and_eq_true, beq_iff_eq,
      receivingCall?_eq_some_iff]

/-- A nested function is not entered iff it is barred. -/
theorem enter?_eq_none_iff {scope : Scope} {inner : Option Scope}
    (h : scope.enter? ctx skip g = .ok inner) :
    inner = none ↔ Barred ctx skip g := by
  unfold Barred
  simp only [← receivingCall?_eq_some_iff]
  unfold Scope.enter? at h
  simp only at h
  split at h
  · next hskip =>
    cases h
    simp [List.contains_iff_mem.1 hskip]
  · next hskip =>
    have hskip : g.key ∉ skip :=
      fun hmem => hskip (List.contains_iff_mem.2 hmem)
    cases hreceiver : receivingCall? g with
    | none =>
      rw [hreceiver] at h
      cases h
      simp [hskip]
    | some receiver =>
      rw [hreceiver] at h
      simp only at h
      split at h
      · next hhook =>
        cases h
        simpa [hskip] using hhook
      · next hhook =>
        obtain ⟨later, -, h⟩ := bind_eq_ok.1 h
        cases h
        simpa [hskip] using hhook

/-! ### What is hidden -/

/-- A nested function that a scan does not go into stands around a node, or is
it. -/
def HiddenBelow (ctx : Context) (skip : List Key) (own : Key) (top n : Node) :
    Prop :=
  ∃ g ∈ top.walk, isNested own g = true ∧ Barred ctx skip g ∧ n ∈ g.walk

/-- A call that a scan from a node on arrives at. -/
def Listed (ctx : Context) (skip : List Key) (own : Key) (top n : Node) :
    Prop :=
  n.kind.isCall = true ∧ ¬ HiddenBelow ctx skip own top n

noncomputable instance : DecidablePred (Listed ctx skip own top) :=
  fun _ => Classical.propDecidable _

/-- Whether a node is hidden is decided below the child that it is in, if the
node above is entered. -/
theorem hiddenBelow_of_mem_children (hc : c ∈ top.children) (hn : n ∈ c.walk)
    (htop : ¬ (isNested own top = true ∧ Barred ctx skip top)) :
    HiddenBelow ctx skip own top n ↔ HiddenBelow ctx skip own c n := by
  constructor
  · rintro ⟨g, hg, hnested, hbarred, hng⟩
    rcases Node.mem_walk_of_below hc hn hg hng with rfl | hg
    · exact absurd ⟨hnested, hbarred⟩ htop
    · exact ⟨g, hg, hnested, hbarred, hng⟩
  · rintro ⟨g, hg, hrest⟩
    exact ⟨g, Node.mem_walk_iff.2 (.inr ⟨c, hc, hg⟩), hrest⟩

/-- The node at the top is listed iff it is a call. -/
theorem listed_self (htop : isNested own top = false) :
    Listed ctx skip own top top ↔ top.kind.isCall = true := by
  refine and_iff_left ?_
  rintro ⟨g, hg, hnested, -, htopg⟩
  rw [Node.eq_of_mem_walk_of_mem_walk hg htopg, htop] at hnested
  cases hnested

/-- Below a node that hides nothing by itself, what is listed is listed child
by child. -/
theorem filter_listed_children
    (htop : ¬ (isNested own top = true ∧ Barred ctx skip top)) :
    (top.children.flatMap Node.walk).filter (Listed ctx skip own top) =
      top.children.flatMap fun c => c.walk.filter (Listed ctx skip own c) := by
  rw [List.filter_flatMap]
  refine List.flatMap_congr fun c hc => List.filter_congr fun n hn => ?_
  exact decide_eq_decide.2 (and_congr_right fun _ =>
    not_congr (hiddenBelow_of_mem_children hc hn htop))

mutual

/-- A scan lists the calls of a walk that nothing hides from it. -/
theorem calls_scanTree (own : Key) (above : List Tree) (scope : Scope) :
    ∀ (t : Tree) (sites : List Site),
      scanTree ctx skip own above scope t = .ok sites →
      sites.map (·.call) = (⟨t, above⟩ : Node).walk.filter
        (Listed ctx skip own ⟨t, above⟩)
  | .node l cs, sites, h => by
    rw [scanTree] at h
    rw [Node.walk_eq_cons]
    split at h
    · next hnested =>
      have hnested : isNested own ⟨.node l cs, above⟩ = true := hnested
      obtain ⟨inner, henter, h⟩ := bind_eq_ok.1 h
      have hbarred := enter?_eq_none_iff henter
      cases inner with
      | none =>
        -- not entered: the function itself hides all that lies below it
        cases h
        refine (List.filter_eq_nil_iff.2 fun n hn => ?_).symm
        rw [← Node.walk_eq_cons] at hn
        simp only [decide_eq_true_eq]
        exact fun hlisted =>
          hlisted.2 ⟨_, Node.mem_walk_self _, hnested, hbarred.1 rfl, hn⟩
      | some inner =>
        have hfree : ¬ Barred ctx skip ⟨.node l cs, above⟩ :=
          fun h => absurd (hbarred.2 h) (by simp)
        have hcall : ¬ (⟨.node l cs, above⟩ : Node).kind.isCall = true :=
          fun hcall => by
          simp [isNested, isFunction_of_isCall hcall] at hnested
        rw [List.filter_cons_of_neg (by simp [Listed, hcall]),
          filter_listed_children fun h => hfree h.2]
        exact calls_scanTrees own _ inner cs sites h
    · next hplain =>
      have hplain : isNested own ⟨.node l cs, above⟩ = false :=
        Bool.eq_false_iff.2 hplain
      obtain ⟨found, hfound, h⟩ := bind_eq_ok.1 h
      cases h
      have hbelow := calls_scanTrees own _ scope cs found hfound
      have hfree : ¬ (isNested own ⟨.node l cs, above⟩ = true ∧
          Barred ctx skip ⟨.node l cs, above⟩) := by
        simp [hplain]
      split
      · next hcall =>
        rw [List.filter_cons_of_pos
          (by simpa using (listed_self hplain).2 hcall),
          filter_listed_children hfree, List.map_cons, hbelow]
        rfl
      · next hcall =>
        rw [List.filter_cons_of_neg
          (by simpa using mt (listed_self hplain).1 hcall),
          filter_listed_children hfree, hbelow]
        rfl

theorem calls_scanTrees (own : Key) (above : List Tree) (scope : Scope) :
    ∀ (ts : List Tree) (sites : List Site),
      scanTrees ctx skip own above scope ts = .ok sites →
      sites.map (·.call) =
        (ts.map fun t => (⟨t, above⟩ : Node)).flatMap fun c =>
        c.walk.filter (Listed ctx skip own c)
  | [], sites, h => by
    cases h
    rfl
  | t :: ts, sites, h => by
    rw [scanTrees] at h
    obtain ⟨first, hfirst, h⟩ := bind_eq_ok.1 h
    obtain ⟨rest, hrest, h⟩ := bind_eq_ok.1 h
    cases h
    rw [List.map_append, List.map_cons, List.flatMap_cons,
      calls_scanTree own above scope t first hfirst,
      calls_scanTrees own above scope ts rest hrest]

end

/-! ### The calls of a function -/

/-- A function on the way down from another one stands above what lies below
it. -/
theorem mem_way {fn : Node} {way : List Node}
    (hnested : isNested fn.key g = true) (hg : g ∈ fn.walk)
    (hn : n ∈ g.walk) (hne : n ≠ g) (hway : n.ancestors = way ++ fn.ancestors) :
    g ∈ way := by
  have hfn : g ≠ fn := by
    rintro rfl
    simp [isNested] at hnested
  obtain ⟨lower, hlower⟩ :=
    (Node.exists_descent_of_mem_walk hn).resolve_left hne
  obtain ⟨upper, hupper⟩ :=
    (Node.exists_descent_of_mem_walk hg).resolve_left hfn
  rw [hlower.ancestors_eq, hupper.ancestors_eq] at hway
  -- the way down to the node is the way to the function and then the way from
  -- there
  have hsplit : (lower.map (·.2) ++ g :: (upper.map (·.2) ++ [fn])) ++
      fn.ancestors = way ++ fn.ancestors := by
    simpa using hway
  rw [← List.append_cancel_right hsplit]
  simp

/-- What stands in a callback that runs later runs later, however deep. -/
theorem deferred_of_handedTo {fn call : Node} {sites : List Site}
    (h : scanCalls ctx skip fn = .ok sites) {s : Site} (hs : s ∈ sites)
    (hnested : isNested fn.key g = true) (hg : g ∈ fn.walk)
    (hbelow : s.call ∈ g.walk) (hhanded : HandedTo g call)
    (hlater : callsBackLater ctx call = .ok true) :
    s.deferred = true := by
  obtain ⟨hcall, -, way, hway, hdefers⟩ :=
    met_scanTree fn.key fn.above _ fn.tree sites h s hs
  have hne : s.call ≠ g := by
    rintro rfl
    simp [isNested, isFunction_of_isCall hcall] at hnested
  have hmem : g ∈ way.filter (isNested fn.key) :=
    List.mem_filter.2 ⟨mem_way hnested hg hbelow hne hway, hnested⟩
  exact hdefers.2 (.inl
    (.inr ⟨g, hmem, call, receivingCall?_eq_some_iff.2 hhanded, hlater⟩))

/-- The calls of a function that are listed are all of its calls and
constructions, each once and in preorder, but for those in a nested function
that is to be skipped or is handed to a hook. Those in one that is handed to
something that calls back later are marked as such. Of the functions among the
arguments of a call, the ones handed to it are those that no wrapper but
parentheses and `as` stands around. -/
theorem scanCalls_covers (ctx : Context) (skip : List Key) (fn : Node) :
    (ctx.options.WellFormed → ∃ sites, scanCalls ctx skip fn = .ok sites) ∧
    (∀ sites, scanCalls ctx skip fn = .ok sites →
      sites.map (·.call) = fn.walk.filter (Listed ctx skip fn.key fn) ∧
      (fn.WellSpaced → (sites.map (·.call)).Nodup) ∧
      ∀ s ∈ sites, ∀ g ∈ fn.walk, isNested fn.key g = true → s.call ∈ g.walk →
        ∀ call, HandedTo g call → callsBackLater ctx call = .ok true →
          s.deferred = true) ∧
    ∀ call a, call.kind.isCall = true → a ∈ call.arguments →
      (HandedTo a.bare call ↔ ∀ w ∈ a.bare.wrappers, w.kind = .parenthesized ∨
        w.kind = .asExpression) := by
  refine ⟨fun h => exists_scanCalls h skip fn, fun sites h => ?_,
    fun call a hcall ha => ?_⟩
  · have hcalls : sites.map (·.call) =
        fn.walk.filter (Listed ctx skip fn.key fn) :=
      calls_scanTree fn.key fn.above _ fn.tree sites h
    refine ⟨hcalls, fun hspaced => ?_,
      fun s hs g hg hnested hbelow call hhanded hlater => ?_⟩
    · rw [hcalls]
      exact (Node.nodup_walk hspaced).filter _
    · exact deferred_of_handedTo h hs hnested hg hbelow hhanded hlater
  · rw [← receivingCall?_eq_some_iff]
    exact receivingCall?_bare hcall ha

/-- A function that hands three callbacks over: to a hook but said to be
there, to a hook, and to a timer. -/
def handing : Node := (Sketch.program [.function "load" []
  [.run (.call "useEffect"
      [.nonNull (.parenthesized (.arrow [.run (.call "setV" [.number "1"])])),
        .array []]),
    .run (.call "useEffect" [.arrow [.run (.call "setW" [.number "1"])],
      .array []]),
    .run (.call "setTimeout"
      [.typed (.parenthesized (.arrow
        [.run (.call "each" [.arrow [.run (.call "setX" [.number "1"])]])]))
          "Run", .number "9"])]]).at [0]

namespace handing

/-- The first hook. -/
def hook : Node := handing.at [2, 0, 0]

/-- The call in the callback of the first hook. -/
def unheeded : Node := hook.at [1, 0, 0, 0, 1, 0, 0]

/-- The timer, its callback, and the call in the callback of that. -/
def timer : Node := handing.at [2, 2, 0]

def later : Node := timer.at [1, 0, 0, 0]

def latest : Node := later.at [1, 0, 0, 1, 0, 1, 0, 0]

/-- In a tree whose nodes have different keys, hidden nodes can be told by
their keys. -/
theorem listed_of_keys {call : Node} (hcall : call.kind.isCall = true)
    (h : ∀ g ∈ handing.walk, isNested handing.key g = true →
      Barred .usual [] g → ∀ m ∈ g.walk, m.key ≠ call.key) :
      Listed .usual [] handing.key handing call := by
  refine ⟨hcall, ?_⟩
  rintro ⟨g, hg, hnested, hbarred, hmem⟩
  exact h g hg hnested hbarred call hmem rfl

end handing

open handing in
/-- What the callback of the timer hands on is listed, and found to run
later. -/
theorem scanCalls_covers_handing :
    ∃ sites, scanCalls .usual [] handing = .ok sites ∧
    sites.map (·.call) =
      handing.walk.filter (Listed .usual [] handing.key handing) ∧
    ∃ s ∈ sites, s.call = latest ∧ s.deferred = true := by
  obtain ⟨hexists, hcovers, -⟩ := scanCalls_covers .usual [] handing
  obtain ⟨sites, hsites⟩ := hexists Check.wellFormed_usual
  obtain ⟨hcalls, -, hdeferred⟩ := hcovers sites hsites
  have hlatest : latest ∈ sites.map (·.call) := by
    rw [hcalls, List.mem_filter]
    have hmem : latest ∈ handing.walk :=
      Node.mem_walk_trans (later.at_mem_walk _)
        (Node.mem_walk_trans (timer.at_mem_walk _) (handing.at_mem_walk _))
    exact ⟨hmem, decide_eq_true (listed_of_keys rfl (by decide +kernel))⟩
  obtain ⟨s, hs, hcall⟩ := List.mem_map.1 hlatest
  refine ⟨sites, hsites, hcalls, s, hs, hcall, ?_⟩
  refine hdeferred s hs later ?_ rfl ?_ timer
    (receivingCall?_eq_some_iff.1 rfl) rfl
  · exact Node.mem_walk_trans (timer.at_mem_walk _) (handing.at_mem_walk _)
  · rw [hcall]
    exact later.at_mem_walk _

open handing in
/-- The callback of the first hook is gone through as well. -/
theorem scanCalls_enters_wrapped_callback :
    hook.kind = .call ∧ isHookCall .usual hook = true ∧
    hook.at [1, 0] ∈ hook.arguments ∧ (hook.at [1, 0]).bare.isFunction = true ∧
    unheeded ∈ (hook.at [1, 0]).bare.walk ∧
    ∃ sites s, scanCalls .usual [] handing = .ok sites ∧ s ∈ sites ∧
      s.call = unheeded := by
  obtain ⟨sites, hsites⟩ := exists_scanCalls Check.wellFormed_usual [] handing
  have hcalls : sites.map (·.call) =
      handing.walk.filter (Listed .usual [] handing.key handing) :=
    calls_scanTree handing.key handing.above _ handing.tree sites hsites
  have hmem : unheeded ∈ sites.map (·.call) := by
    rw [hcalls, List.mem_filter]
    exact ⟨Node.mem_walk_trans (hook.at_mem_walk _) (handing.at_mem_walk _),
      decide_eq_true (listed_of_keys rfl (by decide +kernel))⟩
  obtain ⟨s, hs, hcall⟩ := List.mem_map.1 hmem
  refine ⟨rfl, by decide +kernel, List.mem_of_getElem? (i := 0) rfl, rfl, ?_,
    sites, s, hsites, hs, hcall⟩
  exact (hook.at [1, 0, 0, 0]).at_mem_walk [1, 0, 0]

end Update

end RenderLoop
