import RenderLoop.Proofs.CallGraph
import RenderLoop.Proofs.Sketch

/-!
# What a helper map says

A helper map is made in two steps: the contributions of all helpers give the
call graph and the setters that each helper calls itself, and propagation
takes these along the edges. `exists_spreads` puts the two together.

> `build_reaches_exact`: the setters recorded for a helper lie at the ends of
> paths of the graph, and with up to fifty helpers all of these are recorded.
> Mutual recursion and the order of the definitions make no difference.

> `build_marks_edges`: an edge is immediate iff its target is called at once
> and not handed over after that, and what the target then reaches at once the
> source does too.

Handing a helper to a timer behind a call of it makes the edge deferred, so
that the call is lost (`build_hidesCall`).

Both halves meet in `Spreads`, which says of a map and its edges what
propagation needs to know: the edges join helpers, the start holds what each
helper sets itself, and the map holds the result. The reach of a helper is
then a path in the graph (`Spreads.reachesNow_iff`,
`Spreads.reachesLater_iff`), and exactness is what propagation gives for
derivations, within the rounds that it takes.
-/

namespace RenderLoop

namespace Update

/-- The setters that each helper calls itself, or hands over. -/
def directOf (contributed : List (String × List Contribution)) (later : Bool) :
    Table (List String) :=
  contributed.map fun e => (e.1, (e.2.filterMap (updatesOf later)).eraseDups)

theorem names_directOf (contributed : List (String × List Contribution))
    (later : Bool) :
    (directOf contributed later).names = contributed.map (·.1) := by
  unfold directOf Table.names
  rw [List.map_map]
  rfl

/-- The setters that contributions update, at once or later. -/
theorem mem_updates {cs : List Contribution} {later : Bool} {s : String} :
    s ∈ (cs.filterMap (updatesOf later)).eraseDups ↔ .update s later ∈ cs := by
  rw [List.mem_eraseDups, List.mem_filterMap]
  constructor
  · intro hex
    obtain ⟨c, hc, hs⟩ := hex
    cases c with
    | update setter deferred =>
      simp only [updatesOf] at hs
      split at hs
      · next hd =>
        obtain rfl : deferred = later := by simpa using hd
        cases hs
        exact hc
      · cases hs
    | invoke target deferred => cases hs
    | handOver target => cases hs
  · intro hc
    exact ⟨_, hc, by simp [updatesOf]⟩

/-- Where no helper is listed twice, the setters it starts with are those that
it contributes itself. -/
theorem mem_settersIn_directOf {contributed : List (String × List Contribution)}
    (hnodup : (contributed.map (·.1)).Nodup) {later : Bool} {name s : String} :
    s ∈ settersIn (directOf contributed later) name ↔
      ∃ cs, (name, cs) ∈ contributed ∧ .update s later ∈ cs := by
  rw [mem_settersIn (by rw [names_directOf]; exact hnodup)]
  unfold directOf
  constructor
  · intro hex
    obtain ⟨found, hfound, hs⟩ := hex
    obtain ⟨e, he, heq⟩ := List.mem_map.1 hfound
    cases heq
    exact ⟨e.2, he, mem_updates.1 hs⟩
  · intro hex
    obtain ⟨cs, hcs, hs⟩ := hex
    exact ⟨_, List.mem_map.2 ⟨_, hcs, rfl⟩, mem_updates.2 hs⟩

end Update

open Update

namespace HelperMap

variable {ctx : Context} {setters : List String} {root : Node} {m : HelperMap}
  {f g : String}

/-! ### Contributions of all helpers -/

/-- The contributions of all helpers of a file. -/
def Contributed (ctx : Context) (setters : List String) (root : Node)
    (contributed : List (String × List Contribution)) : Prop :=
  (Update.definitions ctx root).mapM (fun e => do
    return (e.1, ← contributions ctx setters (Update.definitions ctx root) e.1
      e.2)) = .ok contributed

/-- What propagation makes of the contributions. -/
def reachOf (names : List String)
    (contributed : List (String × List Contribution)) : Reach :=
  Reach.propagate (inVisitingOrder names (edgesOf contributed [])) maxRounds
    ⟨directOf contributed false, directOf contributed true⟩

/-- A helper map is made from the contributions of all helpers. -/
theorem exists_contributed (h : build ctx setters root = .ok m) :
    ∃ contributed, Contributed ctx setters root contributed ∧
      m.definitions = Update.definitions ctx root ∧
        m.edges = edgesOf contributed [] ∧
      m.reaches = (reachOf m.definitions.names contributed).now.filter
        (fun e => !e.2.isEmpty) ∧
      m.deferred = (reachOf m.definitions.names contributed).later.filter
        (fun e => !e.2.isEmpty) := by
  obtain ⟨contributed, hcontributed, h⟩ := bind_eq_ok.1 h
  cases h
  refine ⟨contributed, hcontributed, rfl, rfl, ?_, ?_⟩
  · rfl
  · rfl

/-- With patterns that compile, there is always a helper map. -/
theorem exists_build (hctx : ctx.options.WellFormed) (setters : List String)
    (root : Node) :
    ∃ m, build ctx setters root = .ok m := by
  apply exists_bind
  · apply exists_mapM
    intro e _
    obtain ⟨cs, hcs⟩ :=
      exists_contributions hctx setters (Update.definitions ctx root) e.1 e.2
    exact ⟨_, bind_eq_ok.2 ⟨cs, hcs, rfl⟩⟩
  · intro contributed
    exact ⟨_, rfl⟩

section

variable {contributed : List (String × List Contribution)}

theorem Contributed.names (h : Contributed ctx setters root contributed) :
    contributed.map (·.1) = (Update.definitions ctx root).names := by
  refine map_of_mapM (fun e b hb => ?_) h
  obtain ⟨cs, -, hb⟩ := bind_eq_ok.1 hb
  cases hb
  rfl

/-- Contributions are listed once for each helper. -/
theorem Contributed.nodup (h : Contributed ctx setters root contributed) :
    (contributed.map (·.1)).Nodup := by
  rw [h.names]
  exact nodup_names_definitions ctx root

theorem Contributed.exists_of_mem (h : Contributed ctx setters root contributed)
    (hf : f ∈ (Update.definitions ctx root).names) :
    ∃ cs, (f, cs) ∈ contributed := by
  rw [← h.names] at hf
  obtain ⟨e, he, rfl⟩ := List.mem_map.1 hf
  exact ⟨e.2, he⟩

/-- What a helper contributes comes from its calls. -/
theorem Contributed.exists_sites (h : Contributed ctx setters root contributed)
    {cs : List Contribution} (hcs : (f, cs) ∈ contributed) :
    ∃ sites parts, callsOf ctx root f = .ok sites ∧
      sites.mapM (ofSite ctx setters (Update.definitions ctx root) f) =
        .ok parts ∧
      cs = parts.flatten := by
  obtain ⟨e, he, hb⟩ := (mem_of_mapM h).1 hcs
  obtain ⟨cs', hcs', hb⟩ := bind_eq_ok.1 hb
  cases hb
  have hfns := (Table.get?_eq_some_iff (nodup_names_definitions ctx root)).2 he
  exact exists_callsOf hfns hcs'

/-- A contribution of a helper is one of the contributions of one of its
calls. -/
theorem Contributed.mem_iff (h : Contributed ctx setters root contributed)
    {c : Contribution} :
    (∃ cs, (f, cs) ∈ contributed ∧ c ∈ cs) ↔
      ∃ sites, callsOf ctx root f = .ok sites ∧ ∃ s ∈ sites, ∃ part,
        ofSite ctx setters (Update.definitions ctx root) f s =
          .ok part ∧ c ∈ part := by
  constructor
  · intro hex
    obtain ⟨cs, hcs, hc⟩ := hex
    obtain ⟨sites, parts, hsites, hparts, rfl⟩ := h.exists_sites hcs
    obtain ⟨part, hpart, hc⟩ := List.mem_flatten.1 hc
    obtain ⟨s, hs, hof⟩ := (mem_of_mapM hparts).1 hpart
    exact ⟨sites, hsites, s, hs, part, hof, hc⟩
  · intro hex
    obtain ⟨sites, hsites, s, hs, part, hof, hc⟩ := hex
    obtain ⟨cs, hcs⟩ := h.exists_of_mem (mem_names_of_callsOf hsites hs)
    obtain ⟨sites', parts, hsites', hparts, rfl⟩ := h.exists_sites hcs
    obtain rfl : sites = sites' := Except.ok.inj (hsites.symm.trans hsites')
    exact ⟨_, hcs, List.mem_flatten.2
      ⟨part, (mem_of_mapM hparts).2 ⟨s, hs, hof⟩, hc⟩⟩

/-- Every listed call has contributions. -/
theorem Contributed.exists_ofSite (h : Contributed ctx setters root contributed)
    {sites : List Site} (hsites : callsOf ctx root f = .ok sites) {s : Site}
    (hs : s ∈ sites) :
    ∃ part, ofSite ctx setters (Update.definitions ctx root) f
      s = .ok part := by
  obtain ⟨cs, hcs⟩ := h.exists_of_mem (mem_names_of_callsOf hsites hs)
  obtain ⟨sites', parts, hsites', hparts, -⟩ := h.exists_sites hcs
  obtain rfl : sites = sites' := Except.ok.inj (hsites.symm.trans hsites')
  exact exists_of_mapM hparts hs

/-- The setters that a helper contributes are those that it sets itself. -/
theorem Contributed.update_iff (h : Contributed ctx setters root contributed)
    {later : Bool} {setter : String} :
    (∃ cs, (f, cs) ∈ contributed ∧ .update setter later ∈ cs) ↔
      SetsItself ctx setters root f later setter := by
  rw [h.mem_iff]
  constructor
  · intro hex
    obtain ⟨sites, hsites, s, hs, part, hof, hc⟩ := hex
    obtain ⟨hset, hdoes⟩ := (update_mem_ofSite hof).1 hc
    exact ⟨hset, sites, hsites, s, hs, hdoes⟩
  · intro hex
    obtain ⟨hset, sites, hsites, s, hs, hdoes⟩ := hex
    obtain ⟨part, hof⟩ := h.exists_ofSite hsites hs
    exact ⟨sites, hsites, s, hs, part, hof,
      (update_mem_ofSite hof).2 ⟨hset, hdoes⟩⟩

/-- The edges of a helper are marked by what it contributes. -/
theorem Contributed.marked (h : Contributed ctx setters root contributed)
    {cs : List Contribution} (hcs : (f, cs) ∈ contributed) :
    Marked (edgesOf contributed []) f g
      (cs.foldl (Contribution.mark g) none) := by
  apply marked_edgesOf _ h.nodup hcs
  intro deferred
  simp

/-- One helper leads to another iff one of its calls is a call of the other or
hands it over. -/
theorem Contributed.leads_iff (h : Contributed ctx setters root contributed) :
    Leads (edgesOf contributed []) f g ↔
      ∃ sites, callsOf ctx root f = .ok sites ∧
        IsTarget setters (Update.definitions ctx root) f g ∧
        ∃ s ∈ sites, s.call.calleeKey? = some g ∨ HandsOver ctx s g := by
  constructor
  · intro hex
    obtain ⟨deferred, hedge⟩ := hex
    by_cases hf : f ∈ contributed.map (·.1)
    · rw [h.names] at hf
      obtain ⟨cs, hcs⟩ := h.exists_of_mem hf
      have hmark := (h.marked hcs deferred).1 hedge
      have hsome : ¬ ∀ c ∈ cs, c.target? ≠ some g := by
        intro hnone
        rw [foldl_mark_eq_none.2 ⟨rfl, hnone⟩] at hmark
        cases hmark
      push Not at hsome
      obtain ⟨c, hc, hg⟩ := hsome
      obtain ⟨sites, hsites, s, hs, part, hof, hc⟩ := h.mem_iff.1 ⟨cs, hcs, hc⟩
      obtain ⟨htarget, hdoes⟩ := (exists_target_mem_ofSite hof).1 ⟨c, hc, hg⟩
      exact ⟨sites, hsites, htarget, s, hs, hdoes⟩
    · -- a name that contributes nothing has no edges
      have hnone : Marked (edgesOf contributed []) f g none := by
        apply marked_edgesOf_of_not_mem _ hf
        intro d
        simp
      cases (hnone deferred).1 hedge
  · intro hex
    obtain ⟨sites, hsites, htarget, s, hs, hdoes⟩ := hex
    obtain ⟨part, hof⟩ := h.exists_ofSite hsites hs
    obtain ⟨c, hc, hg⟩ := (exists_target_mem_ofSite hof).2 ⟨htarget, hdoes⟩
    obtain ⟨cs, hcs, hc⟩ := h.mem_iff.2 ⟨sites, hsites, s, hs, part, hof, hc⟩
    cases hmark : cs.foldl (Contribution.mark g) none with
    | none => exact absurd hg ((foldl_mark_eq_none.1 hmark).2 c hc)
    | some deferred => exact ⟨deferred, (h.marked hcs deferred).2 hmark⟩

end

/-! ### Propagation in a helper map -/

/-- A helper reaches a setter while it runs: at the end of a path without
deferred edges it is set at once. -/
def ReachesNow (m : HelperMap) (ctx : Context) (setters : List String)
    (root : Node) (f setter : String) : Prop :=
  ∃ g, PathNow m.edges f g ∧ SetsItself ctx setters root g false setter

/-- A helper reaches a setter later: at the end of some path it is set later,
or at the end of a path with a deferred edge it is set at once. -/
def ReachesLater (m : HelperMap) (ctx : Context) (setters : List String)
    (root : Node) (f setter : String) : Prop :=
  (∃ g, PathAny m.edges f g ∧ SetsItself ctx setters root g true setter) ∨
    ∃ g, PathLater m.edges f g ∧ SetsItself ctx setters root g false setter

/-- A helper map records what comes along its edges from the helpers that set
something themselves. -/
structure Spreads (ctx : Context) (setters : List String) (root : Node)
    (m : HelperMap) (edges : List CallEdge) (start : Reach) : Prop where
  edges_iff : ∀ e, e ∈ edges ↔ e ∈ m.edges
  ends : ∀ e ∈ edges, e.source ∈ m.definitions.names ∧
    e.target ∈ m.definitions.names
  own : ∀ later f s, s ∈ start.setters later f ↔
    SetsItself ctx setters root f later s
  now : ∀ f s, s ∈ m.settersNow f ↔
    s ∈ (start.propagate edges maxRounds).setters false f
  later : ∀ f s, s ∈ m.settersLater f ↔
    s ∈ (start.propagate edges maxRounds).setters true f

/-- The map is what propagation makes of the helpers' own updates along the
edges of the call graph. -/
theorem exists_spreads (h : build ctx setters root = .ok m) :
    ∃ edges start, Spreads ctx setters root m edges start := by
  obtain ⟨contributed, hcontributed, hdefs, hedges, hnow, hlater⟩ :=
    exists_contributed h
  have hends : ∀ e ∈ m.edges, e.source ∈ m.definitions.names ∧
      e.target ∈ m.definitions.names := by
    intro e he
    rw [hedges] at he
    obtain ⟨sites, hsites, htarget, s, hs, -⟩ :=
      hcontributed.leads_iff.1 (leads_of_mem he)
    rw [hdefs]
    exact ⟨mem_names_of_callsOf hsites hs, htarget.2.1⟩
  have horder : ∀ e, e ∈ inVisitingOrder m.definitions.names m.edges ↔
      e ∈ m.edges := by
    intro e
    exact mem_inVisitingOrder fun x hx => (hends x hx).1
  have htidy : Tidy (reachOf m.definitions.names contributed) := by
    apply Tidy.propagate
    constructor
    · rw [names_directOf]
      exact hcontributed.nodup
    · rw [names_directOf]
      exact hcontributed.nodup
  -- the edges are visited in the order of the names, which loses none of them
  refine ⟨_, ⟨directOf contributed false, directOf contributed true⟩, horder,
    ?_, ?_, ?_, ?_⟩
  · intro e he
    exact hends e ((horder e).1 he)
  · intro later f s
    rw [← hcontributed.update_iff, ← mem_settersIn_directOf hcontributed.nodup]
    cases later with
    | false => rfl
    | true => rfl
  · intro f s
    rw [settersNow, hnow, mem_settersIn_filter htidy.now, hedges]
    rfl
  · intro f s
    rw [settersLater, hlater, mem_settersIn_filter htidy.later, hedges]
    rfl

section

variable {edges : List CallEdge} {start : Reach} {setter : String}

/-- A path that runs at once is a derivation that stays immediate. -/
theorem Spreads.reachesNow_iff (h : Spreads ctx setters root m edges start) :
    m.ReachesNow ctx setters root f setter ↔
      ∃ k, Derives edges start setter k false f := by
  rw [derives_now_iff, (paths_congr h.edges_iff).1]
  simp only [h.own]
  rfl

/-- A path with something deferred on it, or at its end, is a derivation that
is deferred. -/
theorem Spreads.reachesLater_iff (h : Spreads ctx setters root m edges start) :
    m.ReachesLater ctx setters root f setter ↔
      ∃ k, Derives edges start setter k true f := by
  rw [derives_later_iff]
  unfold PathLater
  rw [(paths_congr h.edges_iff).2]
  simp only [h.own, h.edges_iff]
  rfl

/-- With at most fifty helpers the rounds suffice. -/
theorem Spreads.exact (h : Spreads ctx setters root m edges start)
    (hfew : m.definitions.names.length ≤ 50) (hf : f ∈ m.definitions.names)
    {later : Bool} :
    setter ∈ (start.propagate edges maxRounds).setters later f ↔
      ∃ k, Derives edges start setter k later f := by
  apply mem_setters_propagate h.ends _ hf
  show 2 * m.definitions.names.length ≤ 100 + 1
  omega

/-- Only helpers have setters on record. -/
theorem isHelper_of_mem_settersNow (h : build ctx setters root = .ok m)
    (hmem : setter ∈ m.settersNow f) :
    m.isHelper f = true := by
  obtain ⟨_, -, hdefs, -⟩ := exists_contributed h
  obtain ⟨edges, start, hspreads⟩ := exists_spreads h
  obtain ⟨k, hderives⟩ :=
    sound_propagate edges maxRounds start false f setter
      ((hspreads.now ..).1 hmem)
  refine Table.contains_iff.2 ?_
  generalize false = later at hderives
  cases hderives with
  | own hown =>
    obtain ⟨-, sites, hsites, s, hs, -⟩ := (hspreads.own ..).1 hown
    rw [hdefs]
    exact mem_names_of_callsOf hsites hs
  | along he _ => exact (hspreads.ends _ he).1

end

/-- The setters recorded for a helper are reached, and if there are at most
fifty helpers all that are reached are recorded. -/
theorem build_reaches_exact (ctx : Context) (setters : List String)
    (root : Node) :
    (ctx.options.WellFormed → ∃ m, build ctx setters root = .ok m) ∧
      ∀ m, build ctx setters root = .ok m → ∀ f ∈ m.definitions.names, ∀ setter,
        (setter ∈ m.settersNow f → m.ReachesNow ctx setters root f setter) ∧
        (setter ∈ m.settersLater f → m.ReachesLater ctx setters root f setter) ∧
        (m.definitions.names.length ≤ 50 →
          (m.ReachesNow ctx setters root f setter → setter ∈ m.settersNow f) ∧
          (m.ReachesLater ctx setters root f setter →
            setter ∈ m.settersLater f)) := by
  refine ⟨fun hctx => exists_build hctx setters root, fun m h f hf setter => ?_⟩
  obtain ⟨edges, start, hspreads⟩ := exists_spreads h
  rw [hspreads.now, hspreads.later, hspreads.reachesNow_iff,
    hspreads.reachesLater_iff]
  have hsound := sound_propagate edges maxRounds start
  refine ⟨hsound false f setter, hsound true f setter, fun hfew => ⟨?_, ?_⟩⟩
  · exact (hspreads.exact hfew hf).2
  · exact (hspreads.exact hfew hf).2

/-- A call of a helper that evaluation finds. -/
theorem exists_call (root : Node) (name key : String) (deferred : Bool)
    (h : (callsOf .usual root name).toOption.any (fun sites =>
      sites.any fun s => s.call.calleeKey? == some key && s.deferred ==
        deferred) = true) :
    ∃ sites, callsOf .usual root name = .ok sites ∧
      ∃ s ∈ sites, s.call.calleeKey? = some key ∧ s.deferred = deferred := by
  cases hcalls : callsOf .usual root name with
  | error e =>
    rw [hcalls] at h
    cases h
  | ok sites =>
    rw [hcalls] at h
    obtain ⟨s, hs, hboth⟩ := List.any_eq_true.1 h
    rw [Bool.and_eq_true, beq_iff_eq, beq_iff_eq] at hboth
    exact ⟨sites, rfl, s, hs, hboth⟩

/-- Two helpers that call one another, the second one the first through a
timer. -/
def rally : SourceFile := Sketch.file "Rally.tsx"
  [.function "Rally" [] [.useState "v" "setV",
    .const (.name "ping") (.arrow [.run (.call "pong" [])]),
    .const (.name "pong") (.arrow [.run (.call "setV" [.number "1"]),
      .run (.call "setTimeout" [.arrow [.run (.call "ping" [])],
        .number "9"])])]]

namespace rally

/-- Both helpers are known, and the timer makes the edge back a deferred
one. -/
theorem exists_map : ∃ m, build .usual ["setV"] rally.root = .ok m ∧
    m.definitions.names = ["ping", "pong"] ∧
    m.edges = [⟨"ping", "pong", false⟩, ⟨"pong", "ping", true⟩] := by
  have hbuild : (build .usual ["setV"] rally.root).toOption.map (fun m =>
      (m.definitions.names, m.edges)) =
        some (["ping", "pong"],
          [⟨"ping", "pong", false⟩, ⟨"pong", "ping", true⟩]) := by
    decide +kernel
  cases h : build .usual ["setV"] rally.root with
  | error e =>
    rw [h] at hbuild
    cases hbuild
  | ok m =>
    rw [h] at hbuild
    obtain ⟨hnames, hedges⟩ := Prod.mk.inj (Option.some.inj hbuild)
    exact ⟨m, rfl, hnames, hedges⟩

/-- The second helper sets the state at once. -/
theorem setsItself :
    SetsItself .usual ["setV"] rally.root "pong" false "setV" := by
  obtain ⟨sites, hsites, s, hs, hcall⟩ :=
    exists_call rally.root "pong" "setV" false (by decide +kernel)
  exact ⟨List.mem_singleton.2 rfl, sites, hsites, s, hs, .inl hcall⟩

end rally

/-- The setter is reached at once by both helpers, and later by both: along a
path that comes back to where it started. -/
theorem build_rally : ∃ m, build .usual ["setV"] rally.root = .ok m ∧
    "setV" ∈ m.settersNow "ping" ∧ "setV" ∈ m.settersLater "ping" := by
  obtain ⟨m, hm, hnames, hedges⟩ := rally.exists_map
  have hping : "ping" ∈ m.definitions.names := by
    rw [hnames]
    exact List.mem_cons_self
  have hfew : m.definitions.names.length ≤ 50 := by
    rw [hnames]
    decide
  have hover : ⟨"ping", "pong", false⟩ ∈ m.edges := by
    rw [hedges]
    exact List.mem_cons_self
  have hback : ⟨"pong", "ping", true⟩ ∈ m.edges := by
    rw [hedges]
    exact List.mem_cons_of_mem _ List.mem_cons_self
  obtain ⟨-, -, hall⟩ :=
    (build_reaches_exact .usual ["setV"] rally.root).2 m hm "ping" hping "setV"
  obtain ⟨hnow, hlater⟩ := hall hfew
  refine ⟨m, hm, hnow ⟨"pong", .single hover, rally.setsItself⟩,
    hlater (.inr ⟨"pong", ?_, rally.setsItself⟩)⟩
  exact ⟨"pong", "ping", .single ⟨false, hover⟩, hback, .single ⟨false, hover⟩⟩

/-- An edge between two helpers is immediate iff the first calls the second at
once and from there on does not hand it over to be called later. What the
second reaches at once the first then does too. -/
theorem build_marks_edges (h : build ctx setters root = .ok m)
    (hf : f ∈ m.definitions.names) (hg : g ∈ m.definitions.names)
    (hne : f ≠ g) :
    ∃ sites, callsOf ctx root f = .ok sites ∧
      (Leads m.edges f g ↔
        g ∉ setters ∧ ∃ s ∈ sites, s.call.calleeKey? = some g ∨
          HandsOver ctx s g) ∧
      (⟨f, g, false⟩ ∈ m.edges ↔ g ∉ setters ∧ CalledLast ctx sites g) ∧
      (⟨f, g, false⟩ ∈ m.edges → ⟨f, g, true⟩ ∉ m.edges ∧
        (m.definitions.names.length ≤ 50 →
          m.settersNow g ⊆ m.settersNow f)) := by
  obtain ⟨edges, start, hspreads⟩ := exists_spreads h
  obtain ⟨contributed, hcontributed, hdefs, hedges, -⟩ := exists_contributed h
  obtain ⟨cs, hcs⟩ := hcontributed.exists_of_mem (hdefs ▸ hf)
  obtain ⟨sites, parts, hsites, hparts, rfl⟩ := hcontributed.exists_sites hcs
  have hmarked : Marked m.edges f g
      (parts.flatten.foldl (Contribution.mark g) none) := by
    rw [hedges]
    exact hcontributed.marked hcs
  have htarget : IsTarget setters (Update.definitions ctx root) f g ↔
      g ∉ setters := by
    constructor
    · exact And.left
    · intro hset
      exact ⟨hset, hdefs ▸ hg, hne.symm⟩
  have hleads : Leads m.edges f g ↔
      g ∉ setters ∧ ∃ s ∈ sites, s.call.calleeKey? = some g ∨
        HandsOver ctx s g := by
    rw [hedges, hcontributed.leads_iff, htarget]
    constructor
    · intro hex
      obtain ⟨sites', hsites', hset, hdoes⟩ := hex
      obtain rfl : sites = sites' := Except.ok.inj (hsites.symm.trans hsites')
      exact ⟨hset, hdoes⟩
    · intro hex
      obtain ⟨hset, hdoes⟩ := hex
      exact ⟨sites, hsites, hset, hdoes⟩
  refine ⟨sites, hsites, hleads, ?_,
    fun hedge => ⟨fun hlater => ?_, fun hfew setter hsetter => ?_⟩⟩
  · by_cases hset : g ∈ setters
    · -- the name is taken for that of the setter, so there is no edge at all
      refine iff_of_false (fun hedge => ?_) fun hlast => hlast.1 hset
      exact (hleads.1 ⟨false, hedge⟩).1 hset
    · rw [hmarked false, foldl_mark_eq_false hparts (htarget.2 hset)]
      simp [hset]
  · have hmark := (hmarked false).1 hedge
    rw [(hmarked true).1 hlater] at hmark
    cases hmark
  · rw [hspreads.now, hspreads.exact hfew hg] at hsetter
    rw [hspreads.now, hspreads.exact hfew hf]
    obtain ⟨k, hk⟩ := hsetter
    exact ⟨k + 1, .along ((hspreads.edges_iff _).2 hedge) hk⟩

/-- A helper that sets the state, and one that does the two given things. -/
def starting (path : String) (first second : Sketch) : SourceFile :=
  Sketch.file path [.function "Panel" [] [.useState "v" "setV",
    .const (.name "load")
      (.arrow [.run (.call "setV" [.binary (.name "v") "+" (.number "1")])]),
    .const (.name "start") (.arrow [.run first, .run second])]]

namespace starting

/-- The first helper is called at once. -/
def now : Sketch := .call "load" []

/-- The first helper is handed to a timer. -/
def onTimer : Sketch := .call "setTimeout" [.name "load", .number "9"]

/-- What the helper map says about the second helper: the edge to the first,
and what both reach at once. -/
theorem exists_map (f : SourceFile) (deferred : Bool) (found : List String)
    (h : (build .usual ["setV"] f.root).toOption.map (fun m =>
      (m.definitions.names, m.edges, m.settersNow "load",
        m.settersNow "start")) =
        some (["load", "start"], [⟨"start", "load", deferred⟩],
        ["setV"], found)) :
    ∃ m, build .usual ["setV"] f.root = .ok m ∧
      m.definitions.names = ["load", "start"] ∧
      m.edges = [⟨"start", "load", deferred⟩] ∧ m.settersNow "load" = ["setV"] ∧
      m.settersNow "start" = found := by
  cases hbuild : build .usual ["setV"] f.root with
  | error e =>
    rw [hbuild] at h
    cases h
  | ok m =>
    rw [hbuild] at h
    obtain ⟨hnames, h⟩ := Prod.mk.inj (Option.some.inj h)
    obtain ⟨hedges, h⟩ := Prod.mk.inj h
    obtain ⟨hload, hstart⟩ := Prod.mk.inj h
    exact ⟨m, rfl, hnames, hedges, hload, hstart⟩

end starting

/-- The timer comes first, so the call behind it counts. -/
def callLast : SourceFile := starting "Last.tsx" starting.onTimer starting.now

/-- The timer comes last, so the call before it is hidden. -/
def callFirst : SourceFile := starting "First.tsx" starting.now starting.onTimer

/-- The call behind the timer counts, so the state is set at once. -/
theorem build_callLast :
    ∃ m sites, build .usual ["setV"] callLast.root = .ok m ∧
    callsOf .usual callLast.root "start" = .ok sites ∧
      CalledLast .usual sites "load" ∧
    ⟨"start", "load", false⟩ ∈ m.edges ∧ "setV" ∈ m.settersNow "start" := by
  obtain ⟨m, hm, hnames, hedges, hload, -⟩ :=
    starting.exists_map callLast false ["setV"] (by decide +kernel)
  have hedge : ⟨"start", "load", false⟩ ∈ m.edges := by
    rw [hedges]
    exact List.mem_singleton.2 rfl
  obtain ⟨sites, hsites, -, hlast, hreach⟩ :=
    build_marks_edges hm (f := "start") (g := "load") (by simp [hnames])
      (by simp [hnames]) (by decide)
  refine ⟨m, sites, hm, hsites, (hlast.1 hedge).2, hedge,
    (hreach hedge).2 (by simp [hnames]) ?_⟩
  rw [hload]
  exact List.mem_singleton.2 rfl

/-- A helper that is called at once and then handed to a timer: the only edge
to it is deferred, and what it reaches at once its caller does not. -/
theorem build_hidesCall :
    ∃ m sites, build .usual ["setV"] callFirst.root = .ok m ∧
    callsOf .usual callFirst.root "start" = .ok sites ∧
    (∃ s ∈ sites, s.call.calleeKey? = some "load" ∧ s.deferred = false) ∧
    m.definitions.names = ["load", "start"] ∧
      m.edges = [⟨"start", "load", true⟩] ∧
    m.settersNow "load" = ["setV"] ∧ m.settersNow "start" = [] := by
  obtain ⟨m, hm, hnames, hedges, hload, hstart⟩ :=
    starting.exists_map callFirst true [] (by decide +kernel)
  obtain ⟨sites, hsites, hcall⟩ :=
    exists_call callFirst.root "start" "load" false (by decide +kernel)
  exact ⟨m, sites, hm, hsites, hcall, hnames, hedges, hload, hstart⟩

end HelperMap

end RenderLoop
