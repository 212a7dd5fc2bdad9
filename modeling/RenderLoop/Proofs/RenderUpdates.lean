import RenderLoop.Proofs.Anchors
import RenderLoop.Proofs.FunctionBodies
import RenderLoop.Proofs.HelperReach
import RenderLoop.Proofs.RenderGuards
import RenderLoop.Proofs.Routes

/-!
# Updates while rendering and the findings on them

Components nest like other functions do, and the check of each component walks
its function without looking into the functions inside. So a call is looked at
for the function that it belongs to, and for no other.

> `perm_renderPhase`: the findings on updates are, up to their order, those
> that a single walk over the tree gives when each call is taken with the
> nearest function around it.

> `renderPhase_matches_updates`: there is one finding for each call and each
> setter that it updates while its component renders, unless a safe guard
> protects the update. The finding is confirmed iff no conditional stands
> between the component and the call.

The walk over the tree and the walks over the functions are compared by
`walk_perm`: what belongs to a function is listed for it once. So the findings
can be counted node by node (`filter_renderPhase`), and a node has one finding
for each setter that it updates, since a helper lists its setters once.

The guard of an update is looked for within its own function. An `if` around a
nested component does not protect what the component does when it renders.
-/

namespace RenderLoop

namespace Check

variable {input : RenderInput} {facts : Facts} {helpers : HelperMap}
  {fn n call : Node} {component : Component} {u : RenderUpdate}

/-! ### Updates -/

/-- By which helper a call gets to a setter, if it does not call the setter
itself. -/
inductive Invokes (facts : Facts) (helpers : HelperMap) (call : Node)
    (setter : String) :
    Option String → Prop where
  | direct {target : Node} (hcallee : call.callee? = some target)
      (hid : target.kind = .identifier) (hname : target.text = setter)
      (hsetter : facts.isSetter setter = true) :
      Invokes facts helpers call setter none
  | helper {target : Node} {name : String}
      (hcallee : call.callee? = some target) (hid : target.kind = .identifier)
      (hname : target.text = name) (hno : facts.isSetter name = false)
      (hreach : setter ∈ helpers.settersNow name) :
        Invokes facts helpers call setter (some name)

/-- The call of the update belongs to the function of its component, and no
safe guard protects it there. -/
structure IsRenderUpdate (facts : Facts) (helpers : HelperMap) (fn : Node)
    (u : RenderUpdate) : Prop where
  isCall : u.call.kind = .call
  nearest : u.call.enclosingFunctions.head? = some fn
  component : Component.ofFunction? fn = some u.component
  invokes : Invokes facts helpers u.call u.setter u.helper
  unprotected : (Guard.inRender? u.call u.setter (facts.stateOf? u.setter)
    (some fn.key)).any (·.isSafe) = false

/-- No conditional stands between a function and a call in it. -/
def RunsWith (fn call : Node) : Prop :=
  ∃ steps, fn.Descent steps call ∧ ∀ s ∈ steps, ¬ Guard.Conditional s.1 s.2

/-- The updates of a node: it is a call, and gets to a setter. -/
theorem mem_renderUpdates : u ∈ renderUpdates facts helpers component n ↔
    u.call = n ∧ u.component = component ∧ n.kind = .call ∧
      Invokes facts helpers n u.setter u.helper := by
  unfold renderUpdates
  constructor
  · intro h
    split at h
    · next target hkind hcallee =>
      split at h
      · cases h
      · next hid =>
        have hid : target.kind = .identifier := by simpa using hid
        split at h
        · next hsetter =>
          rw [List.mem_singleton.1 h]
          exact ⟨rfl, rfl, hkind, .direct hcallee hid rfl hsetter⟩
        · next hno =>
          obtain ⟨setter, hreach, rfl⟩ := List.mem_map.1 h
          exact ⟨rfl, rfl, hkind, .helper hcallee hid rfl (by simpa using hno)
            (mem_sortedUnique.1 hreach)⟩
    · cases h
  · obtain ⟨call, c, setter, helper⟩ := u
    rintro ⟨rfl, rfl, hkind, hinvokes⟩
    cases hinvokes with
    | direct hcallee hid hname hsetter =>
      subst hname
      simp [hkind, hcallee, hid, hsetter]
    | helper hcallee hid hname hno hreach =>
      subst hname
      simp [hkind, hcallee, hid, hno, mem_sortedUnique, hreach]

/-- A call has one update for each setter. -/
theorem nodup_renderUpdates (facts : Facts) (helpers : HelperMap)
    (component : Component) (n : Node) :
    ((renderUpdates facts helpers component n).map (·.setter)).Nodup := by
  unfold renderUpdates
  split
  · split
    · exact List.nodup_nil
    · split
      · exact List.nodup_singleton _
      · rw [List.map_map]
        exact (List.map_id _).symm ▸ nodup_sortedUnique _
  · exact List.nodup_nil

/-- Only calls update anything. -/
theorem renderUpdates_eq_nil (h : n.kind ≠ .call) :
    renderUpdates facts helpers component n = [] :=
  List.eq_nil_iff_forall_not_mem.2 fun _ hu => h (mem_renderUpdates.1 hu).2.2.1

/-- The guard of an update within the nearest function around the call. -/
def guardOf (facts : Facts) (u : RenderUpdate) : Option Guard :=
  Guard.inRender? u.call u.setter (facts.stateOf? u.setter)
    (u.call.enclosingFunctions.head?.map (·.key))

/-- The updates of a call while the component that it belongs to renders,
without the protected ones. -/
def updatesAt (facts : Facts) (helpers : HelperMap) (n : Node) :
    List RenderUpdate :=
  match n.enclosingFunctions.head?.bind Component.ofFunction? with
  | some component =>
    (renderUpdates facts helpers component n).filter fun u =>
      !(guardOf facts u).any (·.isSafe)
  | none => []

/-- The updates of a node that belongs to a component are those without a safe
guard. -/
theorem updatesAt_of_component (hnearest : n.enclosingFunctions.head? = some fn)
    (h : Component.ofFunction? fn = some component) :
      updatesAt facts helpers n =
      (renderUpdates facts helpers component n).filter fun u =>
      !(guardOf facts u).any (·.isSafe) := by
  unfold updatesAt
  rw [hnearest, Option.bind_some, h]

theorem updatesAt_eq_nil
    (h : n.enclosingFunctions.head?.bind Component.ofFunction? = none) :
    updatesAt facts helpers n = [] := by
  unfold updatesAt
  rw [h]

/-- The updates of a node, said of its nearest function. -/
theorem mem_updatesAt : u ∈ updatesAt facts helpers n ↔
    u.call = n ∧ ∃ fn, IsRenderUpdate facts helpers fn u := by
  constructor
  · intro h
    cases hof : n.enclosingFunctions.head?.bind Component.ofFunction? with
    | none =>
      rw [updatesAt_eq_nil hof] at h
      cases h
    | some component =>
      obtain ⟨fn, hnearest, hcomponent⟩ := Option.bind_eq_some_iff.1 hof
      rw [updatesAt_of_component hnearest hcomponent] at h
      obtain ⟨hu, hguard⟩ := List.mem_filter.1 h
      obtain ⟨rfl, rfl, hkind, hinvokes⟩ := mem_renderUpdates.1 hu
      refine ⟨rfl, fn, hkind, hnearest, hcomponent, hinvokes, ?_⟩
      simpa [guardOf, hnearest] using hguard
  · rintro ⟨rfl, fn, hu⟩
    rw [updatesAt_of_component hu.nearest hu.component]
    refine List.mem_filter.2
      ⟨mem_renderUpdates.2 ⟨rfl, rfl, hu.isCall, hu.invokes⟩, ?_⟩
    simpa [guardOf, hu.nearest] using hu.unprotected

/-- A call updates a setter at most once. -/
theorem nodup_updatesAt (facts : Facts) (helpers : HelperMap) (n : Node) :
    ((updatesAt facts helpers n).map (·.setter)).Nodup := by
  unfold updatesAt
  split
  · exact (nodup_renderUpdates ..).sublist (List.filter_sublist.map _)
  · exact List.nodup_nil

/-! ### Findings -/

/-- Findings on updates while rendering. -/
def isUpdateReport (x : Finding) : Bool :=
  x.code == .renderUpdate || x.code == .renderUpdateVia

/-- The finding on an update under the guard that it has in its own function. -/
def updateFinding (input : RenderInput) (u : RenderUpdate) : Finding :=
  renderFinding input.ctx input.file input.facts u (guardOf input.facts u)

/-- What a finding says about an update in the function of a component. -/
structure ReportsUpdate (input : RenderInput) (fn : Node) (u : RenderUpdate)
    (x : Finding) : Prop where
  place : StandsAt input.file u.call x
  setter : x.setter = some u.setter
  code : x.code = if u.helper.isSome then .renderUpdateVia else .renderUpdate
  component : ∃ more, x.explanation = u.component.name ++ (" " ++ more)
  confirmed : x.kind = .confirmed ↔ RunsWith fn u.call
  potential : x.kind = .potential ↔ ¬ RunsWith fn u.call

/-- The finding as it is before its confidence is lowered. -/
theorem exists_renderFinding_eq (ctx : Context) (file : String) (facts : Facts)
    (u : RenderUpdate) (guard : Option Guard) :
    ∃ x doubts, renderFinding ctx file facts u guard = ctx.report x doubts ∧
      StandsAt file u.call x ∧ x.setter = some u.setter ∧
      x.code = (if u.helper.isSome then .renderUpdateVia else .renderUpdate) ∧
      (∃ more, x.explanation = u.component.name ++ (" " ++ more)) ∧
      x.kind = if guard.isNone then .confirmed else .potential := by
  cases guard with
  | none =>
    refine ⟨_, _, rfl, ⟨rfl, rfl, rfl⟩, rfl, rfl, ?_, rfl⟩
    exact ⟨_, by simp only [String.append_assoc]; rfl⟩
  | some guard =>
    refine ⟨_, _, rfl, ⟨rfl, rfl, rfl⟩, rfl, rfl, ?_, rfl⟩
    exact ⟨_, by simp only [String.append_assoc]; rfl⟩

/-- A finding on an update has one of the two codes. -/
theorem isUpdateReport_renderFinding (ctx : Context) (file : String)
    (facts : Facts) (u : RenderUpdate) (guard : Option Guard) :
    isUpdateReport (renderFinding ctx file facts u guard) = true := by
  obtain ⟨x, doubts, heq, -, -, hcode, -⟩ :=
    exists_renderFinding_eq ctx file facts u guard
  have hcode : (renderFinding ctx file facts u guard).code = _ :=
    (congrArg Finding.code heq).trans ((Context.code_report ..).trans hcode)
  unfold isUpdateReport
  rw [hcode]
  cases u.helper with
  | none => rfl
  | some helper => rfl

/-- An update has no guard in its own function iff it runs with it. -/
theorem guardOf_eq_none_iff (hfn : fn.isFunction = true)
    (hcall : u.call ∈ fn.ownNodes) :
    guardOf facts u = none ↔ RunsWith fn u.call := by
  obtain ⟨steps, d, hsteps⟩ := Node.exists_descent_of_mem_ownNodes hcall
  unfold guardOf
  rw [Node.head?_enclosingFunctions hfn hcall, Option.map_some,
    Guard.inRender?_eq_none_iff, Guard.enclosingConditions_eq_nil,
    d.stepsBelow_of_not_isFunction hfn hsteps]
  constructor
  · intro hfree
    exact ⟨steps, d, hfree⟩
  · rintro ⟨steps', d', hfree⟩
    rw [d.steps_eq d']
    exact hfree

/-- The finding on an update says what it should. -/
theorem reportsUpdate_updateFinding (hfn : fn.isFunction = true)
    (hcall : u.call ∈ fn.ownNodes) :
    ReportsUpdate input fn u (updateFinding input u) := by
  obtain ⟨x, doubts, heq, hplace, hsetter, hcode, ⟨more, hmore⟩, hkind⟩ :=
    exists_renderFinding_eq input.ctx input.file input.facts u
      (guardOf input.facts u)
  have hkind : (input.ctx.report x doubts).kind = _ :=
    (Context.kind_report ..).trans hkind
  unfold updateFinding
  rw [heq]
  refine ⟨hplace.report .., (Context.setter_report ..).trans hsetter,
    (Context.code_report ..).trans hcode, ?_, ?_, ?_⟩
  · obtain ⟨reasons, hreasons⟩ := Context.explanation_report input.ctx x doubts
    refine ⟨more ++ reasons, ?_⟩
    rw [hreasons, hmore, String.append_assoc, String.append_assoc]
  · rw [hkind, ← guardOf_eq_none_iff hfn hcall]
    cases guardOf input.facts u with
    | none => simp
    | some guard => simp
  · rw [hkind, ← guardOf_eq_none_iff hfn hcall]
    cases guardOf input.facts u with
    | none => simp
    | some guard => simp

/-! ### The walk over all components -/

/-- The findings on the updates of a node. -/
def foundAt (input : RenderInput) (n : Node) : List Finding :=
  (updatesAt input.facts input.helpers n).map (updateFinding input)

/-- What the check of a component reports about the updates of a node. -/
theorem filter_renderNode (fn : Node) (component : Component) (n : Node) :
    (renderNode input fn component n).filter isUpdateReport =
      (renderUpdates input.facts input.helpers component n).filterMap
        (renderVerdict input.ctx input.file input.facts fn) := by
  have hkept :
    ∀ x ∈ (renderUpdates input.facts input.helpers component n).filterMap
      (renderVerdict input.ctx input.file input.facts fn),
        isUpdateReport x = true := by
    intro x hx
    obtain ⟨u, -, hverdict⟩ := List.mem_filterMap.1 hx
    unfold renderVerdict at hverdict
    simp only at hverdict
    split at hverdict
    · cases hverdict
    · cases hverdict
      exact isUpdateReport_renderFinding ..
  have hleft : ∀ x ∈ (refWriteFinding? input component n).toList,
      ¬ isUpdateReport x = true := by
    intro x hx
    have hx := Option.mem_toList.1 hx
    unfold refWriteFinding? at hx
    split at hx
    · cases hx
    · split at hx
      · cases hx
        unfold isUpdateReport
        rw [Context.code_report]
        exact Bool.false_ne_true
      · cases hx
  unfold renderNode
  rw [List.filter_append, List.filter_eq_self.2 hkept,
    List.filter_eq_nil_iff.2 hleft, List.append_nil]

/-- An own node of a component's function is reported on by the check of that
component. -/
theorem filter_renderNode_of_component
    (hnearest : n.enclosingFunctions.head? = some fn)
    (h : Component.ofFunction? fn = some component) :
    (renderNode input fn component n).filter isUpdateReport =
      foundAt input n := by
  unfold foundAt
  rw [filter_renderNode,
    updatesAt_of_component hnearest h, ← List.filterMap_eq_map,
    List.filterMap_filter]
  refine List.filterMap_congr fun u hu => ?_
  obtain ⟨rfl, -⟩ := mem_renderUpdates.1 hu
  have hguard : guardOf input.facts u =
      Guard.inRender? u.call u.setter (input.facts.stateOf? u.setter)
        (some fn.key) := by
    unfold guardOf
    rw [hnearest, Option.map_some]
  unfold renderVerdict updateFinding
  simp only [← hguard]
  cases (guardOf input.facts u).any (·.isSafe) with
  | true => rfl
  | false => rfl

/-- The findings on the updates of a function, whether it is a component or
not. -/
theorem flatMap_component (hfn : fn.isFunction = true) :
    ((Component.ofFunction? fn).map fun c => (fn, c)).toList.flatMap (fun p =>
        p.1.walkShallow.flatMap fun n =>
          (renderNode input p.1 p.2 n).filter isUpdateReport) =
      fn.ownNodes.flatMap (foundAt input) := by
  cases h : Component.ofFunction? fn with
  | none =>
    -- a call in no component's function is not reported either
    refine (List.flatMap_eq_nil_iff.2 fun n hn => ?_).symm
    unfold foundAt
    rw [updatesAt_eq_nil, List.map_nil]
    rw [Node.head?_enclosingFunctions hfn hn]
    exact h
  | some component =>
    have hcall : fn.kind ≠ .call := by
      intro hkind
      unfold Node.isFunction at hfn
      rw [hkind] at hfn
      cases hfn
    rw [Option.map_some, Option.toList_some, List.flatMap_singleton,
      Node.walkShallow_eq, List.flatMap_cons]
    -- the function itself is no call
    rw [filter_renderNode, renderUpdates_eq_nil hcall, List.filterMap_nil,
      List.nil_append]
    refine List.flatMap_congr fun n hn => ?_
    exact filter_renderNode_of_component
      (Node.head?_enclosingFunctions hfn hn) h

/-- The findings on updates come node by node, for the own nodes of all
functions. -/
theorem filter_renderPhase (input : RenderInput) (root : Node) :
    (renderPhase input root).filter isUpdateReport =
      (Tree.ownNodesIn root.walk).flatMap (foundAt input) := by
  unfold renderPhase componentFunctions Tree.ownNodesIn
  rw [List.filter_flatMap, List.flatMap_assoc, List.filterMap_eq_flatMap_toList,
    List.flatMap_assoc]
  refine List.flatMap_congr fun fn hfn => ?_
  rw [← flatMap_component (List.mem_filter.1 hfn).2]
  refine List.flatMap_congr fun p _ => ?_
  rw [List.filter_flatMap]

/-- Taken with the nearest functions around them, the nodes of a tree give the
same findings. -/
theorem perm_renderPhase (input : RenderInput) (tree : Tree) :
    ((renderPhase input (.ofRoot tree)).filter isUpdateReport).Perm
      ((Node.ofRoot tree).walk.flatMap (foundAt input)) := by
  have houtside :
      ((Node.ofRoot tree).tree.walkOutside (Node.ofRoot tree).above).flatMap
      (foundAt input) = [] := by
    refine List.flatMap_eq_nil_iff.2 fun n hn => ?_
    unfold foundAt
    rw [updatesAt_eq_nil, List.map_nil]
    rw [Node.enclosingFunctions_of_mem_walkOutside hn]
    rfl
  have hall :=
    (Tree.walk_perm (Node.ofRoot tree).above
    (Node.ofRoot tree).tree).flatMap_right (foundAt input)
  rw [List.flatMap_append, houtside,
    List.nil_append, ← Node.walk, ← filter_renderPhase] at hall
  exact hall.symm

/-- The updates of the nodes of a tree, and what is reported about them. -/
structure MatchesUpdates (input : RenderInput) (root : Node)
    (updates : Node → List RenderUpdate) (finding : RenderUpdate → Finding) :
    Prop where
  /-- Every node of the tree has one finding for each of its updates, and there
  are no others. -/
  perm : ((renderPhase input root).filter isUpdateReport).Perm
    ((root.walk.flatMap updates).map finding)
  mem_iff : ∀ n u, u ∈ updates n ↔
    u.call = n ∧ ∃ fn, IsRenderUpdate input.facts input.helpers fn u
  nodup : ∀ n, ((updates n).map (·.setter)).Nodup
  reports : ∀ fn u, u.call ∈ root.walk →
    IsRenderUpdate input.facts input.helpers fn u →
    ReportsUpdate input fn u (finding u)

/-- There is one finding for each update of each node. -/
theorem matchesUpdates_updatesAt (input : RenderInput) (tree : Tree) :
    MatchesUpdates input (.ofRoot tree) (updatesAt input.facts input.helpers)
      (updateFinding input) where
  perm := by
    rw [List.map_flatMap]
    exact perm_renderPhase input tree
  mem_iff _ _ := mem_updatesAt
  nodup := nodup_updatesAt input.facts input.helpers
  reports fn u hmem hu := by
    rcases Node.mem_walk_cases hmem with hout | ⟨own, -, hown, hcall⟩
    · have hnone := hu.nearest
      rw [Node.enclosingFunctions_of_mem_walkOutside hout] at hnone
      cases hnone
    · obtain rfl : own = fn :=
        Option.some.inj ((Node.head?_enclosingFunctions hown hcall).symm.trans
        hu.nearest)
      exact reportsUpdate_updateFinding hown hcall

/-- In a tree whose siblings stand apart, no call and setter come up twice. -/
theorem MatchesUpdates.nodup_pairs {root : Node}
    {updates : Node → List RenderUpdate} {finding : RenderUpdate → Finding}
    (h : MatchesUpdates input root updates finding)
    (hspaced : root.WellSpaced) :
    ((root.walk.flatMap updates).map fun u => (u.call, u.setter)).Nodup := by
  rw [List.map_flatMap, List.nodup_flatMap]
  refine ⟨fun n _ => ?_,
    (Node.nodup_walk hspaced).imp fun hne p hp hp' => hne ?_⟩
  · refine List.Nodup.of_map Prod.snd ?_
    simpa [Function.comp_def] using h.nodup n
  · obtain ⟨u, hu, rfl⟩ := List.mem_map.1 hp
    obtain ⟨u', hu', heq⟩ := List.mem_map.1 hp'
    rw [← ((h.mem_iff _ u).1 hu).1, ← ((h.mem_iff _ u').1 hu').1]
    exact (Prod.mk.inj heq).1.symm

/-- Two components share no call. -/
theorem componentFunctions_share_no_call {root : Node} {p p' : Node × Component}
    (hp : p ∈ componentFunctions root) (hp' : p' ∈ componentFunctions root)
    (hkind : call.kind = .call)
    (hcall : call ∈ p.1.walkShallow) (hcall' : call ∈ p'.1.walkShallow) :
    p = p' := by
  have hnearest : ∀ q ∈ componentFunctions root, call ∈ q.1.walkShallow →
      Component.ofFunction? q.1 = some q.2 ∧
        call.enclosingFunctions.head? = some q.1 := by
    intro q hq hmem
    obtain ⟨fn, hfn, hof⟩ := List.mem_filterMap.1 hq
    obtain ⟨component, hcomponent, rfl⟩ := Option.map_eq_some_iff.1 hof
    have hfn := (List.mem_filter.1 hfn).2
    rcases List.mem_cons.1 hmem with rfl | hown
    · unfold Node.isFunction at hfn
      rw [hkind] at hfn
      cases hfn
    · exact ⟨hcomponent, Node.head?_enclosingFunctions hfn hown⟩
  obtain ⟨hof, hnear⟩ := hnearest p hp hcall
  obtain ⟨hof', hnear'⟩ := hnearest p' hp' hcall'
  have hfn : p.1 = p'.1 := Option.some.inj (hnear.symm.trans hnear')
  rw [hfn] at hof
  exact Prod.ext hfn (Option.some.inj (hof.symm.trans hof'))

/-- The findings on updates while rendering match the pairs of a call and a
setter such that the call belongs to the function of a component, calls the
setter or a helper that reaches it, and has no safe guard within the
component. In a tree whose siblings stand apart no pair comes twice. No call
is looked at for two components, and a helper in between is one of the file,
if the map of helpers is. -/
theorem renderPhase_matches_updates (input : RenderInput) (tree : Tree) :
    let root := Node.ofRoot tree
    (∃ updates finding, MatchesUpdates input root updates finding ∧
      (root.WellSpaced →
        ((root.walk.flatMap updates).map fun u => (u.call, u.setter)).Nodup)) ∧
    (∀ p ∈ componentFunctions root, ∀ p' ∈ componentFunctions root,
      ∀ call, call.kind = .call → call ∈ p.1.walkShallow →
      call ∈ p'.1.walkShallow → p = p') ∧
    ∀ ctx setters, HelperMap.build ctx setters root = .ok input.helpers →
      ∀ call setter name, Invokes input.facts input.helpers call setter
        (some name) → input.helpers.isHelper name = true := by
  have hmatches := matchesUpdates_updatesAt input tree
  refine ⟨⟨_, _, hmatches, hmatches.nodup_pairs⟩,
    fun p hp p' hp' call hkind hcall hcall' => ?_, ?_⟩
  · exact componentFunctions_share_no_call hp hp' hkind hcall hcall'
  · intro ctx setters hbuild call setter name hinvokes
    cases hinvokes with
    | helper _ _ _ _ hreach =>
      exact HelperMap.isHelper_of_mem_settersNow hbuild hreach

/-! ### A component inside a component -/

/-- The outer component calls a helper that sets its state, if a condition
holds. The inner one sets the state of the outer one whenever it renders. -/
def nested : SourceFile := Sketch.file "Nested.tsx"
  [.function "Outer" [] [.useState "v" "setV",
    .const (.name "bump") (.arrow [.run (.call "setV" [.number "1"])]),
    .function "Inner" [] [.run (.call "setV" [.number "2"])],
    .ifThen (.name "v") [.run (.call "bump" [])]]]

namespace nested

def outer : Node := nested.root.at [0]

def inner : Node := nested.root.at [0, 2, 2]

def componentOf (fn : Node) : Component :=
  (Component.ofFunction? fn).getD default

/-- The call of the setter in the inner component. -/
def innerUpdate : RenderUpdate :=
  ⟨inner.at [2, 0, 0], componentOf inner, "setV", none⟩

/-- The call of the helper in the outer component. -/
def outerUpdate : RenderUpdate :=
  ⟨outer.at [2, 3, 1, 0, 0], componentOf outer, "setV", some "bump"⟩

def given (facts : Facts) (helpers : HelperMap) : RenderInput :=
  ⟨.usual, nested.path, facts, helpers, nested.root.origins⟩

def survey : Except Fault (Facts × HelperMap) := do
  let facts ← Facts.extract .usual nested.path nested.root
  return (facts, ← HelperMap.build .usual facts.setters nested.root)

/-- The setter and the helper are known, and only the call of the helper has a
guard, which is not safe. -/
def isAsDescribed (facts : Facts) (helpers : HelperMap) : Bool :=
  facts.isSetter "setV" && !facts.isSetter "bump" &&
    (helpers.settersNow "bump").contains "setV" &&
    (guardOf facts innerUpdate).isNone &&
      (guardOf facts outerUpdate).any (!·.isSafe)

theorem ofFunction?_eq :
    Component.ofFunction? inner = some (componentOf inner) ∧
    Component.ofFunction? outer = some (componentOf outer) := by
  decide +kernel

/-- Both calls belong to the function of their own component. -/
theorem mem_ownNodes :
    innerUpdate.call ∈ inner.ownNodes ∧ outerUpdate.call ∈ outer.ownNodes :=
  ⟨List.mem_of_getElem? (i := 4) rfl, List.mem_of_getElem? (i := 23) rfl⟩

/-- What the facts and the helpers of the file say about the two calls. -/
theorem exists_of_survey :
    ∃ facts helpers, Facts.extract .usual nested.path nested.root = .ok facts ∧
    HelperMap.build .usual facts.setters nested.root = .ok helpers ∧
    IsRenderUpdate facts helpers inner innerUpdate ∧
      RunsWith inner innerUpdate.call ∧
    IsRenderUpdate facts helpers outer outerUpdate ∧
      ¬ RunsWith outer outerUpdate.call := by
  obtain ⟨x, hsurvey, h⟩ := exists_of_any_toOption
    (show survey.toOption.any (fun x => isAsDescribed x.1 x.2) =
      true by decide +kernel)
  obtain ⟨facts, hfacts, hsurvey⟩ := bind_eq_ok.1 hsurvey
  obtain ⟨helpers, hhelpers, hsurvey⟩ := bind_eq_ok.1 hsurvey
  cases hsurvey
  simp only [isAsDescribed, Bool.and_eq_true, Bool.not_eq_true',
    List.contains_iff_mem, Option.isNone_iff_eq_none, Option.any_eq_true] at h
  obtain ⟨⟨⟨⟨hsetter, hno⟩, hreach⟩, hfree⟩, guard, hguard, hunsafe⟩ := h
  have hinner := Node.head?_enclosingFunctions rfl mem_ownNodes.1
  have houter := Node.head?_enclosingFunctions rfl mem_ownNodes.2
  refine ⟨facts, helpers, hfacts, hhelpers,
    ⟨rfl, hinner, ofFunction?_eq.1, ?_, ?_⟩, ?_,
    ⟨rfl, houter, ofFunction?_eq.2, ?_, ?_⟩, ?_⟩
  · exact .direct rfl rfl (by decide +kernel) hsetter
  · unfold guardOf at hfree
    rw [hinner] at hfree
    exact hfree ▸ rfl
  · exact (guardOf_eq_none_iff rfl mem_ownNodes.1).1 hfree
  · exact .helper rfl rfl (by decide +kernel) hno hreach
  · unfold guardOf at hguard
    rw [houter] at hguard
    exact hguard ▸ hunsafe
  · intro hruns
    rw [(guardOf_eq_none_iff rfl mem_ownNodes.2).2 hruns] at hguard
    cases hguard

end nested

/-- The setter called in the inner component is reported there alone and as a
fact, the helper called in the outer one as a possibility. -/
theorem renderPhase_nested : ∃ facts helpers updates finding,
    Facts.extract .usual nested.path nested.root = .ok facts ∧
      HelperMap.build .usual facts.setters nested.root = .ok helpers ∧
      MatchesUpdates (nested.given facts helpers) nested.root updates finding ∧
      ((nested.root.walk.flatMap updates).map fun u =>
        (u.call, u.setter)).Nodup ∧
      (finding nested.innerUpdate).kind = .confirmed ∧
        (finding nested.outerUpdate).kind = .potential ∧
      (∀ p ∈ componentFunctions nested.root, nested.innerUpdate.call ∈
        p.1.walkShallow → p = (nested.inner, nested.innerUpdate.component)) ∧
      helpers.isHelper "bump" = true := by
  obtain ⟨facts, helpers, hfacts, hhelpers, hinner, hruns, houter, hdepends⟩ :=
    nested.exists_of_survey
  obtain ⟨⟨updates, finding, hmatches, hnodup⟩, hapart, hhelper⟩ :=
    renderPhase_matches_updates (nested.given facts helpers) nested.root.tree
  have hmem : ∀ fn ∈ nested.root.walk, ∀ n ∈ fn.ownNodes,
    n ∈ nested.root.walk := fun fn hfn n hn =>
    Node.mem_walk_trans
      (Node.mem_walk_of_mem_walkShallow (List.mem_cons_of_mem _ hn)) hfn
  have houterMem : nested.outer ∈ nested.root.walk :=
    List.mem_of_getElem? (i := 1) rfl
  have hinnerMem : nested.inner ∈ nested.root.walk :=
    hmem _ houterMem _ (List.mem_of_getElem? (i := 17) rfl)
  refine ⟨facts, helpers, updates, finding, hfacts, hhelpers, hmatches,
    hnodup (Sketch.wellSpaced_program (by decide +kernel)), ?_, ?_,
      fun p hp hcall => ?_, ?_⟩
  · exact (hmatches.reports _ _ (hmem _ hinnerMem _ nested.mem_ownNodes.1)
      hinner).confirmed.2 hruns
  · exact (hmatches.reports _ _ (hmem _ houterMem _ nested.mem_ownNodes.2)
      houter).potential.2 hdepends
  · refine hapart p hp _ ?_ _ rfl hcall
      (List.mem_cons_of_mem _ nested.mem_ownNodes.1)
    exact List.mem_filterMap.2 ⟨nested.inner,
      List.mem_filter.2 ⟨hinnerMem, rfl⟩, by rw [hinner.component]; rfl⟩
  · exact hhelper _ _ hhelpers _ _ _ houter.invokes

end Check

end RenderLoop
