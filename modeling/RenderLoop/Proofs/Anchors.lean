import RenderLoop.Proofs.EffectVerdict

/-!
# Where findings stand

Every check reports what it finds at a node of the tree it looks at: the
finding names the file and takes its line and column from the node.

> `exists_standsAt`: a finding of any stage on a file stands at a node of the
> file's tree.

Findings of different files can therefore be told apart, and the line of a
finding is a line of the parser.

The proof goes check by check. Each of them builds its findings from a node,
and what is done to a finding afterwards, capping its confidence or changing
its severity, does not move it. So one lemma for each check says at which node
it reports, and the stages of a file collect what the checks say:

> `foundInFile`: a finding of a file comes from one of five checks, with
> everything that the check looked at.

Other modules start from that list of cases when a property of all findings
has to be shown.
-/

namespace RenderLoop

namespace Tree

mutual

/-- Leaving out what stands inside functions only removes nodes from the
walk. -/
theorem walkOutside_subset (above : List Tree) :
    ∀ t : Tree, t.walkOutside above ⊆ t.walk above
  | node l cs => by
    rw [walkOutside, walk]
    split
    · exact List.cons_subset_cons _ (List.nil_subset _)
    · exact List.cons_subset_cons _ (walkOutsideList_subset _ cs)

theorem walkOutsideList_subset (above : List Tree) :
    ∀ ts : List Tree, walkOutsideList above ts ⊆ walkList above ts
  | [] => List.Subset.refl _
  | t :: ts => by
    rw [walkOutsideList, walkList]
    intro n hn
    rcases List.mem_append.1 hn with hn | hn
    · exact List.mem_append_left _ (walkOutside_subset above t hn)
    · exact List.mem_append_right _ (walkOutsideList_subset above ts hn)

end

end Tree

/-- What the shallow walk meets, the whole walk meets. -/
theorem Node.mem_walk_of_mem_walkShallow {m n : Node} (h : m ∈ n.walkShallow) :
    m ∈ n.walk := by
  obtain ⟨⟨l, cs⟩, above⟩ := n
  unfold walk
  rw [Tree.walk]
  rcases List.mem_cons.1 h with rfl | h
  · exact List.mem_cons_self
  · exact List.mem_cons_of_mem _ (Tree.walkOutsideList_subset _ cs h)

/-- The value of an attribute is part of the tag. -/
theorem Node.mem_walk_of_mem_jsxAttributes {element value : Node}
    {name : String} (h : (name, some value) ∈ element.jsxAttributes) :
    value ∈ element.walk := by
  obtain ⟨part, hpart, h⟩ := List.mem_filterMap.1 h
  have hchild := mem_walk_of_mem_children
    (mem_children_of_mem_namedChildren hpart)
  refine mem_walk_trans ?_ hchild
  have hparts_walk : ∀ {n m : Node}, m ∈ n.parts → m ∈ n.walk := fun h =>
    mem_walk_of_mem_children (mem_children_of_mem_parts h)
  unfold jsxAttribute? at h
  split at h
  · cases h
  · split at h
    · cases h
    · cases h
    · next first second rest hparts =>
      have hsecond : second ∈ part.walk := hparts_walk (by rw [hparts]; simp)
      obtain ⟨-, h⟩ := Prod.mk.inj (Option.some.inj h)
      split at h
      · -- the expression between the braces
        obtain ⟨inner, hinner, rfl⟩ := Option.map_eq_some_iff.1 h
        exact mem_walk_trans inner.bare_mem_walk
          (mem_walk_trans (hparts_walk (List.mem_of_mem_head? hinner)) hsecond)
      · cases h
        exact hsecond

/-- A hook of a file is one of its nodes. -/
theorem Node.call_mem_walk {root : Node} {h : Hook} (hh : h ∈ root.hooks) :
    h.call ∈ root.walk := by
  obtain ⟨n, hn, hof⟩ := List.mem_filterMap.1 hh
  unfold Hook.ofNode? at hof
  split at hof
  · obtain ⟨kind, -, rfl⟩ := Option.map_eq_some_iff.1 hof
    exact hn
  · cases hof

/-- Capping the confidence of a finding does not move it. -/
theorem Finding.place_capConfidence (f : Finding) (reasons : List String) :
    (f.capConfidence reasons).file = f.file ∧
      (f.capConfidence reasons).line = f.line ∧
      (f.capConfidence reasons).column = f.column := by
  unfold capConfidence
  split
  · exact ⟨rfl, rfl, rfl⟩
  · exact ⟨rfl, rfl, rfl⟩

namespace Check

/-- A finding is about a file and stands at a node. -/
structure StandsAt (file : String) (n : Node) (x : Finding) : Prop where
  file : x.file = file
  line : x.line = n.line
  column : x.column = some (n.column : Int)

variable {ctx : Context} {file : String} {facts : Facts} {i : Interaction}
  {h : Hook} {root n : Node} {x : Finding}

/-- Reporting a finding leaves it where it stands. -/
theorem StandsAt.report (hx : StandsAt file n x) (ctx : Context)
    (doubts : List Doubt) :
    StandsAt file n (ctx.report x doubts) := by
  obtain ⟨hfile, hline, hcolumn⟩ := Finding.place_capConfidence
    { x with debug := if ctx.options.debug then x.debug else none }
      (doubts.map Doubt.text)
  exact ⟨hfile.trans hx.file, hline.trans hx.line, hcolumn.trans hx.column⟩

/-! ### Hooks -/

/-- The verdict about a listed state stands at the call of the hook. -/
theorem standsAt_dependencyVerdict {state setter : String}
    (hx : dependencyVerdict ctx h file i state setter = some x) :
    StandsAt file h.call x := by
  have hfinding : ∀ kind code category severity explanation reason suggestion,
      StandsAt file h.call
        (effectFinding h file state setter i kind code category severity
          explanation reason suggestion) :=
    fun _ _ _ _ _ _ _ => ⟨rfl, rfl, rfl⟩
  have hsafe : ∀ why,
    StandsAt file h.call (safeFinding ctx h file state setter i why) :=
    fun why =>
    (hfinding ..).report ctx []
  have hunsafe : ∀ guard,
      StandsAt file h.call (unsafeFinding ctx h file state setter i guard) := by
    intro guard
    unfold unsafeFinding
    apply StandsAt.report
    split
    · exact hfinding ..
    · exact hfinding ..
  rcases cases_of_dependencyVerdict hx with ⟨-, rfl⟩ | ⟨-, guard, rfl⟩ |
    ⟨-, why, rfl⟩
  · exact (hfinding ..).report ctx _
  · exact hunsafe guard
  · exact hsafe why

theorem standsAt_effectWithoutDeps (hx : x ∈ effectWithoutDeps ctx h file i) :
    StandsAt file h.call x := by
  unfold effectWithoutDeps at hx
  simp only at hx
  split at hx
  · rw [List.mem_singleton.1 hx]
    apply StandsAt.report
    exact ⟨rfl, rfl, rfl⟩
  · split at hx
    · cases hx
    · rw [List.mem_singleton.1 hx]
      apply StandsAt.report
      exact ⟨rfl, rfl, rfl⟩

/-- So does the finding about a value that is new on every render. -/
theorem standsAt_unstableFinding (v : UnstableVariable) :
    StandsAt file h.call (unstableFinding ctx h file facts i v) := by
  unfold unstableFinding
  simp only
  split
  · apply StandsAt.report
    exact ⟨rfl, rfl, rfl⟩
  · apply StandsAt.report
    exact ⟨rfl, rfl, rfl⟩

theorem standsAt_memoHook (hx : x ∈ memoHook ctx h file facts i) :
    StandsAt file h.call x := by
  rcases cases_of_mem_memoHook hx with rfl | ⟨state, setter, -, rfl⟩
  · apply StandsAt.report
    exact ⟨rfl, rfl, rfl⟩
  · apply StandsAt.report
    exact ⟨rfl, rfl, rfl⟩

/-- The findings on a hook stand at its call. -/
theorem standsAt_hookFindings (hx : x ∈ hookFindings ctx file facts h i) :
    StandsAt file h.call x := by
  cases foundOnHook hx with
  | withoutArray _ _ hx => exact standsAt_effectWithoutDeps hx
  | unstable _ v _ hx =>
    rw [hx]
    exact standsAt_unstableFinding v
  | dependency _ _ _ _ _ _ hx => exact standsAt_dependencyVerdict hx
  | memo _ hx => exact standsAt_memoHook hx

/-! ### The other stages -/

/-- A node that runs with a component is reported for the setters it reaches,
or for what it writes to a ref. -/
theorem cases_of_mem_renderNode {input : RenderInput} {fn : Node}
    {component : Component} (hx : x ∈ renderNode input fn component n) :
    (∃ u ∈ renderUpdates input.facts input.helpers component n, ∃ guard,
      x = renderFinding input.ctx input.file input.facts u guard) ∨
      refWriteFinding? input component n = some x := by
  rcases List.mem_append.1 hx with hx | hx
  · obtain ⟨u, hu, hx⟩ := List.mem_filterMap.1 hx
    unfold renderVerdict at hx
    simp only at hx
    split at hx
    · cases hx
    · exact .inl ⟨u, hu, _, (Option.some.inj hx).symm⟩
  · exact .inr (Option.mem_toList.1 hx)

/-- What is found while rendering stands at the node that was looked at. -/
theorem standsAt_renderNode {input : RenderInput} {fn : Node}
    {component : Component} (hx : x ∈ renderNode input fn component n) :
    StandsAt input.file n x := by
  rcases cases_of_mem_renderNode hx with ⟨update, hupdate, guard, rfl⟩ | hx
  · have hcall : update.call = n := by
      unfold renderUpdates at hupdate
      split at hupdate
      · split at hupdate
        · cases hupdate
        · split at hupdate
          · rw [List.mem_singleton.1 hupdate]
          · obtain ⟨setter, -, rfl⟩ := List.mem_map.1 hupdate
            rfl
      · cases hupdate
    rw [← hcall]
    unfold renderFinding
    simp only
    split
    · apply StandsAt.report
      exact ⟨rfl, rfl, rfl⟩
    · apply StandsAt.report
      exact ⟨rfl, rfl, rfl⟩
  · unfold refWriteFinding? at hx
    split at hx
    · cases hx
    · split at hx
      · cases hx
        apply StandsAt.report
        exact ⟨rfl, rfl, rfl⟩
      · cases hx

/-- A finding of the render phase was made at one node of one component. -/
theorem exists_renderNode {input : RenderInput}
    (hx : x ∈ renderPhase input root) :
    ∃ fn ∈ root.walk, ∃ component, Component.ofFunction? fn = some component ∧
      ∃ n ∈ root.walk, x ∈ renderNode input fn component n := by
  obtain ⟨⟨fn, component⟩, hfn, hx⟩ := List.mem_flatMap.1 hx
  obtain ⟨n, hn, hx⟩ := List.mem_flatMap.1 hx
  obtain ⟨fn', hfn', hof⟩ := List.mem_filterMap.1 hfn
  obtain ⟨c, hc, hpair⟩ := Option.map_eq_some_iff.1 hof
  obtain ⟨rfl, rfl⟩ := Prod.mk.inj hpair
  have hfn := (List.mem_filter.1 hfn').1
  exact ⟨_, hfn, _, hc, n,
    Node.mem_walk_trans (Node.mem_walk_of_mem_walkShallow hn) hfn, hx⟩

/-- What is reported about the props of elements. -/
theorem exists_propFinding (hx : x ∈ unstableProps ctx file facts root) :
    ∃ element ∈ root.walk, ∃ prop value what isProvider, (prop, some value) ∈
      element.jsxAttributes ∧ unstableProp? facts element value = some what ∧
      x = propFinding ctx file element.jsxName prop isProvider value what := by
  obtain ⟨element, helement, hx⟩ := List.mem_flatMap.1 hx
  unfold elementProps at hx
  simp only at hx
  split at hx
  · cases hx
  · obtain ⟨⟨prop, value⟩, hattribute, hx⟩ := List.mem_filterMap.1 hx
    cases value with
    | none => cases hx
    | some value =>
      simp only at hx
      split at hx
      · cases hx
      · obtain ⟨what, hwhat, rfl⟩ := Option.map_eq_some_iff.1 hx
        exact ⟨element, (List.mem_filter.1 helement).1, prop, value, what, _,
          hattribute, hwhat, rfl⟩

/-- A finding about snapshots was made at one call. -/
theorem exists_snapshotFinding (hx : x ∈ freshSnapshots ctx file root) :
    ∃ call ∈ root.walk,
      ∃ snapshot, x = snapshotFinding ctx file call snapshot := by
  obtain ⟨call, hcall, hx⟩ := List.mem_filterMap.1 hx
  split at hx
  · simp only at hx
    split at hx
    · exact ⟨call, (List.mem_filter.1 hcall).1, _, (Option.some.inj hx).symm⟩
    · cases hx
  · cases hx

/-- What is reported about the keys of elements. -/
theorem exists_keyFinding (hx : x ∈ unstableKeys ctx file root) :
    ∃ element ∈ root.walk, ∃ value index verdict, ("key", some value) ∈
      element.jsxAttributes ∧
      Keys.classify? (Keys.randomVariables root) index value = some verdict ∧
      x = keyFinding ctx file value verdict := by
  obtain ⟨element, helement, hx⟩ := List.mem_flatMap.1 hx
  obtain ⟨⟨name, value⟩, hattribute, hx⟩ := List.mem_filterMap.1 hx
  cases value with
  | none => cases hx
  | some value =>
    simp only at hx
    split at hx
    · cases hx
    · next hkey =>
      obtain ⟨verdict, hverdict, rfl⟩ := Option.map_eq_some_iff.1 hx
      obtain rfl : name = "key" := by
        by_contra hother
        exact hkey (by simp [hother])
      exact ⟨element, (List.mem_filter.1 helement).1, value, _, verdict,
        hattribute, hverdict, rfl⟩

/-! ### All stages -/

/-- A finding in the report of a file was made by one of its stages, and that
stage finished. -/
theorem mem_ofStages {stages : List (Except Fault (List Finding))}
    (hx : x ∈ (FileReport.ofStages stages).findings) :
    ∃ found, .ok found ∈ stages ∧ x ∈ found := by
  induction stages with
  | nil => cases hx
  | cons stage rest ih =>
    cases stage with
    | error e => cases hx
    | ok found =>
      rcases List.mem_append.1 hx with hx | hx
      · exact ⟨found, List.mem_cons_self, hx⟩
      · obtain ⟨other, hother, hx⟩ := ih hx
        exact ⟨other, List.mem_cons_of_mem _ hother, hx⟩

/-- The stage that a finding on a file comes from, with what is known by
then. -/
inductive FoundInFile (ctx : Context) (f : SourceFile)
    (imported : String → Option SetterTaker) (x : Finding) :
    Prop where
  | render (facts : Facts) (helpers : HelperMap)
      (hfacts : Facts.extract ctx f.path f.root = .ok facts)
      (hhelpers : HelperMap.build ctx facts.setters f.root = .ok helpers)
      (hx : x ∈ renderPhase ⟨ctx, f.path, facts, helpers,
        f.root.origins⟩ f.root)
  | hook (facts : Facts) (helpers : HelperMap)
      (hfacts : Facts.extract ctx f.path f.root = .ok facts)
      (hhelpers : HelperMap.build ctx facts.setters f.root = .ok helpers)
      (h : Hook) (i : Interaction)
      (hh : h ∈ f.hooks)
      (hi : h.interaction ctx facts helpers imported f.root.origins = .ok i)
      (hx : x ∈ hookFindings ctx f.path facts h i)
  | props (facts : Facts) (hfacts : Facts.extract ctx f.path f.root = .ok facts)
      (hx : x ∈ unstableProps ctx f.path facts f.root)
  | snapshots (hx : x ∈ freshSnapshots ctx f.path f.root)
  | keys (hx : x ∈ unstableKeys ctx f.path f.root)

variable {f : SourceFile} {imported : String → Option SetterTaker}

/-- Every finding of a file was made by one of its five checks; the cases carry
what each of them looked at. -/
theorem foundInFile (hx : x ∈ (allFindings ctx f imported).findings) :
    FoundInFile ctx f imported x := by
  unfold allFindings at hx
  simp only at hx
  split at hx
  · cases hx
  · next facts helpers hstart =>
    obtain ⟨facts', hfacts, hstart⟩ := bind_eq_ok.1 hstart
    obtain ⟨helpers', hhelpers, hstart⟩ := bind_eq_ok.1 hstart
    cases hstart
    obtain ⟨found, hstage, hx⟩ := mem_ofStages hx
    unfold stages at hstage
    simp only [List.mem_append, List.mem_map, List.mem_cons,
      List.not_mem_nil, or_false, Except.ok.injEq] at hstage
    rcases hstage with (rfl | ⟨h, hh, hstage⟩) | rfl | rfl | rfl
    · exact .render facts helpers hfacts hhelpers hx
    · obtain ⟨i, hi, hstage⟩ := bind_eq_ok.1 hstage
      cases hstage
      exact .hook facts helpers hfacts hhelpers h i hh hi hx
    · exact .props facts hfacts hx
    · exact .snapshots hx
    · exact .keys hx

/-- A finding on a file stands at a node of its tree. -/
theorem exists_standsAt (hx : x ∈ (allFindings ctx f imported).findings) :
    ∃ n ∈ f.root.walk, StandsAt f.path n x := by
  have hvalue {element value : Node} {name : String}
      (helement : element ∈ f.root.walk)
      (hattribute : (name, some value) ∈ element.jsxAttributes) :
      value ∈ f.root.walk :=
    Node.mem_walk_trans (Node.mem_walk_of_mem_jsxAttributes hattribute) helement
  cases foundInFile hx with
  | render facts helpers _ _ hx =>
    obtain ⟨fn, -, component, -, n, hn, hx⟩ := exists_renderNode hx
    exact ⟨n, hn, standsAt_renderNode hx⟩
  | hook facts helpers _ _ h i hh _ hx =>
    exact ⟨h.call, Node.call_mem_walk hh, standsAt_hookFindings hx⟩
  | props facts _ hx =>
    obtain ⟨element, helement, prop, value, what, isProvider, hattribute, -,
      rfl⟩ := exists_propFinding hx
    refine ⟨value, hvalue helement hattribute, ?_⟩
    apply StandsAt.report
    exact ⟨rfl, rfl, rfl⟩
  | snapshots hx =>
    obtain ⟨call, hcall, snapshot, rfl⟩ := exists_snapshotFinding hx
    refine ⟨call, hcall, ?_⟩
    apply StandsAt.report
    exact ⟨rfl, rfl, rfl⟩
  | keys hx =>
    obtain ⟨element, helement, value, index, verdict, hattribute, -, rfl⟩ :=
      exists_keyFinding hx
    refine ⟨value, hvalue helement hattribute, ?_⟩
    apply StandsAt.report
    exact ⟨rfl, rfl, rfl⟩

end Check

end RenderLoop
