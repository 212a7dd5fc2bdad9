import RenderLoop.Proofs.HelperReach
import RenderLoop.Proofs.InnermostComponent
import RenderLoop.Proofs.ListedNames
import RenderLoop.Proofs.OneLine
import RenderLoop.Proofs.Routes
import RenderLoop.Proofs.ScanCoverage

/-!
# Words

Identifiers, the property behind a point and the name in a function
declaration are single tokens of the grammar, and no token of theirs holds a
line feed (`Node.WordsUnbroken`). The names that the analysis goes by are put
together of such words, however far it follows them:

> `Facts.oneLine_of_isSetter`, `Facts.oneLine_of_mem_states`: states and
> setters.

> `Node.WordsUnbroken.of_ofFunction?`: components.

> `Hook.worded_interaction`: all names in the record of what a hook's callback
> does, except the function and the file of a setter that is handed to an
> import. Those are told by the analysis of the other file.

Following a name through the facts means following the places where it is put
on record. A state and its setter come from the declarator of a hook, a
component from its function, a helper from its definition; each of these is a
node of the tree whose text is the name (`Tree.exists_of_mem_boundNames` for
patterns of any depth). The record of a hook repeats these names and invents
none.
-/

namespace RenderLoop

namespace Node

/-- A node that is one token of the grammar. -/
def IsWord (n : Node) : Prop :=
  n.kind = .identifier ∨ n.kind = .shorthandPattern ∨
    n.label.field = some .property ∧ n.parent?.any (·.kind == .member) = true ∨
    n.label.field = some .name ∧
      n.parent?.any (·.kind.isFunctionDeclaration) = true

instance : DecidablePred IsWord :=
  fun _ => inferInstanceAs (Decidable (_ ∨ _ ∨ _ ∧ _ ∨ _ ∧ _))

/-- No word of a tree is broken over several lines. -/
def WordsUnbroken (root : Node) : Prop :=
  ∀ n ∈ root.walk, n.IsWord → OneLine n.text

instance : DecidablePred WordsUnbroken :=
  fun root => inferInstanceAs (Decidable (∀ n ∈ root.walk, _))

end Node

/-! ### Bound names -/

namespace Tree

mutual

/-- A name that a pattern binds is a word of the pattern. -/
theorem exists_of_mem_boundNames (above : List Tree) :
    ∀ (t : Tree) (name : String), name ∈ t.boundNames →
      ∃ n ∈ t.walk above, n.IsWord ∧ n.text = name
  | node l cs, name, h => by
    have hhere (hword : (⟨node l cs, above⟩ : Node).IsWord)
      (h : name ∈ [l.text]) :
        ∃ n ∈ (node l cs).walk above, n.IsWord ∧ n.text = name :=
      ⟨⟨node l cs, above⟩, by rw [walk]; exact List.mem_cons_self, hword,
        (List.mem_singleton.1 h).symm⟩
    have hbelow (h : ∃ n ∈ walkList (node l cs :: above) cs, n.IsWord ∧
      n.text = name) :
        ∃ n ∈ (node l cs).walk above, n.IsWord ∧ n.text = name := by
      obtain ⟨n, hn, h⟩ := h
      exact ⟨n, by rw [walk]; exact List.mem_cons_of_mem _ hn, h⟩
    rw [boundNames] at h
    -- the leaves of a pattern are words themselves, any other pattern passes
    -- the question on
    split at h
    · next hkind => exact hhere (.inl hkind) h
    · next hkind => exact hhere (.inr (.inl hkind)) h
    all_goals first
      | exact hbelow (exists_of_mem_boundAt _ _ cs name h)
      | exact hbelow (exists_of_mem_boundInParts _ cs name h)
      | cases h

theorem exists_of_mem_boundAt (above : List Tree) (f : Field) :
    ∀ (ts : List Tree) (name : String), name ∈ boundAt f ts →
    ∃ n ∈ walkList above ts, n.IsWord ∧ n.text = name
  | [], _, h => by cases h
  | t :: ts, name, h => by
    rw [boundAt] at h
    rw [walkList]
    split at h
    · obtain ⟨n, hn, h⟩ := exists_of_mem_boundNames above t name h
      exact ⟨n, List.mem_append_left _ hn, h⟩
    · obtain ⟨n, hn, h⟩ := exists_of_mem_boundAt above f ts name h
      exact ⟨n, List.mem_append_right _ hn, h⟩

theorem exists_of_mem_boundInParts (above : List Tree) :
    ∀ (ts : List Tree) (name : String), name ∈ boundInParts ts →
    ∃ n ∈ walkList above ts, n.IsWord ∧ n.text = name
  | [], _, h => by cases h
  | t :: ts, name, h => by
    rw [boundInParts] at h
    rw [walkList]
    rcases List.mem_append.1 h with h | h
    · split at h
      · obtain ⟨n, hn, h⟩ := exists_of_mem_boundNames above t name h
        exact ⟨n, List.mem_append_left _ hn, h⟩
      · cases h
    · obtain ⟨n, hn, h⟩ := exists_of_mem_boundInParts above ts name h
      exact ⟨n, List.mem_append_right _ hn, h⟩

end

end Tree

namespace Declaration

/-- The elements of a pattern are children of it. -/
theorem mem_of_mem_elementsFrom {current : Option Node}
    {cs : List Node} {n : Node} (h : some n ∈ elementsFrom current cs) :
    current = some n ∨ n ∈ cs := by
  induction cs generalizing current with
  | nil => exact .inl (List.mem_singleton.1 h).symm
  | cons c cs ih =>
    rw [elementsFrom] at h
    split at h
    · rcases List.mem_cons.1 h with h | h
      · exact .inl h.symm
      · exact .inr (List.mem_cons_of_mem _ ((ih h).resolve_left (by simp)))
    · split at h
      · rcases ih h with h | h
        · exact .inr (Option.some.inj h ▸ List.mem_cons_self)
        · exact .inr (List.mem_cons_of_mem _ h)
      · exact (ih h).imp_right (List.mem_cons_of_mem _)

/-- An element that is a name is an identifier of the source. -/
theorem exists_of_identifierAt? {pattern : Node} {i : Nat} {name : String}
    (h : identifierAt? pattern i = some name) :
    ∃ n ∈ pattern.walk, n.kind = .identifier ∧ n.text = name := by
  unfold identifierAt? at h
  split at h
  · next n hn =>
    split at h
    · next hkind =>
      have hmem :=
        (mem_of_mem_elementsFrom (List.mem_of_getElem? hn)).resolve_left
        (by simp)
      exact ⟨n, Node.mem_walk_of_mem_children hmem, by simpa using hkind,
        Option.some.inj h⟩
    · cases h
  · cases h

end Declaration

/-! ### Names of declarators, functions and calls -/

namespace Node

variable {root n p fn call : Node} {name : String}

/-- Bound names are words. -/
theorem WordsUnbroken.of_mem_boundNames (h : root.WordsUnbroken)
    (hn : n ∈ root.walk) (hname : name ∈ n.boundNames) : OneLine name := by
  obtain ⟨word, hmem, hword, rfl⟩ :=
    n.tree.exists_of_mem_boundNames n.above name hname
  exact h word (mem_walk_trans hmem hn) hword

open Declaration in
/-- What a declarator binds in a role is a word. -/
theorem WordsUnbroken.of_bindsAs (h : root.WordsUnbroken) {ctx : Context}
    {d : Node} (hd : d ∈ root.walk) {role : Role}
    (hbinds : BindsAs ctx d role name) : OneLine name := by
  have hpattern {pattern value : Node} (hinit : Initializes d pattern value) :
      pattern ∈ root.walk :=
    mem_walk_trans (mem_walk_of_child? hinit.hpattern) hd
  have helement {pattern value : Node} {i : Nat} {name : String}
      (hinit : Initializes d pattern value)
      (hname : identifierAt? pattern i = some name) : OneLine name := by
    obtain ⟨word, hmem, hkind, rfl⟩ := exists_of_identifierAt? hname
    exact h word (mem_walk_trans hmem (hpattern hinit)) (.inl hkind)
  cases hbinds with
  | state hinit _ _ _ hfirst _ => exact helement hinit hfirst
  | setter hinit _ _ _ hsecond => exact helement hinit hsecond
  | contextState hinit _ _ _ _ hstate =>
    exact h.of_mem_boundNames (hpattern hinit) hstate
  | contextSetter hinit _ _ hsetter _ _ =>
    exact h.of_mem_boundNames (hpattern hinit) hsetter
  | ref hinit hshape _ => exact h _ (hpattern hinit) (.inl hshape)
  | memo hinit hshape _ => exact h _ (hpattern hinit) (.inl hshape)
  | moduleLevel hinit _ _ hname =>
    exact h.of_mem_boundNames (hpattern hinit) hname

/-- So are the names that declarations give. -/
theorem WordsUnbroken.of_declaredName? (h : root.WordsUnbroken)
    (hn : n ∈ root.walk) (hname : n.declaredName? = some name) :
    OneLine name := by
  unfold declaredName? at hname
  split at hname
  · next target htarget =>
    split at hname
    · next hkind =>
      cases hname
      exact h target (mem_walk_trans (mem_walk_of_child? htarget) hn)
        (.inl (by simpa using hkind))
    · cases hname
  · cases hname

/-- In a whole tree everything above a node is in the walk. -/
theorem mem_walk_of_mem_ancestors (htop : root.above = []) (hn : n ∈ root.walk)
    (hp : p ∈ n.ancestors) :
    p ∈ root.walk := by
  have hnone : root.ancestors = [] := by
    unfold ancestors
    rw [htop, chain]
  rcases exists_descent_of_mem_walk hn with rfl | ⟨steps, d⟩
  · rw [hnone] at hp
    cases hp
  · rw [d.ancestors_eq, hnone] at hp
    rcases List.mem_append.1 hp with hp | hp
    · obtain ⟨s, hs, rfl⟩ := List.mem_map.1 hp
      exact d.parent_mem_walk.2 s hs
    · rw [List.mem_singleton.1 hp]
      exact mem_walk_self _

/-- What holds the function of a component is a node of the file. -/
theorem mem_walk_of_holder? (htop : root.above = []) (hfn : fn ∈ root.walk)
    (h : Component.holder? fn = some p) : p ∈ root.walk := by
  have hbeyond {n p : Node} {skip : Kind → Bool} (hn : n ∈ root.walk)
      (h : n.parentBeyond? skip = some p) : p ∈ root.walk :=
    mem_walk_of_mem_ancestors htop hn (List.mem_of_find?_eq_some h)
  unfold Component.holder? at h
  split at h
  · next q hq =>
    split at h
    · split at h
      · next call hcall =>
        split at h
        -- behind `memo` and `forwardRef` the climb starts again at their call
        · refine hbeyond (mem_walk_of_mem_ancestors htop (hbeyond hfn hq) ?_) h
          rw [parent?_eq_some.1 hcall]
          exact List.mem_cons_self
        · cases h
          exact hbeyond hfn hq
      · cases h
        exact hbeyond hfn hq
    · cases h
      exact hbeyond hfn hq
  · cases h

/-- The name of a component is a word, that of its declaration or of
the variable it is bound to. -/
theorem WordsUnbroken.of_ofFunction? (h : root.WordsUnbroken)
    (htop : root.above = []) (hfn : fn ∈ root.walk)
    {c : Component} (hc : Component.ofFunction? fn = some c) :
    OneLine c.name := by
  have hname : Component.nameOf? fn = some c.name := by
    unfold Component.ofFunction? at hc
    split at hc
    · next name hname =>
      split at hc
      · cases hc
        exact hname
      · cases hc
    · cases hc
  unfold Component.nameOf? at hname
  split at hname
  · next hdeclares =>
    obtain ⟨word, hword, heq⟩ := Option.map_eq_some_iff.1 hname
    rw [← heq]
    refine h word (mem_walk_trans (mem_walk_of_child? hword) hfn)
      (.inr (.inr (.inr ⟨?_, ?_⟩)))
    · exact field_of_child? hword
    · rw [parent?_of_mem_children (mem_children_of_child? hword)]
      exact hdeclares
  · split at hname
    · split at hname
      · next p hp =>
        split at hname
        · exact h.of_declaredName? (mem_walk_of_holder? htop hfn hp) hname
        · cases hname
      · cases hname
    · cases hname

theorem mem_walk_of_callee? {target : Node} (h : call.callee? = some target) :
    target ∈ call.walk := by
  unfold callee? at h
  split at h
  · next f hf =>
    cases h
    exact mem_walk_trans f.bare_mem_walk (mem_walk_of_child? hf)
  · obtain ⟨c, hc, rfl⟩ := Option.map_eq_some_iff.1 h
    exact mem_walk_trans c.bare_mem_walk (mem_walk_of_child? hc)

/-- The key of a callee is a word, or two words joined by a point. -/
theorem WordsUnbroken.of_calleeKey? (h : root.WordsUnbroken)
    (hcall : call ∈ root.walk) (hkey : call.calleeKey? = some name) :
    OneLine name := by
  unfold calleeKey? at hkey
  split at hkey
  · cases hkey
  · next target htarget =>
    have hmem := mem_walk_trans (mem_walk_of_callee? htarget) hcall
    split at hkey
    · next hkind =>
      cases hkey
      exact h target hmem (.inl hkind)
    · next hkind =>
      split at hkey
      · next object hobject =>
        split at hkey
        · next hid =>
          cases hkey
          obtain ⟨inner, hinner, rfl⟩ := Option.map_eq_some_iff.1 hobject
          have hwalk := mem_walk_trans inner.bare_mem_walk
            (mem_walk_of_child? hinner)
          refine .append (.append
            (h _ (mem_walk_trans hwalk hmem) (.inl (by simpa using hid)))
            (.literal (by decide))) ?_
          unfold childText
          cases hproperty : target.child? .property with
          | none => exact .literal (by decide)
          | some property =>
            refine h property (mem_walk_trans (mem_walk_of_child? hproperty)
              hmem) (.inr (.inr (.inl ⟨?_, ?_⟩)))
            · exact field_of_child? hproperty
            · rw [parent?_of_mem_children (mem_children_of_child? hproperty)]
              simp [hkind]
        · cases hkey
      · cases hkey
    · cases hkey

end Node

/-! ### Facts -/

namespace Facts

variable {ctx : Context} {file : String} {root n : Node} {facts : Facts}
  {state setter name : String}

/-- The component around a node is one of the file's. -/
theorem mem_components_of_componentAt? {c : Component}
    (h : facts.componentAt? n = some c) :
    c ∈ facts.components := by
  -- the best so far is kept or replaced by a component of the list, never made
  -- up
  have hfold : ∀ (cs : List Component) (best : Option Component),
      cs.foldl (inner n) best = some c → best = some c ∨ c ∈ cs := by
    intro cs
    induction cs with
    | nil => exact fun best h => .inl h
    | cons d cs ih =>
      intro best h
      rcases ih _ h with h | h
      · unfold inner at h
        split at h
        · exact .inr (Option.some.inj h ▸ List.mem_cons_self)
        · exact .inl h
      · exact .inr (List.mem_cons_of_mem _ h)
  exact (hfold _ none h).resolve_left (by simp)

/-- The name of the component around a node is a word. -/
theorem oneLine_of_componentAt? (h : extract ctx file root = .ok facts)
    (hwords : root.WordsUnbroken) (htop : root.above = []) {c : Component}
    (hc : facts.componentAt? n = some c) : OneLine c.name := by
  have hmem := mem_components_of_componentAt? hc
  rw [components_of_extract h] at hmem
  obtain ⟨fn, hfn, hof⟩ := List.mem_filterMap.1 hmem
  exact hwords.of_ofFunction? htop (List.mem_filter.1 hfn).1 hof

section

variable (h : extract ctx file root = .ok facts) (hwords : root.WordsUnbroken)

include h hwords

/-- Setters are words. -/
theorem oneLine_of_isSetter (hsetter : facts.isSetter setter = true) :
    OneLine setter := by
  obtain ⟨ds, hds, rfl⟩ := extract_eq_ok.1 h
  have hmem : setter ∈ ds.flatMap (Declaration.namesAs .setter) :=
    List.mem_eraseDups.1 (List.contains_iff_mem.1 hsetter)
  obtain ⟨d, hd, hbinds⟩ :=
    (mem_flatMap_iff_exists hds fun _ _ hof =>
    Declaration.mem_namesAs_iff hof).1 hmem
  exact hwords.of_bindsAs (List.mem_filter.1 hd).1 hbinds

/-- States are words. -/
theorem oneLine_of_mem_states (hpair : (state, setter) ∈ facts.states) :
    OneLine state := by
  obtain ⟨ds, hds, rfl⟩ := extract_eq_ok.1 h
  obtain ⟨decl, hdecl, hpair⟩ :=
    List.mem_flatMap.1 (Table.mem_of_mem_ofEntries hpair)
  have hmem : state ∈ ds.flatMap (Declaration.namesAs .state) :=
    List.mem_flatMap.2 ⟨decl, hdecl, List.mem_map.2 ⟨_, hpair, rfl⟩⟩
  obtain ⟨d, hd, hbinds⟩ :=
    (mem_flatMap_iff_exists hds fun _ _ hof =>
    Declaration.mem_namesAs_iff hof).1 hmem
  exact hwords.of_bindsAs (List.mem_filter.1 hd).1 hbinds

/-- So a state and its setter are. -/
theorem oneLine_of_setterOf? (hs : facts.setterOf? state = some setter) :
    OneLine state ∧ OneLine setter :=
  ⟨oneLine_of_mem_states h hwords (Table.mem_of_get? hs),
    oneLine_of_isSetter h hwords (isSetter_of_setterOf? h hs)⟩

theorem oneLine_of_stateOf? (hs : facts.stateOf? setter = some state) :
    OneLine state := by
  obtain ⟨e, he, rfl⟩ := Option.map_eq_some_iff.1 hs
  exact oneLine_of_mem_states h hwords
    (List.mem_reverse.1 (List.mem_of_find?_eq_some he))

end

end Facts

/-! ### The record of a callback -/

/-- The setters that helpers reach are setters of the file. -/
theorem HelperMap.mem_setters {ctx : Context} {setters : List String}
    {root : Node} {m : HelperMap} (h : build ctx setters root = .ok m)
    {name setter : String}
    (hs : setter ∈ m.settersNow name ∨ setter ∈ m.settersLater name) :
    setter ∈ setters := by
  obtain ⟨edges, start, hspreads⟩ := exists_spreads h
  -- induction on how the setter came to the helper: it starts out as one of the
  -- file's
  have hderived : ∀ {k : Nat} {later : Bool} {name : String},
      Update.Derives edges start setter k later name → setter ∈ setters := by
    intro k later name hderives
    induction hderives with
    | own hown => exact ((hspreads.own ..).1 hown).1
    | along _ _ ih => exact ih
  rcases hs with hs | hs
  · obtain ⟨k, hderives⟩ :=
      Update.sound_propagate edges _ start false name setter
        ((hspreads.now ..).1 hs)
    exact hderived hderives
  · obtain ⟨k, hderives⟩ :=
      Update.sound_propagate edges _ start true name setter
        ((hspreads.later ..).1 hs)
    exact hderived hderives

/-- The names in a record are words, or told by an imported function. -/
structure Interaction.Worded (imported : String → Option SetterTaker)
    (i : Interaction) : Prop where
  reached : ∀ setter ∈ Check.reachedSetters i, OneLine setter
  helper : ∀ setter name, i.helperFor? setter = some name → OneLine name
  guard : ∀ g ∈ i.guarded, OneLine g.state
  imported : ∀ setter call, i.importedCallFor? setter = some call →
    ∃ name taker, imported name = some taker ∧ call.function = taker.name ∧
      call.file = taker.file

theorem Interaction.worded_empty (imported : String → Option SetterTaker) :
    ({} : Interaction).Worded imported where
  reached _ h := absurd (Check.mem_reachedSetters.1 h) (by simp)
  helper _ _ h := by cases h
  guard _ h := by cases h
  imported _ _ h := by cases h

namespace Update.Body

variable {b : Body} {call : Node} {s : Site} {setter : String} {ρ : Check.Route}

/-- A call that gets to something gets to a setter. -/
theorem Takes.isSetter (h : b.Takes call setter ρ) {root : Node}
    (hhelpers : HelperMap.build b.ctx b.facts.setters root = .ok b.helpers) :
    b.facts.isSetter setter = true := by
  cases h with
  | direct _ hsetter => exact hsetter
  | helper _ _ _ _ hreach =>
    exact List.contains_iff_mem.2 (HelperMap.mem_setters hhelpers (.inl hreach))
  | imported _ _ _ _ _ _ _ _ _ _ _ _ hsetter _ => exact hsetter

/-- And so does one that makes an effect run again. -/
theorem RerunsBy.isSetter (h : b.RerunsBy setter ρ s) {root : Node}
    (hhelpers : HelperMap.build b.ctx b.facts.setters root = .ok b.helpers) :
    b.facts.isSetter setter = true := by
  have hreached {name : String} (h : setter ∈ b.helpers.settersNow name ∨
    setter ∈ b.helpers.settersLater name) :
      b.facts.isSetter setter = true :=
        List.contains_iff_mem.2 (HelperMap.mem_setters hhelpers h)
  cases h with
  | now _ _ htakes => exact htakes.isSetter hhelpers
  | later hleaves =>
    cases hleaves with
    | called _ _ _ htakes => exact htakes.isSetter hhelpers
    | inHelper _ _ _ _ hreach => exact hreached (.inr hreach)
    | given _ _ hsetter => exact hsetter
    | givenHelper _ _ _ _ _ hreach => exact hreached hreach

end Update.Body

open Update in
/-- The names in the record of what a hook's callback does are words. -/
theorem Hook.worded_interaction {ctx : Context} {file : String} {root : Node}
    {facts : Facts} {helpers : HelperMap}
    {imported : String → Option SetterTaker}
    {origins : Table (List String)} {h : Hook}
    {i : Interaction} (hwords : root.WordsUnbroken)
    (hfacts : Facts.extract ctx file root = .ok facts)
    (hhelpers : HelperMap.build ctx facts.setters root = .ok helpers)
    (hh : h ∈ root.hooks)
    (hi : h.interaction ctx facts helpers imported origins = .ok i) :
    i.Worded imported := by
  unfold Hook.interaction at hi
  split at hi
  · next callback hcallback =>
    split at hi
    · obtain ⟨sites, hsites⟩ := Check.exists_sites hi
      have hcallback := Node.callback_mem_walk hh hcallback
      have hbelow (s : Site) (hs : s ∈ sites) : s.call ∈ root.walk :=
        Node.mem_walk_trans (met_scanTree _ _ _ _ sites hsites s hs).below
          hcallback
      refine ⟨fun setter hsetter => ?_, fun setter name hname => ?_,
        fun g hg => ?_, fun setter c hc => ?_⟩
      · obtain ⟨s, -, ρ, hreruns⟩ :=
          (Body.mem_reachedSetters_iff_rerunsBy hsites hi).1 hsetter
        exact Facts.oneLine_of_isSetter hfacts hwords
          (hreruns.isSetter hhelpers)
      · obtain ⟨before, s, after, rfl, -, htakes, -, -⟩ :=
          Body.helperFor?_eq_some hsites hi hname
        cases htakes with
        | helper _ hkey _ _ _ =>
          exact hwords.of_calleeKey? (hbelow s (by simp)) hkey
      · obtain ⟨s, -, -, hguard⟩ := (Body.mem_guarded hsites hi).1 hg
        exact Facts.oneLine_of_stateOf? hfacts hwords
          (Guard.about_of_inEffect? hguard).2
      · obtain ⟨before, s, after, -, -, htakes, -, -⟩ :=
          Body.importedCallFor?_eq_some hsites hi hc
        cases htakes with
        | imported name taker _ _ _ _ _ _ htaker =>
          exact ⟨name, taker, htaker, rfl, rfl⟩
    · cases hi
      exact Interaction.worded_empty imported
  · cases hi
    exact Interaction.worded_empty imported

end RenderLoop
