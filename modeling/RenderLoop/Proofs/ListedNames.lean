import RenderLoop.Proofs.Renewals

/-!
# Which renewed names are listed

A name that a component renews is listed as unstable unless it is settled.
Being settled is a matter of the whole file: a state, a setter, a ref or a
name of the module settles the name for every component, and only memoized
names are kept apart by component.

> `mem_namesAs_iff`: the names that a declarator stands for in a role are
> those it binds in that role.

> `settled_iff`: a name is settled for a component iff some declarator of the
> file binds it in a role, where a memoized one has to belong to the
> component.

> `extract_lists_apart`: a renewed name is listed iff every declarator that
> binds it in a role memoizes it for another component.

Settings that call a hook unstable are heeded for the names a pattern binds to
its result, as long as the rules about the call are asked and nothing is said
about it before (`extract_lists_configured`).

What a declarator stands for is decided by the shape of its pattern and by the
called hook, and there is one lemma for each of the hooks
(`ofHook?_arrayPattern`, `ofHook?_context`, `ofHook?_ref`, `ofHook?_memo`).
The facts are then sums over the declarators of the file, so membership in
them is existence of a declarator.
-/

namespace RenderLoop

theorem Node.kind_of_isCallOf {n : Node} {hooks : List String}
    (h : n.isCallOf hooks = true) :
    n.kind = .call := by
  unfold isCallOf isCallOfIn at h
  rw [Bool.and_eq_true, beq_iff_eq] at h
  exact h.1

/-- Calls of hooks of different names are different calls. -/
theorem Node.not_isCallOf_of_disjoint {n : Node} {hooks others : List String}
    (h : ∀ name ∈ hooks, name ∉ others) (hcall : n.isCallOf hooks = true) :
    n.isCallOf others = false := by
  rw [Bool.eq_false_iff]
  intro hother
  -- both lists would have the one name that is called
  unfold isCallOf isCallOfIn at hcall hother
  rw [Bool.and_eq_true] at hcall hother
  have hcall := hcall.2
  have hother := hother.2
  split at hcall
  · cases hcall
  · next f hcallee =>
    simp only [hcallee] at hother
    split at hcall
    · next hkind =>
      simp only [hkind] at hother
      exact h f.text (by simpa using hcall) (by simpa using hother)
    · next hkind =>
      simp only [hkind] at hother
      split at hcall
      · next object hobject =>
        simp only [hobject] at hother
        rw [Bool.and_eq_true] at hcall hother
        exact h _ (by simpa using hcall.2) (by simpa using hother.2)
      · cases hcall
    · cases hcall

namespace Declaration

/-- What a name may be bound as that keeps it from being new on every render. -/
inductive Role where
  | state
  | setter
  | ref
  | memo
  | moduleLevel
  deriving DecidableEq

/-- The roles, each once. -/
def Role.all : List Role := [state, setter, ref, memo, moduleLevel]

theorem Role.mem_all (role : Role) : role ∈ all := by
  cases role <;> decide

/-- A declarator binds a name in a role. -/
inductive BindsAs (ctx : Context) (d : Node) : Role → String → Prop where
  | state {pattern call : Node} {state setter : String}
      (hinit : Initializes d pattern call) (hcall : call.kind = .call)
      (hshape : pattern.kind = .arrayPattern)
      (htaken : TakenFromHook ctx pattern call)
      (hfirst : identifierAt? pattern 0 = some state)
      (hsecond : identifierAt? pattern 1 = some setter) :
        BindsAs ctx d .state state
  | setter {pattern call : Node} {setter : String}
      (hinit : Initializes d pattern call) (hcall : call.kind = .call)
      (hshape : pattern.kind = .arrayPattern)
      (htaken : TakenFromHook ctx pattern call)
      (hsecond : identifierAt? pattern 1 = some setter) :
      BindsAs ctx d .setter setter
  /-- Of a context a name like that of a setter is taken together with the state
  it would set. -/
  | contextState {pattern call : Node} {setter : String}
      (hinit : Initializes d pattern call)
      (hshape : pattern.kind = .objectPattern)
      (hcall : call.isCallOf ["useContext"] = true)
      (hsetter : setter ∈ pattern.boundNames)
      (hname : ctx.isSetterName setter = true)
      (hstate : stateNamedBy setter ∈ pattern.boundNames) :
        BindsAs ctx d .state (stateNamedBy setter)
  | contextSetter {pattern call : Node} {setter : String}
      (hinit : Initializes d pattern call)
      (hshape : pattern.kind = .objectPattern)
      (hcall : call.isCallOf ["useContext"] = true)
      (hsetter : setter ∈ pattern.boundNames)
      (hname : ctx.isSetterName setter = true)
      (hstate : stateNamedBy setter ∈ pattern.boundNames) :
        BindsAs ctx d .setter setter
  | ref {pattern call : Node} (hinit : Initializes d pattern call)
      (hshape : pattern.kind = .identifier)
      (hcall : call.isCallOf ["useRef"] = true) :
      BindsAs ctx d .ref pattern.text
  | memo {pattern call : Node} (hinit : Initializes d pattern call)
      (hshape : pattern.kind = .identifier)
      (hcall : call.isCallOf memoHooks = true) :
      BindsAs ctx d .memo pattern.text
  /-- Outside all functions, whatever no hook decides about is a name of
  the module. -/
  | moduleLevel {pattern value : Node} {name : String}
      (hinit : Initializes d pattern value) (hfree : HookFree ctx pattern value)
      (houter : d.enclosingFunctions = [])
      (hname : name ∈ pattern.boundNames) : BindsAs ctx d .moduleLevel name

/-- The names a declaration stands for in a role. -/
def namesAs : Role → Declaration → List String
  | .state, decl => (Facts.statePairs decl).map (·.1)
  | .setter, decl => Facts.settersOf decl
  | .ref, decl => Facts.refsOf decl
  | .memo, decl => (Facts.memosOf decl).map (·.2)
  | .moduleLevel, decl => Facts.moduleNamesOf decl

variable {ctx : Context} {file : String} {d pattern value : Node}
  {decl : Declaration}

/-! ### Readings by a hook -/

/-- An array pattern on a state hook declares a state and its setter. -/
theorem ofHook?_arrayPattern (hshape : pattern.kind = .arrayPattern)
    (htaken : TakenFromHook ctx pattern value) : ofHook? ctx d pattern value =
      some (.state (identifierAt? pattern 0) (identifierAt? pattern 1)) := by
  have hsome := (isSome_ofArrayPattern?_iff hshape).2 htaken
  unfold ofHook?
  rw [hshape]
  unfold ofArrayPattern? at hsome ⊢
  dsimp only at hsome ⊢
  split at hsome
  · next h => exact if_pos h
  · cases hsome

/-- An object pattern on a context declares the setters in it, with the states
they are named for. -/
theorem ofHook?_context (hshape : pattern.kind = .objectPattern)
    (hcall : value.isCallOf ["useContext"] = true) :
      ofHook? ctx d pattern value =
      some (.context (contextPairs ctx pattern.boundNames)) := by
  unfold ofHook?
  rw [hshape]
  exact if_pos hcall

/-- A name bound to a ref is a ref. -/
theorem ofHook?_ref (hshape : pattern.kind = .identifier)
    (hcall : value.isCallOf ["useRef"] = true) :
    ofHook? ctx d pattern value = some (.ref pattern.text) := by
  unfold ofHook?
  rw [hshape]
  exact if_pos hcall

/-- A name bound to a memo hook is memoized by the component around it. -/
theorem ofHook?_memo (hshape : pattern.kind = .identifier)
    (hcall : value.isCallOf memoHooks = true) :
    ofHook? ctx d pattern value = some (.memo (ownerOf d) pattern.text) := by
  have hnotRef : ¬ value.isCallOf ["useRef"] = true := by
    rw [Node.not_isCallOf_of_disjoint (by decide) hcall]
    exact Bool.false_ne_true
  unfold ofHook?
  rw [hshape]
  exact (if_neg hnotRef).trans (if_pos hcall)

/-- What hooks can decide about a declarator. -/
theorem ofHook?_cases (htaken : ofHook? ctx d pattern value = some decl) :
    (pattern.kind = .arrayPattern ∧ TakenFromHook ctx pattern value ∧
      decl = .state (identifierAt? pattern 0) (identifierAt? pattern 1)) ∨
    (pattern.kind = .objectPattern ∧ value.isCallOf ["useContext"] = true ∧
      decl = .context (contextPairs ctx pattern.boundNames)) ∨
    (pattern.kind = .identifier ∧ value.isCallOf ["useRef"] = true ∧
      decl = .ref pattern.text) ∨
    (pattern.kind = .identifier ∧ value.isCallOf memoHooks = true ∧
      decl = .memo (ownerOf d) pattern.text) ∨
    decl = irrelevant := by
  have h := htaken
  unfold ofHook? at h
  split at h
  · next hshape =>
    have hhook := (isSome_ofArrayPattern?_iff hshape).1 (by rw [h]; rfl)
    rw [ofHook?_arrayPattern hshape hhook] at htaken
    exact .inl ⟨hshape, hhook, (Option.some.inj htaken).symm⟩
  · next hshape =>
    split at h
    · next hcall => exact .inr (.inl ⟨hshape, hcall, (Option.some.inj h).symm⟩)
    · cases h
  · next hshape =>
    unfold ofIdentifier? at h
    split at h
    · next hcall =>
        exact .inr (.inr (.inl ⟨hshape, hcall, (Option.some.inj h).symm⟩))
    · split at h
      · next hcall =>
          exact .inr
            (.inr (.inr (.inl ⟨hshape, hcall, (Option.some.inj h).symm⟩)))
      · split at h
        · exact .inr (.inr (.inr (.inr (Option.some.inj h).symm)))
        · cases h
  · cases h

/-- A declarator whose value comes from a hook declares what the hook
gives. -/
theorem Initializes.ofNode_of_hook (h : Initializes d pattern value)
    (hcall : value.kind = .call)
    (hhook : ofHook? ctx d pattern value = some decl) :
    ofNode ctx file d = .ok decl := by
  unfold ofNode
  simp only [h.hpattern, h.hvalue, h.tracked, hcall, hhook, beq_self_eq_true,
    Bool.not_true, Bool.false_eq_true, if_true, if_false]

/-- Outside of all functions the names of a declarator belong to
the module. -/
theorem Initializes.ofNode_of_module (h : Initializes d pattern value)
    (hfree : HookFree ctx pattern value) (houter : d.enclosingFunctions = []) :
    ofNode ctx file d = .ok (.moduleLevel pattern.boundNames) := by
  unfold ofNode
  simp only [h.hpattern, h.hvalue, h.tracked, hfree.ofHook?_eq_none h.tracked,
    houter, Bool.not_true, Bool.false_eq_true, if_false]

/-! ### Names in a role -/

/-- A setter in a context pattern counts if the state it is named for is
there, too. -/
theorem mem_contextPairs {names : List String} {state setter : String} :
    (state, setter) ∈ contextPairs ctx names ↔
      setter ∈ names ∧ ctx.isSetterName setter = true ∧
        stateNamedBy setter ∈ names ∧ stateNamedBy setter = state := by
  unfold contextPairs
  rw [List.mem_filterMap]
  constructor
  · rintro ⟨name, hname, h⟩
    dsimp only at h
    split at h
    · next hpair =>
      obtain ⟨rfl, rfl⟩ := Prod.mk.inj (Option.some.inj h)
      rw [Bool.and_eq_true, List.contains_iff_mem] at hpair
      exact ⟨List.mem_eraseDups.1 hname, hpair.1, hpair.2, rfl⟩
    · cases h
  · rintro ⟨hsetter, hname, hstate, rfl⟩
    refine ⟨setter, List.mem_eraseDups.2 hsetter, if_pos ?_⟩
    rw [Bool.and_eq_true, List.contains_iff_mem]
    exact ⟨hname, hstate⟩

variable {role : Role} {name : String}

/-- A state pair stands for a state, if it has a setter, and for a setter. -/
theorem mem_namesAs_state {first second : Option String} :
    name ∈ namesAs role (.state first second) ↔
    role = .state ∧ first = some name ∧ (∃ setter, second = some setter) ∨
      role = .setter ∧ second = some name := by
  cases first <;> cases second <;> cases role <;>
    simp [namesAs, Facts.statePairs, Facts.settersOf, Facts.refsOf,
      Facts.memosOf, Facts.moduleNamesOf, eq_comm]

/-- What a context pattern stands for are the states and the setters of its
pairs. -/
theorem mem_namesAs_context {pairs : List (String × String)} :
    name ∈ namesAs role (.context pairs) ↔
    role = .state ∧ (∃ setter, (name, setter) ∈ pairs) ∨ role = .setter ∧
    ∃ state, (state, name) ∈ pairs := by
  cases role <;>
    simp [namesAs, Facts.statePairs, Facts.settersOf, Facts.refsOf,
      Facts.memosOf, Facts.moduleNamesOf]

theorem mem_namesAs_ref {bound : String} :
    name ∈ namesAs role (.ref bound) ↔ role = .ref ∧ name = bound := by
  cases role <;>
    simp [namesAs, Facts.statePairs, Facts.settersOf, Facts.refsOf,
      Facts.memosOf, Facts.moduleNamesOf]

theorem mem_namesAs_memo {owner bound : String} :
    name ∈ namesAs role (.memo owner bound) ↔ role = .memo ∧ name = bound := by
  cases role <;>
    simp [namesAs, Facts.statePairs, Facts.settersOf, Facts.refsOf,
      Facts.memosOf, Facts.moduleNamesOf]

theorem mem_namesAs_moduleLevel {names : List String} :
    name ∈ namesAs role (.moduleLevel names) ↔ role = .moduleLevel ∧
      name ∈ names := by
  cases role <;>
    simp [namesAs, Facts.statePairs, Facts.settersOf, Facts.refsOf,
      Facts.memosOf, Facts.moduleNamesOf]

theorem namesAs_irrelevant (role : Role) : namesAs role irrelevant = [] := by
  cases role <;> rfl

theorem namesAs_unstable (role : Role) (found : List UnstableVariable) :
    namesAs role (.unstable found) = [] := by
  cases role <;> rfl

/-- Inside a component a declarator that no hook decides about binds no name
in a role. -/
theorem namesAs_ofComponent {owner : Component}
    (htracked : isTracked pattern.kind = true)
    (h : ofComponent ctx file owner d pattern value = .ok decl)
    (role : Role) : namesAs role decl = [] := by
  by_cases hcall : value.kind = .call
  · by_cases hapart : TakesApart ctx pattern value
    · rw [ofComponent_of_takesApart htracked hcall hapart] at h
      cases h
      exact namesAs_irrelevant role
    · rw [ofComponent_of_call htracked hcall hapart] at h
      obtain ⟨verdict, -, h⟩ := bind_eq_ok.1 h
      cases h
      unfold ofVerdict
      split
      · exact namesAs_irrelevant role
      · exact namesAs_unstable role _
  · rcases ofComponent_cases_of_not_call ctx file owner d pattern hcall with
      hnone | ⟨hname, kind, hliteral⟩
    · cases h.symm.trans hnone
      exact namesAs_irrelevant role
    · cases h.symm.trans (ofComponent_of_literal hname hliteral)
      exact namesAs_unstable role _

/-- A name that hooks give a role is bound in that role. -/
theorem bindsAs_of_hook (hpattern : d.child? .name = some pattern)
    (hvalue : d.bareChild? .value = some value) (hcall : value.kind = .call)
    (hhook : ofHook? ctx d pattern value = some decl)
    (hname : name ∈ namesAs role decl) :
    BindsAs ctx d role name := by
  have hinit (hshape : isTracked pattern.kind = true) :
      Initializes d pattern value :=
    ⟨hpattern, hvalue, hshape⟩
  rcases ofHook?_cases hhook with ⟨hshape, htaken, rfl⟩ |
    ⟨hshape, hcontext, rfl⟩ | ⟨hshape, href, rfl⟩ |
    ⟨hshape, hmemo, rfl⟩ | rfl
  · rcases mem_namesAs_state.1 hname with ⟨rfl, hfirst, setter, hsecond⟩ |
      ⟨rfl, hsecond⟩
    · exact .state (hinit (by rw [hshape]; rfl)) hcall hshape htaken
        hfirst hsecond
    · exact .setter (hinit (by rw [hshape]; rfl)) hcall hshape htaken hsecond
  · rcases mem_namesAs_context.1 hname with ⟨rfl, setter, hpair⟩ |
      ⟨rfl, state, hpair⟩
    · obtain ⟨hsetter, hlike, hstate, rfl⟩ := mem_contextPairs.1 hpair
      exact .contextState (hinit (by rw [hshape]; rfl)) hshape hcontext hsetter
        hlike hstate
    · obtain ⟨hsetter, hlike, hstate, -⟩ := mem_contextPairs.1 hpair
      exact .contextSetter (hinit (by rw [hshape]; rfl)) hshape hcontext hsetter
        hlike hstate
  · obtain ⟨rfl, rfl⟩ := mem_namesAs_ref.1 hname
    exact .ref (hinit (by rw [hshape]; rfl)) hshape href
  · obtain ⟨rfl, rfl⟩ := mem_namesAs_memo.1 hname
    exact .memo (hinit (by rw [hshape]; rfl)) hshape hmemo
  · rw [namesAs_irrelevant] at hname
    cases hname

/-- A declarator stands for a name in a role iff it binds the name in that
role. -/
theorem mem_namesAs_iff (h : ofNode ctx file d = .ok decl) :
    name ∈ namesAs role decl ↔ BindsAs ctx d role name := by
  constructor
  · intro hname
    rcases ofNode_cases ctx file d with hnone |
      ⟨pattern, value, other, hpattern, hvalue, hcall, hhook, hother⟩ |
      ⟨pattern, value, hinit, hfree, houter, hmodule⟩ |
        ⟨owner, pattern, value, hbinds, -, heq⟩
    · cases h.symm.trans hnone
      rw [namesAs_irrelevant] at hname
      cases hname
    · cases h.symm.trans hother
      exact bindsAs_of_hook hpattern hvalue hcall hhook hname
    · cases h.symm.trans hmodule
      obtain ⟨rfl, hname⟩ := mem_namesAs_moduleLevel.1 hname
      exact .moduleLevel hinit hfree houter hname
    · rw [namesAs_ofComponent hbinds.tracked (heq.symm.trans h)] at hname
      cases hname
  · intro hbinds
    cases hbinds with
    | state hinit hcall hshape htaken hfirst hsecond =>
      cases h.symm.trans
        (hinit.ofNode_of_hook hcall (ofHook?_arrayPattern hshape htaken))
      exact mem_namesAs_state.2 (.inl ⟨rfl, hfirst, _, hsecond⟩)
    | setter hinit hcall hshape htaken hsecond =>
      cases h.symm.trans
        (hinit.ofNode_of_hook hcall (ofHook?_arrayPattern hshape htaken))
      exact mem_namesAs_state.2 (.inr ⟨rfl, hsecond⟩)
    | contextState hinit hshape hcall hsetter hlike hstate =>
      cases h.symm.trans (hinit.ofNode_of_hook (Node.kind_of_isCallOf hcall)
        (ofHook?_context hshape hcall))
      exact mem_namesAs_context.2
        (.inl ⟨rfl, _, mem_contextPairs.2 ⟨hsetter, hlike, hstate, rfl⟩⟩)
    | contextSetter hinit hshape hcall hsetter hlike hstate =>
      cases h.symm.trans (hinit.ofNode_of_hook (Node.kind_of_isCallOf hcall)
        (ofHook?_context hshape hcall))
      exact mem_namesAs_context.2
        (.inr ⟨rfl, _, mem_contextPairs.2 ⟨hsetter, hlike, hstate, rfl⟩⟩)
    | ref hinit hshape hcall =>
      cases h.symm.trans (hinit.ofNode_of_hook (Node.kind_of_isCallOf hcall)
        (ofHook?_ref hshape hcall))
      exact mem_namesAs_ref.2 ⟨rfl, rfl⟩
    | memo hinit hshape hcall =>
      cases h.symm.trans (hinit.ofNode_of_hook (Node.kind_of_isCallOf hcall)
        (ofHook?_memo hshape hcall))
      exact mem_namesAs_memo.2 ⟨rfl, rfl⟩
    | moduleLevel hinit hfree houter hname =>
      cases h.symm.trans (hinit.ofNode_of_module hfree houter)
      exact mem_namesAs_moduleLevel.2 ⟨rfl, hname⟩

/-- A memoized name is kept for the component of its declarator. -/
theorem owner_of_memo {owner bound : String}
    (h : ofNode ctx file d = .ok (.memo owner bound)) :
    ownerOf d = owner := by
  rcases ofNode_cases ctx file d with hnone |
    ⟨pattern, value, other, -, -, -, hhook, hother⟩ |
    ⟨pattern, value, -, -, -, hmodule⟩ | ⟨_, pattern, value, hbinds, -, heq⟩
  · cases h.symm.trans hnone
  · cases h.symm.trans hother
    rcases ofHook?_cases hhook with ⟨-, -, h⟩ | ⟨-, -, h⟩ | ⟨-, -, h⟩ |
      ⟨-, -, h⟩ | h <;> cases h
    rfl
  · cases h.symm.trans hmodule
  · cases namesAs_ofComponent hbinds.tracked (heq.symm.trans h) .memo

/-- What a declarator memoizes belongs to the component around it. -/
theorem mem_memosOf_iff (h : ofNode ctx file d = .ok decl) {owner : String} :
    (owner, name) ∈ Facts.memosOf decl ↔ BindsAs ctx d .memo name ∧
      ownerOf d = owner := by
  rw [← mem_namesAs_iff h]
  cases decl with
  | memo other bound =>
    rw [owner_of_memo h, mem_namesAs_memo]
    simp [Facts.memosOf, eq_comm, and_comm]
  | _ =>
    exact iff_of_false List.not_mem_nil fun hname => List.not_mem_nil hname.1

end Declaration

namespace Facts

open Declaration (Renews Role BindsAs Binds TakenFromHook TakesApart
  namesAs ownerOf)

variable {ctx : Context} {file : String} {root : Node} {facts : Facts}

/-- A table that collects names by their owner has each name under its owner. -/
theorem mem_memoizedBy_foldl {entries : List (String × String)}
    {start : Table (List String)} {owner name : String} :
    name ∈ memoizedBy (entries.foldl
      (fun t e => Table.modify t e.1 [] (· ++ [e.2])) start) owner ↔
      name ∈ memoizedBy start owner ∨ (owner, name) ∈ entries := by
  induction entries generalizing start with
  | nil => simp
  | cons e rest ih =>
    obtain ⟨key, entry⟩ := e
    have hstep : name ∈ memoizedBy (start.modify key [] (· ++ [entry])) owner ↔
        name ∈ memoizedBy start owner ∨ (owner, name) = (key, entry) := by
      unfold memoizedBy Table.modify
      rw [Table.get?_insert, Prod.mk.injEq]
      by_cases howner : owner = key
      · simp [howner]
      · simp [howner]
    rw [List.foldl_cons, ih, hstep, List.mem_cons, or_assoc]

/-- What declarations stand for, gathered, is what their declarators bind. -/
theorem mem_flatMap_iff_exists {α : Type} {declarators : List Node}
    {ds : List Declaration}
    (h : declarators.mapM (Declaration.ofNode ctx file) = .ok ds)
    {f : Declaration → List α} {a : α}
    {P : Node → Prop} (hf : ∀ e decl, Declaration.ofNode ctx file e = .ok decl →
      (a ∈ f decl ↔ P e)) :
    a ∈ ds.flatMap f ↔ ∃ e ∈ declarators, P e := by
  rw [List.mem_flatMap]
  constructor
  · rintro ⟨decl, hdecl, ha⟩
    obtain ⟨e, he, hdecl⟩ := (mem_of_mapM h).1 hdecl
    exact ⟨e, he, (hf e decl hdecl).1 ha⟩
  · rintro ⟨e, he, hP⟩
    obtain ⟨decl, hdecl⟩ := exists_of_mapM h he
    exact ⟨decl, (mem_of_mapM h).2 ⟨e, he, hdecl⟩, (hf e decl hdecl).2 hP⟩

/-- A name is settled for a component iff some declarator binds it in a role.
Only what is memoized has to belong to the component. -/
theorem settled_iff (h : extract ctx file root = .ok facts)
    {component name : String} :
    facts.Settled component name ↔
      ∃ e ∈ root.declarators, ∃ role, BindsAs ctx e role name ∧
      (role = .memo → ownerOf e = component) := by
  obtain ⟨ds, hds, rfl⟩ := extract_eq_ok.1 h
  -- each set of the facts gathers, over all declarators, the names in one role
  have hrole (role : Role) : name ∈ ds.flatMap (namesAs role) ↔
      ∃ e ∈ root.declarators, BindsAs ctx e role name :=
    mem_flatMap_iff_exists hds fun _ _ hdecl =>
      Declaration.mem_namesAs_iff hdecl
  have hstate : (ofDeclarations root.components ds).isState name = true ↔
      ∃ e ∈ root.declarators, BindsAs ctx e .state name := by
    rw [← hrole, isState, Table.contains_iff]
    refine Table.mem_names_ofEntries.trans ?_
    rw [List.map_flatMap]
    rfl
  have hsetter : (ofDeclarations root.components ds).isSetter name = true ↔
      ∃ e ∈ root.declarators, BindsAs ctx e .setter name := by
    rw [← hrole, isSetter, List.contains_iff_mem]
    exact List.mem_eraseDups
  have href : name ∈ (ofDeclarations root.components ds).refs ↔
      ∃ e ∈ root.declarators, BindsAs ctx e .ref name := by
    rw [← hrole]
    exact List.mem_eraseDups
  have hmodule : name ∈ (ofDeclarations root.components ds).moduleLevel ↔
      ∃ e ∈ root.declarators, BindsAs ctx e .moduleLevel name := by
    rw [← hrole]
    exact List.mem_eraseDups
  -- what is memoized is gathered by owner instead
  have hmemo : name ∈
    memoizedBy (ofDeclarations root.components ds).memoized component ↔
      ∃ e ∈ root.declarators, BindsAs ctx e .memo name ∧
        ownerOf e = component := by
    refine mem_memoizedBy_foldl.trans ((or_iff_right List.not_mem_nil).trans ?_)
    exact mem_flatMap_iff_exists hds fun _ _ hdecl =>
      Declaration.mem_memosOf_iff hdecl
  unfold Settled
  rw [hstate, hsetter, href, hmodule, hmemo]
  constructor
  · rintro (⟨e, he, h⟩ | ⟨e, he, h⟩ | ⟨e, he, h⟩ | ⟨e, he, h⟩ |
      ⟨e, he, h, howner⟩)
    · exact ⟨e, he, .state, h, fun hmemo => absurd hmemo (by decide)⟩
    · exact ⟨e, he, .setter, h, fun hmemo => absurd hmemo (by decide)⟩
    · exact ⟨e, he, .ref, h, fun hmemo => absurd hmemo (by decide)⟩
    · exact ⟨e, he, .moduleLevel, h, fun hmemo => absurd hmemo (by decide)⟩
    · exact ⟨e, he, .memo, h, fun _ => howner⟩
  · rintro ⟨e, he, role, h, howner⟩
    cases role with
    | state => exact .inl ⟨e, he, h⟩
    | setter => exact .inr (.inl ⟨e, he, h⟩)
    | ref => exact .inr (.inr (.inl ⟨e, he, h⟩))
    | moduleLevel => exact .inr (.inr (.inr (.inl ⟨e, he, h⟩)))
    | memo => exact .inr (.inr (.inr (.inr ⟨e, he, h, howner rfl⟩)))

/-- With well-formed settings the facts of a file can be told. A name that a
component renews is listed for it iff whatever else is bound under the name is
memoized for another owner: a state, a setter, a ref or a name of the module
strikes the name from every component. -/
theorem extract_lists_apart (ctx : Context) (file : String) (root : Node) :
    (ctx.options.WellFormed → ∃ facts, extract ctx file root = .ok facts) ∧
      ∀ facts, extract ctx file root = .ok facts →
        ∀ d ∈ root.declarators, ∀ v, Renews ctx file d v →
        ((facts.unstable? v.owner.name v.name).isSome = true ↔
          ∀ e ∈ root.declarators, ∀ role, BindsAs ctx e role v.name →
          role = .memo ∧ ownerOf e ≠ v.owner.name) := by
  refine ⟨fun hctx => exists_extract hctx file root,
    fun facts h d hd v hv => ?_⟩
  rw [isSome_unstable?_of_renews h hd hv, settled_iff h]
  constructor
  · intro hfree e he role hbinds
    by_contra hrole
    exact hfree ⟨e, he, role, hbinds, fun hmemo => by_contra fun howner =>
      hrole ⟨hmemo, howner⟩⟩
  · rintro hother ⟨e, he, role, hbinds, howner⟩
    obtain ⟨hmemo, hne⟩ := hother e he role hbinds
    exact hne (howner hmemo)

/-! ### Files that start with a component -/

/-- A file that starts with a component of one declaration. -/
def opening (pattern value : Sketch) (others : List Sketch) : SourceFile :=
  Sketch.file "Panel.tsx"
    (.function "Panel" [] [.const pattern value] :: others)

/-- The component that a file starts with. -/
def openingComponent (f : SourceFile) : Component :=
  let fn := f.root.at [0]
  ⟨"Panel", fn.start, fn.stop, fn.line, fn.label.endLine⟩

/-- The declarator that a file starts with. -/
def openingDeclarator (f : SourceFile) : Node := f.root.at [0, 2, 0, 0]

/-- The first declarator stands in the first component, whatever it
declares. -/
theorem standsIn_opening (pattern value : Sketch) (others : List Sketch) :
    (openingDeclarator (opening pattern value others)).StandsIn
      (openingComponent (opening pattern value others)) := by
  have hname : Component.nameOf? ((opening pattern value others).root.at [0]) =
    some "Panel" := rfl
  refine ⟨(opening pattern value others).root.at [0], rfl, ?_⟩
  unfold Component.ofFunction?
  rw [hname]
  rfl

/-- And it is one of the file's declarators. -/
theorem openingDeclarator_mem (pattern value : Sketch) (others : List Sketch) :
    openingDeclarator (opening pattern value others) ∈
      (opening pattern value others).root.declarators :=
  List.mem_of_getElem? (i := 0) rfl

/-- What holds of every declarator that binds a name in a role, found by
evaluation. -/
theorem forall_bindsAs_of_all {ctx : Context} {f : SourceFile} {name : String}
    {p : Node → Role → Bool}
    (h : f.root.declarators.all (fun e =>
    (Declaration.ofNode ctx f.path e).toOption.any fun decl =>
      Role.all.all fun role => !(namesAs role decl).contains name || p e role) =
        true) :
    ∀ e ∈ f.root.declarators, ∀ role, BindsAs ctx e role name →
      p e role = true := by
  intro e he role hbinds
  obtain ⟨decl, hdecl, hall⟩ :=
    exists_of_any_toOption (List.all_eq_true.1 h e he)
  have hname := (Declaration.mem_namesAs_iff hdecl).2 hbinds
  simpa [hname] using List.all_eq_true.1 hall role (Role.mem_all role)

/-- A component that binds a name to an object, and another one with a
statement. -/
def besideOther (statement : Sketch) : SourceFile :=
  opening (.name "opts") .emptyObject [.function "Other" [] [statement]]

def ownOpts (f : SourceFile) : UnstableVariable :=
  ⟨"opts", .object, (openingDeclarator f).line, openingComponent f, false⟩

/-- An object that is written in place is new on every render. -/
theorem renews_ownOpts (ctx : Context) (statement : Sketch) :
    Renews ctx (besideOther statement).path
      (openingDeclarator (besideOther statement))
      (ownOpts (besideOther statement)) := by
  have hbinds : Binds (openingDeclarator (besideOther statement))
      (openingComponent (besideOther statement))
      ((openingDeclarator (besideOther statement)).at [0])
      ((openingDeclarator (besideOther statement)).at [1]) :=
    ⟨⟨rfl, rfl, rfl⟩, standsIn_opening _ _ _⟩
  have hliteral : UnstableKind.object.OfLiteral
    ((openingDeclarator (besideOther statement)).at [1]) := rfl
  exact .literal hbinds rfl hliteral

/-- A name that another component memoizes. -/
def memoizedBeside : SourceFile :=
  besideOther (.const (.name "opts")
    (.call "useMemo" [.name "compute", .array []]))

/-- The other component memoizes its own value, so the first one's is listed. -/
theorem extract_memoizedBeside : ∃ facts,
    extract .usual memoizedBeside.path memoizedBeside.root = .ok facts ∧
      facts.Settled "Other" "opts" ∧
        (facts.unstable? "Panel" "opts").isSome = true := by
  obtain ⟨facts, hfacts, hother⟩ := exists_of_any_toOption
    (x := extract .usual memoizedBeside.path memoizedBeside.root)
    (p := fun facts => (memoizedBy facts.memoized "Other").contains "opts")
      (by decide +kernel)
  have hapart : ∀ e ∈ memoizedBeside.root.declarators,
      ∀ role, BindsAs .usual e role "opts" → role = .memo ∧
      ownerOf e ≠ "Panel" := by
    intro e he role hbinds
    have h := forall_bindsAs_of_all
      (p := fun e role => role == .memo && ownerOf e != "Panel")
      (by decide +kernel) e he role hbinds
    simpa using h
  refine ⟨facts, hfacts, .inr (.inr (.inr (.inr (by simpa using hother)))), ?_⟩
  exact ((extract_lists_apart .usual memoizedBeside.path memoizedBeside.root).2
    facts hfacts _ (openingDeclarator_mem _ _ _) _ (renews_ownOpts .usual _)).2
    hapart

/-- The first component renews a name that it does not list, although no
declarator inside it binds the name in a role and neither does one of
the module. -/
def StruckFromOutside (f : SourceFile) : Prop :=
  ∃ facts, extract .usual f.path f.root = .ok facts ∧
    facts.unstable? "Panel" "opts" = none ∧
    (∃ d ∈ f.root.declarators, Renews .usual f.path d (ownOpts f)) ∧
    ∀ e ∈ f.root.declarators, ∀ role, BindsAs .usual e role "opts" →
      role ≠ .moduleLevel ∧ ∀ fn ∈ e.enclosingFunctions,
      Component.ofFunction? fn ≠ some (openingComponent f)

/-- What has to be evaluated to see that a name is struck from outside. -/
theorem struckFromOutside_of_any {statement : Sketch}
    (hnone : (extract .usual (besideOther statement).path
      (besideOther statement).root).toOption.any (fun facts =>
      (facts.unstable? "Panel" "opts").isNone) = true)
    (hroles : (besideOther statement).root.declarators.all (fun e =>
      (Declaration.ofNode .usual (besideOther statement).path e).toOption.any
        fun decl =>
        Role.all.all fun role => !(namesAs role decl).contains "opts" ||
          (role != .moduleLevel && e.enclosingFunctions.all fun fn =>
            Component.ofFunction? fn !=
              some (openingComponent (besideOther statement)))) = true) :
    StruckFromOutside (besideOther statement) := by
  obtain ⟨facts, hfacts, hnone⟩ := exists_of_any_toOption hnone
  refine ⟨facts, hfacts, Option.isNone_iff_eq_none.1 hnone, ?_,
    fun e he role hbinds => ?_⟩
  · exact ⟨_, openingDeclarator_mem _ _ _, renews_ownOpts .usual statement⟩
  · simpa using forall_bindsAs_of_all hroles e he role hbinds

/-- A state of another component strikes the name, and so does a ref. -/
theorem extract_strikes_from_outside :
    StruckFromOutside (besideOther (.useState "opts" "setOpts")) ∧
      StruckFromOutside (besideOther
        (.const (.name "opts") (.call "useRef" [.name "null"]))) :=
  ⟨struckFromOutside_of_any (by decide +kernel) (by decide +kernel),
    struckFromOutside_of_any (by decide +kernel) (by decide +kernel)⟩

/-! ### Hooks that the settings call unstable -/

/-- The settings call a hook unstable: then every name that a pattern directly
inside a component binds to its result is listed unless it is settled,
provided that the rules about the call are asked and that it is none of the
calls judged before the settings. -/
theorem extract_lists_configured {ctx : Context} {root d : Node}
    {owner : Component} {pattern call : Node} (hd : d ∈ root.declarators)
    (hbinds : Binds d owner pattern call) (hcall : call.kind = .call)
    (hunstable : Stability.configured ctx.options call = .ok (some false))
    (hfirst : ¬ Stability.PrecedesSettings call)
    (htaken : ¬ TakenFromHook ctx pattern call)
    (hapart : ¬ TakesApart ctx pattern call) (file : String) :
    (ctx.options.WellFormed → ∃ facts, extract ctx file root = .ok facts) ∧
      ∀ facts, extract ctx file root = .ok facts → ∀ name ∈ pattern.boundNames,
        ((facts.unstable? owner.name name).isSome = true ↔
          ¬ facts.Settled owner.name name) := by
  have hverdict := Stability.classify_of_configured hfirst hunstable file
  refine ⟨fun hctx => exists_extract hctx file root,
    fun facts h name hname => ?_⟩
  have hrenews : Renews ctx file d ⟨name, .callResult, d.line, owner, false⟩ :=
    .result ⟨hbinds, hcall, htaken, hapart⟩ hverdict rfl hname
  exact isSome_unstable?_of_renews h hd hrenews

/-- Settings that call a hook unstable. -/
def distrusting (hook : String) : Context :=
  (Context.ofOptions Regex.compiler { unstableHooks := [hook] }).toOption.getD
    default

def openingPattern (f : SourceFile) : Node := (openingDeclarator f).at [0]

def openingValue (f : SourceFile) : Node := (openingDeclarator f).at [1]

/-- A file starts with a component that binds the result of a call. The
settings call it unstable, and no hook settles what is taken from it. -/
structure OpensUnstable (ctx : Context) (f : SourceFile) : Prop where
  binds : Binds (openingDeclarator f) (openingComponent f) (openingPattern f)
    (openingValue f)
  isCall : (openingValue f).kind = .call
  unstable : Stability.configured ctx.options (openingValue f) =
    .ok (some false)
  notTaken : ¬ TakenFromHook ctx (openingPattern f) (openingValue f)

theorem opensUnstable_of_any {ctx : Context} {f : SourceFile}
    (hbinds : Binds (openingDeclarator f) (openingComponent f)
      (openingPattern f) (openingValue f))
    (hcall : (openingValue f).kind = .call)
    (hunstable : (Stability.configured ctx.options
      (openingValue f)).toOption.any (· == some false) = true)
    (hhook : (Declaration.ofHook? ctx (openingDeclarator f) (openingPattern f)
      (openingValue f)).isSome = false) :
    OpensUnstable ctx f := by
  obtain ⟨answer, hanswer, hfalse⟩ := exists_of_any_toOption hunstable
  obtain rfl : answer = some false := by simpa using hfalse
  refine ⟨hbinds, hcall, hanswer, ?_⟩
  rw [← Declaration.isSome_ofHook?_iff (d := openingDeclarator f)
    hbinds.tracked, hhook]
  exact Bool.false_ne_true

/-- A name that no declarator of the file stands for is not settled. -/
theorem not_settled_of_all {ctx : Context} {f : SourceFile} {facts : Facts}
    {component name : String} (h : extract ctx f.path f.root = .ok facts)
    (hroles : f.root.declarators.all (fun e =>
    (Declaration.ofNode ctx f.path e).toOption.any fun decl =>
      Role.all.all fun role => !(namesAs role decl).contains name) = true) :
    ¬ facts.Settled component name := by
  rw [settled_iff h]
  rintro ⟨e, he, role, hbinds, -⟩
  exact Bool.false_ne_true
    (forall_bindsAs_of_all (p := fun _ _ => false) (by simpa using hroles)
    e he role hbinds)

/-- The result of a hook taken apart by a pattern inside a pattern. -/
def cart : SourceFile :=
  opening (.arrayPattern [.name "items", .arrayPattern [.name "total"]])
    (.call "useCart" []) []

/-- Both names that a nested pattern takes out of a custom hook are listed. -/
theorem extract_cart : OpensUnstable (distrusting "useCart") cart ∧
    ∃ facts, extract (distrusting "useCart") cart.path cart.root = .ok facts ∧
      (facts.unstable? "Panel" "items").isSome = true ∧
        (facts.unstable? "Panel" "total").isSome = true := by
  have hopens : OpensUnstable (distrusting "useCart") cart :=
    opensUnstable_of_any ⟨⟨rfl, rfl, rfl⟩, standsIn_opening _ _ _⟩ rfl
      (by decide +kernel) (by decide +kernel)
  have hnames : (openingPattern cart).boundNames = ["items", "total"] := by
    decide +kernel
  have hfirst : ¬ Stability.PrecedesSettings (openingValue cart) := by
    unfold Stability.PrecedesSettings
    decide +kernel
  have hapart : ¬ TakesApart (distrusting "useCart") (openingPattern cart)
      (openingValue cart) := by
    unfold TakesApart
    decide +kernel
  obtain ⟨hexists, hlisted⟩ :=
    extract_lists_configured (openingDeclarator_mem _ _ _) hopens.binds
    hopens.isCall hopens.unstable hfirst hopens.notTaken hapart cart.path
  have hnone : (distrusting "useCart").options.overrides = [] :=
    List.isEmpty_iff.1 (by decide +kernel)
  obtain ⟨facts, hfacts⟩ :=
    hexists fun entry hentry =>
    absurd hentry (by rw [hnone]; exact List.not_mem_nil)
  rw [hnames] at hlisted
  refine ⟨hopens, facts, hfacts, ?_, ?_⟩
  · exact (hlisted facts hfacts "items" (by simp)).2
      (not_settled_of_all hfacts (by decide +kernel))
  · exact (hlisted facts hfacts "total" (by simp)).2
      (not_settled_of_all hfacts (by decide +kernel))

/-- The settings call a call unstable, and yet a name that is bound to its
result and not settled is not listed. -/
def Overlooks (ctx : Context) (f : SourceFile) (name : String) : Prop :=
  OpensUnstable ctx f ∧ name ∈ (openingPattern f).boundNames ∧
    ∃ facts, extract ctx f.path f.root = .ok facts ∧
    ¬ facts.Settled "Panel" name ∧ facts.unstable? "Panel" name = none

/-- What has to be evaluated to see that settings are overlooked. -/
theorem overlooks_of_any {ctx : Context} {f : SourceFile} {name : String}
    (hopens : OpensUnstable ctx f)
    (hname : name ∈ (openingPattern f).boundNames)
    (hnone : (extract ctx f.path f.root).toOption.any
      (fun facts => (facts.unstable? "Panel" name).isNone) = true)
    (hroles : f.root.declarators.all (fun e =>
    (Declaration.ofNode ctx f.path e).toOption.any fun decl =>
      Role.all.all fun role => !(namesAs role decl).contains name) = true) :
    Overlooks ctx f name := by
  obtain ⟨facts, hfacts, hnone⟩ := exists_of_any_toOption hnone
  exact ⟨hopens, hname, facts, hfacts, not_settled_of_all hfacts hroles,
    Option.isNone_iff_eq_none.1 hnone⟩

/-- A function that gives a primitive is judged before the settings, and what
an object pattern takes out of a custom hook is not judged at all. -/
theorem extract_overlooks_settings :
    Overlooks (distrusting "String")
      (opening (.name "s") (.call "String" [.name "v"]) []) "s" ∧
      Overlooks (distrusting "useCart")
        (opening (.objectPattern ["items"]) (.call "useCart" []) []) "items" :=
  ⟨overlooks_of_any
      (opensUnstable_of_any ⟨⟨rfl, rfl, rfl⟩, standsIn_opening _ _ _⟩ rfl
        (by decide +kernel) (by decide +kernel))
      (by decide +kernel) (by decide +kernel) (by decide +kernel),
    overlooks_of_any
      (opensUnstable_of_any ⟨⟨rfl, rfl, rfl⟩, standsIn_opening _ _ _⟩ rfl
        (by decide +kernel) (by decide +kernel))
      (by decide +kernel) (by decide +kernel) (by decide +kernel)⟩

end Facts

end RenderLoop
