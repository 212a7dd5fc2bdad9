import RenderLoop.Stability.Facts
import RenderLoop.Proofs.SettingsOrder

/-!
# Values that are new on every render

A declarator directly inside a component renews a name if each render binds
the name to another value: a literal under a plain name, or the result of a
call that the stability rules call unstable. Results of hooks are never asked
about, but which hooks these are depends on the pattern that takes the result
apart.

> `mem_unstableOf_iff_renews`: the unstable variables a declarator stands for
> are exactly those it renews.

> `mem_keepLast_iff`: of several renewals of one name in one component the
> last is kept, whatever stands between them.

> `extract_lists_renewals`: a file's unstable variables are the last renewals
> of the names that are not settled in another way, and the facts of a file
> can be had unless a call cannot be judged.

A declarator goes through three questions: whether a hook settles what it
binds, whether it stands in a component, and what its value is. `ofNode_cases`
and `ofComponent_cases_of_not_call` answer them once, and all the statements
below rest on these answers. The list for a file is then a fold over its
declarators that keeps the last of those with the same key.

The results of hooks are listed after all when their pattern is not the one
that is expected: a memo hook whose result is taken apart as a pair,
for instance (`extract_lists_hook_results`).
-/

namespace RenderLoop

/-- The declarators at and below a node, in source order. -/
def Node.declarators (root : Node) : List Node :=
  root.walk.filter (·.kind == .declarator)

/-- The nearest function around a node is that of a component. -/
def Node.StandsIn (n : Node) (c : Component) : Prop :=
  ∃ fn, n.ancestors.find? (·.isFunction) = some fn ∧
    Component.ofFunction? fn = some c

/-- A literal of the given kind. The result of a call is none. -/
def UnstableKind.OfLiteral (value : Node) : UnstableKind → Prop
  | object => value.kind = .object
  | array => value.kind = .array
  | function => value.kind.isFunctionLiteral = true
  | callResult => False

/-- Two variables that the facts keep under one key. -/
def UnstableVariable.SharesKey (v w : UnstableVariable) : Prop :=
  v.name = w.name ∧ v.owner.name = w.owner.name

namespace Declaration

/-- The result of a call that the called hook settles, given the pattern that
takes it. -/
inductive TakenFromHook (ctx : Context) (pattern call : Node) : Prop where
  | state (hshape : pattern.kind = .arrayPattern ∨ pattern.kind = .identifier)
      (hcall : call.isCallOf stateHooks = true)
  /-- A custom hook gives a pair whose second half is named like a setter. -/
  | pair {setter : String} (hshape : pattern.kind = .arrayPattern)
      (hcall : callsCustomHook ctx call = true)
      (hsecond : identifierAt? pattern 1 = some setter)
      (hsetter : ctx.isSetterName setter = true)
  | ref (hshape : pattern.kind = .identifier)
      (hcall : call.isCallOf ["useRef"] = true)
  | memo (hshape : pattern.kind = .identifier)
      (hcall : call.isCallOf memoHooks = true)
  | context (hshape : pattern.kind = .objectPattern)
      (hcall : call.isCallOf ["useContext"] = true)

/-- An object pattern takes what a custom hook returns apart. -/
def TakesApart (ctx : Context) (pattern call : Node) : Prop :=
  pattern.kind = .objectPattern ∧ callsCustomHook ctx call = true

/-- A declarator with its pattern and its initial value. -/
structure Initializes (d pattern value : Node) : Prop where
  hpattern : d.child? .name = some pattern
  hvalue : d.bareChild? .value = some value
  tracked : isTracked pattern.kind = true

/-- A declarator directly inside a component. -/
structure Binds (d : Node) (owner : Component) (pattern value : Node) : Prop
    extends Initializes d pattern value where
  standsIn : d.StandsIn owner

/-- No hook decides about what is bound to a value. -/
def HookFree (ctx : Context) (pattern value : Node) : Prop :=
  value.kind = .call → ¬ TakenFromHook ctx pattern value

/-- The stability rules are asked about the call whose result a declarator
binds. -/
structure Consults (ctx : Context) (d : Node) (owner : Component)
    (pattern call : Node) : Prop extends Binds d owner pattern call where
  isCall : call.kind = .call
  notTaken : ¬ TakenFromHook ctx pattern call
  notApart : ¬ TakesApart ctx pattern call

/-- A declarator binds a variable to a value that is new on every render. -/
inductive Renews (ctx : Context) (file : String) (d : Node) :
    UnstableVariable → Prop where
  | literal {owner : Component} {pattern value : Node} {kind : UnstableKind}
      (hbinds : Binds d owner pattern value)
      (hname : pattern.kind = .identifier)
      (hliteral : kind.OfLiteral value) :
        Renews ctx file d ⟨pattern.text, kind, d.line, owner, false⟩
  | result {owner : Component} {pattern call : Node}
      {verdict : StabilityVerdict} {name : String}
      (hasked : Consults ctx d owner pattern call)
      (hverdict : Stability.classify ctx file call = .ok verdict)
      (hunstable : verdict.stable = false)
      (hname : name ∈ pattern.boundNames) :
      Renews ctx file d ⟨name, .callResult, d.line, owner, verdict.inferred⟩

variable {ctx : Context} {file : String} {d pattern value : Node}
  {owner : Component}

/-! ### What a declarator means -/

theorem shape_of_isTracked (h : isTracked pattern.kind = true) :
    pattern.kind = .arrayPattern ∨ pattern.kind = .objectPattern ∨
      pattern.kind = .identifier := by
  unfold isTracked at h
  split at h <;> simp_all

/-- For an array pattern, the hooks that count are those of states and the
custom ones that give a pair. -/
theorem isSome_ofArrayPattern?_iff (hshape : pattern.kind = .arrayPattern) :
    (ofArrayPattern? ctx pattern value).isSome = true ↔
      TakenFromHook ctx pattern value := by
  have hsome : (ofArrayPattern? ctx pattern value).isSome = true ↔
      value.isCallOf stateHooks = true ∨ callsCustomHook ctx value = true ∧
      (identifierAt? pattern 1).any ctx.isSetterName = true := by
    simp [ofArrayPattern?]
  rw [hsome, Option.any_eq_true]
  constructor
  · rintro (hcall | ⟨hcall, setter, hsecond, hsetter⟩)
    · exact .state (.inl hshape) hcall
    · exact .pair hshape hcall hsecond hsetter
  · intro h
    cases h with
    | state _ hcall => exact .inl hcall
    | pair _ hcall hsecond hsetter => exact .inr ⟨hcall, _, hsecond, hsetter⟩
    | ref h _ | memo h _ | context h _ =>
      rw [hshape] at h
      cases h

/-- For a plain name, those of states, refs and memos. -/
theorem isSome_ofIdentifier?_iff (hshape : pattern.kind = .identifier)
    (scope : String) :
    (ofIdentifier? scope pattern.text value).isSome = true ↔
      TakenFromHook ctx pattern value := by
  have hsome : (ofIdentifier? scope pattern.text value).isSome = true ↔
      value.isCallOf ["useRef"] = true ∨ value.isCallOf memoHooks = true ∨
        value.isCallOf stateHooks = true := by
    unfold ofIdentifier?
    split
    · simp_all
    · split <;> simp_all
  rw [hsome]
  constructor
  · rintro (hcall | hcall | hcall)
    · exact .ref hshape hcall
    · exact .memo hshape hcall
    · exact .state (.inr hshape) hcall
  · intro h
    cases h with
    | state _ hcall => exact .inr (.inr hcall)
    | ref _ hcall => exact .inl hcall
    | memo _ hcall => exact .inr (.inl hcall)
    | pair h _ _ _ | context h _ =>
      rw [hshape] at h
      cases h

/-- Hooks alone decide about a declarator iff one of them settles what is
taken from it. -/
theorem isSome_ofHook?_iff (htracked : isTracked pattern.kind = true) :
    (ofHook? ctx d pattern value).isSome = true ↔
      TakenFromHook ctx pattern value := by
  unfold ofHook?
  rcases shape_of_isTracked htracked with hshape | hshape | hshape
  · simp only [hshape]
    exact isSome_ofArrayPattern?_iff hshape
  · simp only [hshape]
    constructor
    · intro h
      exact .context hshape (by simpa using h)
    · intro h
      cases h with
      | context _ hcall => simpa using hcall
      | state h _ =>
        rw [hshape] at h
        rcases h with h | h <;> cases h
      | pair h _ _ _ | ref h _ | memo h _ =>
        rw [hshape] at h
        cases h
  · simp only [hshape]
    exact isSome_ofIdentifier?_iff hshape _

/-- No hook gives something that is listed as unstable. -/
theorem ofHook?_ne_unstable {found : List UnstableVariable} :
    ofHook? ctx d pattern value ≠ some (.unstable found) := by
  unfold ofHook? ofArrayPattern? ofIdentifier?
  intro h
  split at h
  · simp at h
  · simp at h
  · split at h
    · simp at h
    · split at h <;> simp at h
  · cases h

/-- The readings of a declarator: as nothing, by a hook, as part of
the module, or inside a component. -/
theorem ofNode_cases (ctx : Context) (file : String) (d : Node) :
    ofNode ctx file d = .ok irrelevant ∨
    (∃ pattern value decl, d.child? .name = some pattern ∧
      d.bareChild? .value = some value ∧ value.kind = .call ∧
      ofHook? ctx d pattern value = some decl ∧ ofNode ctx file d = .ok decl) ∨
    (∃ pattern value, Initializes d pattern value ∧ HookFree ctx pattern value ∧
      d.enclosingFunctions = [] ∧
        ofNode ctx file d = .ok (moduleLevel pattern.boundNames)) ∨
    ∃ owner pattern value, Binds d owner pattern value ∧
      HookFree ctx pattern value ∧
      ofNode ctx file d = ofComponent ctx file owner d pattern value := by
  unfold ofNode
  split
  · next pattern value hpattern hvalue =>
    split
    · exact .inl rfl
    · next htracked =>
      have htracked : isTracked pattern.kind = true := by simpa using htracked
      split
      · next decl hdecl =>
        split at hdecl
        · next hcall =>
          exact .inr (.inl ⟨pattern, value, decl, hpattern,
            hvalue, by simpa using hcall, hdecl, rfl⟩)
        · cases hdecl
      · next hdecl =>
        have hfree : HookFree ctx pattern value := by
          intro hcall htaken
          rw [if_pos (by simpa using hcall)] at hdecl
          have hsome := (isSome_ofHook?_iff (d := d) htracked).2 htaken
          rw [hdecl] at hsome
          cases hsome
        split
        · next hfunctions =>
          exact .inr (.inr (.inl ⟨pattern, value, ⟨hpattern, hvalue, htracked⟩,
            hfree, hfunctions, rfl⟩))
        · next fn rest hfunctions =>
          split
          · next owner howner =>
            have hnearest : d.ancestors.find? (·.isFunction) = some fn := by
              rw [← List.head?_filter]
              exact congrArg List.head? hfunctions
            exact .inr
              (.inr (.inr ⟨owner, pattern, value,
              ⟨⟨hpattern, hvalue, htracked⟩, fn, hnearest, howner⟩,
              hfree, rfl⟩))
          · exact .inl rfl
  · exact .inl rfl

/-- Without a hook nothing is settled. -/
theorem HookFree.ofHook?_eq_none (h : HookFree ctx pattern value)
    (htracked : isTracked pattern.kind = true) (d : Node) :
    (if value.kind == .call then ofHook? ctx d pattern value
      else none) = none := by
  split
  · next hcall =>
    rw [← Option.not_isSome_iff_eq_none, isSome_ofHook?_iff htracked]
    exact h (by simpa using hcall)
  · rfl

/-- Directly inside a component a declarator that no hook decides about means
what it binds there. -/
theorem Binds.ofNode_eq (h : Binds d owner pattern value)
    (hfree : HookFree ctx pattern value) :
    ofNode ctx file d = ofComponent ctx file owner d pattern value := by
  obtain ⟨fn, hnearest, howner⟩ := h.standsIn
  obtain ⟨rest, hfunctions⟩ : ∃ rest, d.enclosingFunctions = fn :: rest := by
    rw [← List.head?_filter] at hnearest
    exact List.head?_eq_some_iff.1 hnearest
  unfold ofNode
  simp only [h.hpattern, h.hvalue, h.tracked, hfree.ofHook?_eq_none h.tracked,
    hfunctions, howner, Bool.not_true, Bool.false_eq_true, if_false]

theorem boundNames_of_identifier (h : pattern.kind = .identifier) :
    pattern.boundNames = [pattern.text] := by
  obtain ⟨⟨l, cs⟩, above⟩ := pattern
  have hkind : l.kind = .identifier := h
  unfold Node.boundNames
  rw [Tree.boundNames, hkind]
  rfl

/-- A literal is known by its kind. -/
theorem ofInitializer?_of_literal {kind : UnstableKind}
    (h : kind.OfLiteral value) :
    UnstableKind.ofInitializer? value = some kind := by
  unfold UnstableKind.ofInitializer?
  cases kind with
  | object | array => rw [show value.kind = _ from h]
  | function =>
    have hfunction : value.kind.isFunctionLiteral = true := h
    cases hvalue : value.kind <;> rw [hvalue] at hfunction <;> first | rfl |
      cases hfunction
  | callResult => exact h.elim

/-- A plain name keeps the literal it is bound to. -/
theorem ofComponent_of_literal {kind : UnstableKind}
    (hname : pattern.kind = .identifier) (hliteral : kind.OfLiteral value) :
    ofComponent ctx file owner d pattern value =
      .ok (.unstable [⟨pattern.text, kind, d.line, owner, false⟩]) := by
  have hkind : unstableKind? pattern value = some kind := by
    unfold unstableKind?
    rw [if_pos (by simpa using hname), ofInitializer?_of_literal hliteral]
  unfold ofComponent
  rw [hkind, boundNames_of_identifier hname]
  cases kind with
  | callResult => exact hliteral.elim
  | _ => rfl

theorem unstableKind?_of_call (htracked : isTracked pattern.kind = true)
    (hcall : value.kind = .call) :
    unstableKind? pattern value = some .callResult := by
  unfold unstableKind? UnstableKind.ofInitializer?
  rcases shape_of_isTracked htracked with hshape | hshape | hshape <;>
    simp [hshape, hcall]

/-- What is bound to the result of a call, once the call is judged. -/
def ofVerdict (owner : Component) (d pattern : Node)
    (verdict : StabilityVerdict) : Declaration :=
  if verdict.stable then irrelevant
  else .unstable (pattern.boundNames.map fun name =>
    ⟨name, .callResult, d.line, owner, verdict.inferred⟩)

/-- The result of a call is as stable as the rules say. -/
theorem ofComponent_of_call (htracked : isTracked pattern.kind = true)
    (hcall : value.kind = .call) (hapart : ¬ TakesApart ctx pattern value) :
    ofComponent ctx file owner d pattern value =
      (Stability.classify ctx file value >>= fun verdict =>
        .ok (ofVerdict owner d pattern verdict)) := by
  have hasked : (pattern.kind == .objectPattern && callsCustomHook ctx value) =
      false := by
    rw [Bool.eq_false_iff]
    simpa [TakesApart] using hapart
  unfold ofComponent
  rw [unstableKind?_of_call htracked hcall]
  simp only [hasked, Bool.false_eq_true, if_false]
  rfl

/-- What an object pattern takes out of a custom hook is not looked at. -/
theorem ofComponent_of_takesApart (htracked : isTracked pattern.kind = true)
    (hcall : value.kind = .call) (hapart : TakesApart ctx pattern value) :
    ofComponent ctx file owner d pattern value = .ok irrelevant := by
  unfold ofComponent
  rw [unstableKind?_of_call htracked hcall]
  simp only [hapart.1, hapart.2, beq_self_eq_true, Bool.and_self, if_true]
  rfl

/-- A value that is no call is a literal under a plain name, or nothing is
made of it. -/
theorem ofComponent_cases_of_not_call (ctx : Context) (file : String)
    (owner : Component) (d pattern : Node) (hcall : value.kind ≠ .call) :
    ofComponent ctx file owner d pattern value = .ok irrelevant ∨
      pattern.kind = .identifier ∧
        ∃ kind : UnstableKind, kind.OfLiteral value := by
  by_cases hname : pattern.kind = .identifier
  · have hkind : unstableKind? pattern value =
        UnstableKind.ofInitializer? value := by
      unfold unstableKind?
      rw [if_pos (by simpa using hname)]
    cases hfound : UnstableKind.ofInitializer? value with
    | none =>
      refine .inl ?_
      unfold ofComponent
      rw [hkind, hfound]
      rfl
    | some kind =>
      refine .inr ⟨hname, ?_⟩
      unfold UnstableKind.ofInitializer? at hfound
      split at hfound
      · next h => exact ⟨.object, h⟩
      · next h => exact ⟨.array, h⟩
      · next h => exact absurd h hcall
      · split at hfound
        · next h => exact ⟨.function, h⟩
        · cases hfound
  · refine .inl ?_
    have hkind : unstableKind? pattern value = none := by
      unfold unstableKind?
      rw [if_neg (by simpa using hname), if_neg (by simpa using hcall)]
    unfold ofComponent
    rw [hkind]
    rfl

theorem not_call_of_literal {kind : UnstableKind} (h : kind.OfLiteral value) :
    value.kind ≠ .call := by
  intro hcall
  cases kind with
  | object | array =>
    have hkind := hcall.symm.trans h
    cases hkind
  | function =>
    have hfunction : value.kind.isFunctionLiteral = true := h
    rw [hcall] at hfunction
    cases hfunction
  | callResult => exact h

/-- The unstable variables that a declarator stands for are those it renews. -/
theorem mem_unstableOf_iff_renews {decl : Declaration}
    (h : ofNode ctx file d = .ok decl) {v : UnstableVariable} :
    v ∈ Facts.unstableOf decl ↔ Renews ctx file d v := by
  constructor
  · intro hv
    rcases ofNode_cases ctx file d with hnone |
      ⟨pattern, value, other, -, -, -, hhook, hother⟩ |
      ⟨pattern, value, -, -, -, hmodule⟩ |
        ⟨owner, pattern, value, hbinds, hfree, heq⟩
    · cases h.symm.trans hnone
      cases hv
    · cases h.symm.trans hother
      cases decl with
      | unstable found => exact absurd hhook ofHook?_ne_unstable
      | _ => cases hv
    · cases h.symm.trans hmodule
      cases hv
    · -- only inside a component is anything unstable, and there a call is asked
      -- about and a literal is not
      rw [heq] at h
      by_cases hcall : value.kind = .call
      · by_cases hapart : TakesApart ctx pattern value
        · rw [ofComponent_of_takesApart hbinds.tracked hcall hapart] at h
          cases h
          cases hv
        · rw [ofComponent_of_call hbinds.tracked hcall hapart] at h
          obtain ⟨verdict, hverdict, h⟩ := bind_eq_ok.1 h
          cases h
          unfold ofVerdict at hv
          split at hv
          · cases hv
          · next hunstable =>
            obtain ⟨name, hname, rfl⟩ := List.mem_map.1 hv
            exact .result ⟨hbinds, hcall, hfree hcall, hapart⟩ hverdict
              (by simpa using hunstable) hname
      · rcases ofComponent_cases_of_not_call ctx file owner d pattern hcall with
          hnone | ⟨hname, kind, hliteral⟩
        · cases h.symm.trans hnone
          cases hv
        · cases h.symm.trans (ofComponent_of_literal hname hliteral)
          obtain rfl := List.mem_singleton.1 hv
          exact .literal hbinds hname hliteral
  · intro hv
    cases hv with
    | literal hbinds hname hliteral =>
      rw [hbinds.ofNode_eq fun hcall =>
        absurd hcall (not_call_of_literal hliteral),
        ofComponent_of_literal hname hliteral] at h
      cases h
      exact List.mem_singleton.2 rfl
    | result hasked hverdict hunstable hname =>
      rw [hasked.toBinds.ofNode_eq fun _ => hasked.notTaken,
        ofComponent_of_call hasked.tracked hasked.isCall hasked.notApart,
          hverdict] at h
      cases h
      unfold ofVerdict
      rw [if_neg (by simp [hunstable])]
      exact List.mem_map.2 ⟨_, hname, rfl⟩

/-- A declarator binds one pattern to one value in one component. -/
theorem Binds.unique (h : Binds d owner pattern value) {owner' : Component}
    {pattern' value' : Node} (h' : Binds d owner' pattern' value') :
    owner = owner' ∧ pattern = pattern' ∧ value = value' := by
  obtain ⟨fn, hfn, howner⟩ := h.standsIn
  obtain ⟨fn', hfn', howner'⟩ := h'.standsIn
  obtain rfl : fn = fn' := Option.some.inj (hfn.symm.trans hfn')
  exact ⟨Option.some.inj (howner.symm.trans howner'),
    Option.some.inj (h.hpattern.symm.trans h'.hpattern),
    Option.some.inj (h.hvalue.symm.trans h'.hvalue)⟩

/-- A declarator renews a name in one way only. -/
theorem Renews.unique {v w : UnstableVariable} (hv : Renews ctx file d v)
    (hw : Renews ctx file d w) (hname : v.name = w.name) : v = w := by
  cases hv with
  | literal hbinds _ hliteral =>
    cases hw with
    | literal hbinds' _ hliteral' =>
      obtain ⟨rfl, rfl, rfl⟩ := hbinds.unique hbinds'
      obtain rfl := Option.some.inj
        ((ofInitializer?_of_literal hliteral).symm.trans
          (ofInitializer?_of_literal hliteral'))
      rfl
    | result hasked _ _ _ =>
      obtain ⟨-, -, rfl⟩ := hbinds.unique hasked.toBinds
      exact absurd hasked.isCall (not_call_of_literal hliteral)
  | result hasked hverdict _ _ =>
    cases hw with
    | literal hbinds _ hliteral =>
      obtain ⟨-, -, rfl⟩ := hbinds.unique hasked.toBinds
      exact absurd hasked.isCall (not_call_of_literal hliteral)
    | result hasked' hverdict' _ _ =>
      obtain ⟨rfl, rfl, rfl⟩ := hasked.toBinds.unique hasked'.toBinds
      obtain rfl := Except.ok.inj (hverdict.symm.trans hverdict')
      obtain rfl : _ = _ := hname
      rfl

/-- The meaning of a declarator can be told unless it binds a call that cannot
be judged. -/
theorem exists_ofNode
    (h : ∀ owner pattern call, Consults ctx d owner pattern call →
      ∃ verdict, Stability.classify ctx file call = .ok verdict) :
      ∃ decl, ofNode ctx file d = .ok decl := by
  rcases ofNode_cases ctx file d with hnone |
    ⟨pattern, value, decl, -, -, -, -, hdecl⟩ |
    ⟨pattern, value, -, -, -, hmodule⟩ |
      ⟨owner, pattern, value, hbinds, hfree, heq⟩
  · exact ⟨_, hnone⟩
  · exact ⟨decl, hdecl⟩
  · exact ⟨_, hmodule⟩
  · rw [heq]
    by_cases hcall : value.kind = .call
    · by_cases hapart : TakesApart ctx pattern value
      · exact ⟨_, ofComponent_of_takesApart hbinds.tracked hcall hapart⟩
      · rw [ofComponent_of_call hbinds.tracked hcall hapart]
        exact exists_bind (h owner pattern value ⟨hbinds, hcall, hfree hcall,
          hapart⟩) fun _ => ⟨_, rfl⟩
    · rcases ofComponent_cases_of_not_call ctx file owner d pattern hcall with
        hnone | ⟨hname, kind, hliteral⟩
      · exact ⟨_, hnone⟩
      · exact ⟨_, ofComponent_of_literal hname hliteral⟩

end Declaration

/-! ### The last renewal counts -/

namespace Facts

open Declaration (Renews Consults)

/-- Variables are kept apart by their name and their component. -/
theorem sameBinding_iff {v w : UnstableVariable} :
    sameBinding v w = true ↔ v.SharesKey w := by
  simp [sameBinding, UnstableVariable.SharesKey]

theorem mem_of_mem_keepLast {l : List UnstableVariable} {v : UnstableVariable}
    (h : v ∈ keepLast l) :
    v ∈ l := by
  induction l with
  | nil => exact h
  | cons w rest ih =>
    rw [keepLast] at h
    split at h
    · exact List.mem_cons_of_mem _ (ih h)
    · rcases List.mem_cons.1 h with rfl | h
      · exact List.mem_cons_self
      · exact List.mem_cons_of_mem _ (ih h)

/-- No key is kept twice. -/
theorem pairwise_keepLast (l : List UnstableVariable) :
    (keepLast l).Pairwise fun v w => ¬ v.SharesKey w := by
  induction l with
  | nil => exact .nil
  | cons v rest ih =>
    rw [keepLast]
    split
    · exact ih
    · next hnone =>
      refine List.pairwise_cons.2 ⟨fun w hw hshares => hnone ?_, ih⟩
      exact List.any_eq_true.2 ⟨w, mem_of_mem_keepLast hw,
        sameBinding_iff.2 hshares⟩

/-- What is kept of a list followed by another: of the first, the keys that do
not come again. -/
theorem mem_keepLast_append {l l' : List UnstableVariable}
    {v : UnstableVariable} :
    v ∈ keepLast (l ++ l') ↔ v ∈ keepLast l ∧ (∀ w ∈ l', ¬ v.SharesKey w) ∨
      v ∈ keepLast l' := by
  induction l with
  | nil => simp [keepLast]
  | cons x rest ih =>
    rw [List.cons_append, keepLast, keepLast, List.any_append]
    by_cases hrest : rest.any (sameBinding x) = true
    · rw [if_pos (Bool.or_eq_true_iff.2 (.inl hrest)), if_pos hrest]
      exact ih
    · rw [if_neg hrest]
      by_cases hlater : l'.any (sameBinding x) = true
      · -- the head comes again behind the list, so it is kept on neither side
        rw [if_pos (Bool.or_eq_true_iff.2 (.inr hlater)), ih, List.mem_cons]
        obtain ⟨w, hw, hshares⟩ := List.any_eq_true.1 hlater
        refine or_congr_left ⟨fun h => ⟨.inr h.1, h.2⟩, ?_⟩
        rintro ⟨rfl | h, hnone⟩
        · exact absurd (sameBinding_iff.1 hshares) (hnone w hw)
        · exact ⟨h, hnone⟩
      · rw [if_neg (by simp [hrest, hlater]), List.mem_cons, ih, List.mem_cons]
        constructor
        · rintro (rfl | ⟨h, hnone⟩ | h)
          · exact .inl ⟨.inl rfl, fun w hw hshares =>
              hlater (List.any_eq_true.2 ⟨w, hw, sameBinding_iff.2 hshares⟩)⟩
          · exact .inl ⟨.inr h, hnone⟩
          · exact .inr h
        · rintro (⟨rfl | h, hnone⟩ | h)
          · exact .inl rfl
          · exact .inr (.inl ⟨h, hnone⟩)
          · exact .inr (.inr h)

/-- If variables with one key are equal, each of them is kept. -/
theorem mem_keepLast_of_unique {l : List UnstableVariable}
    (h : ∀ v ∈ l, ∀ w ∈ l, v.SharesKey w → v = w) {v : UnstableVariable}
    (hv : v ∈ l) : v ∈ keepLast l := by
  induction l with
  | nil => exact hv
  | cons x rest ih =>
    have hrest := ih fun v hv w hw =>
      h v (List.mem_cons_of_mem _ hv) w (List.mem_cons_of_mem _ hw)
    rw [keepLast]
    split
    · next hagain =>
      rcases List.mem_cons.1 hv with rfl | hv
      · obtain ⟨w, hw, hshares⟩ := List.any_eq_true.1 hagain
        obtain rfl := h v List.mem_cons_self w (List.mem_cons_of_mem _ hw)
          (sameBinding_iff.1 hshares)
        exact hrest hw
      · exact hrest hv
    · rcases List.mem_cons.1 hv with rfl | hv
      · exact List.mem_cons_self
      · exact List.mem_cons_of_mem _ (hrest hv)

variable {ctx : Context} {file : String} {root : Node} {facts : Facts}

/-- A declarator of a list renews a variable, and no declarator behind it
renews one with the same key. -/
def IsLastRenewal (ctx : Context) (file : String) (declarators : List Node)
    (v : UnstableVariable) : Prop :=
  ∃ before d after, declarators = before ++ d :: after ∧ Renews ctx file d v ∧
    ∀ e ∈ after, ∀ w, Renews ctx file e w → ¬ v.SharesKey w

/-- The last renewal among declarators, read from the front. -/
theorem isLastRenewal_cons {d : Node} {rest : List Node}
    {v : UnstableVariable} :
    IsLastRenewal ctx file (d :: rest) v ↔
      Renews ctx file d v ∧
        (∀ e ∈ rest, ∀ w, Renews ctx file e w → ¬ v.SharesKey w) ∨
        IsLastRenewal ctx file rest v := by
  constructor
  · rintro ⟨before, e, after, heq, hrenews, hlast⟩
    cases before with
    | nil =>
      obtain ⟨rfl, rfl⟩ := List.cons.inj heq
      exact .inl ⟨hrenews, hlast⟩
    | cons first before =>
      obtain ⟨rfl, rfl⟩ := List.cons.inj heq
      exact .inr ⟨before, e, after, rfl, hrenews, hlast⟩
  · rintro (⟨hrenews, hlast⟩ | ⟨before, e, after, rfl, hrenews, hlast⟩)
    · exact ⟨[], d, rest, rfl, hrenews, hlast⟩
    · exact ⟨d :: before, e, after, rfl, hrenews, hlast⟩

/-- Of what declarators stand for, the last renewals are kept. -/
theorem mem_keepLast_iff {declarators : List Node} {ds : List Declaration}
    (h : declarators.mapM (Declaration.ofNode ctx file) = .ok ds)
    {v : UnstableVariable} :
    v ∈ keepLast (ds.flatMap unstableOf) ↔
      IsLastRenewal ctx file declarators v := by
  induction declarators generalizing ds with
  | nil =>
    cases h
    refine iff_of_false List.not_mem_nil ?_
    rintro ⟨before, d, after, heq, -⟩
    cases before <;> cases heq
  | cons d rest ih =>
    obtain ⟨decl, others, hdecl, hothers, rfl⟩ := mapM_cons_eq_ok.1 h
    have hmem : ∀ {w}, w ∈ unstableOf decl ↔ Renews ctx file d w :=
      Declaration.mem_unstableOf_iff_renews hdecl
    have hkept : v ∈ keepLast (unstableOf decl) ↔ Renews ctx file d v := by
      refine ⟨fun hv => hmem.1 (mem_of_mem_keepLast hv),
        fun hv => mem_keepLast_of_unique ?_ (hmem.2 hv)⟩
      exact fun x hx y hy hshares => (hmem.1 hx).unique (hmem.1 hy) hshares.1
    have hlater : (∀ w ∈ others.flatMap unstableOf, ¬ v.SharesKey w) ↔
        ∀ e ∈ rest, ∀ w, Renews ctx file e w → ¬ v.SharesKey w := by
      constructor
      · intro hnone e he w hw
        obtain ⟨other, hother⟩ := exists_of_mapM hothers he
        exact hnone w (List.mem_flatMap.2
          ⟨other, (mem_of_mapM hothers).2 ⟨e, he, hother⟩,
          (Declaration.mem_unstableOf_iff_renews hother).2 hw⟩)
      · intro hnone w hw
        obtain ⟨other, hother, hw⟩ := List.mem_flatMap.1 hw
        obtain ⟨e, he, hother⟩ := (mem_of_mapM hothers).1 hother
        exact hnone e he w ((Declaration.mem_unstableOf_iff_renews hother).1 hw)
    rw [List.flatMap_cons, mem_keepLast_append, hkept, hlater, ih hothers,
      isLastRenewal_cons]

/-- What is renewed at all has a last renewal. -/
theorem exists_isLastRenewal {declarators : List Node} {d : Node}
    (hd : d ∈ declarators) {v : UnstableVariable} (hv : Renews ctx file d v) :
    ∃ w, IsLastRenewal ctx file declarators w ∧ v.SharesKey w := by
  induction declarators generalizing d v with
  | nil => cases hd
  | cons first rest ih =>
    -- a later renewal may be of another kind, so the induction is for every
    -- variable with the key
    by_cases hagain : ∃ e ∈ rest, ∃ w, Renews ctx file e w ∧ v.SharesKey w
    · obtain ⟨e, he, w, hw, hshares⟩ := hagain
      obtain ⟨x, hx, hshares'⟩ := ih he hw
      exact ⟨x, isLastRenewal_cons.2 (.inr hx), hshares.1.trans hshares'.1,
        hshares.2.trans hshares'.2⟩
    · rcases List.mem_cons.1 hd with rfl | hd
      · refine ⟨v, isLastRenewal_cons.2
          (.inl ⟨hv, fun e he w hw hshares => ?_⟩), rfl, rfl⟩
        exact hagain ⟨e, he, w, hw, hshares⟩
      · exact absurd ⟨d, hd, v, hv, rfl, rfl⟩ hagain

/-! ### The unstable variables of a file -/

/-- A name is settled for a component: it is a state, a setter, a ref or a
name of the module anywhere in the file, or memoized by the component. -/
def Settled (f : Facts) (component name : String) : Prop :=
  f.isState name = true ∨ f.isSetter name = true ∨ name ∈ f.refs ∨
    name ∈ f.moduleLevel ∨ name ∈ memoizedBy f.memoized component

/-- The facts of a file are there iff every declarator can be understood. -/
theorem extract_eq_ok : extract ctx file root = .ok facts ↔ ∃ ds,
    root.declarators.mapM (Declaration.ofNode ctx file) = .ok ds ∧
      facts = ofDeclarations root.components ds := by
  constructor
  · intro h
    obtain ⟨ds, hds, h⟩ := bind_eq_ok.1 h
    cases h
    exact ⟨ds, hds, rfl⟩
  · rintro ⟨ds, hds, rfl⟩
    exact bind_eq_ok.2 ⟨ds, hds, rfl⟩

/-- Listed are the last renewals of names that are not settled. -/
theorem mem_unstableVariables_iff (h : extract ctx file root = .ok facts)
    {v : UnstableVariable} :
    v ∈ facts.unstableVariables ↔ ¬ facts.Settled v.owner.name v.name ∧
      IsLastRenewal ctx file root.declarators v := by
  obtain ⟨ds, hds, rfl⟩ := extract_eq_ok.1 h
  rw [← mem_keepLast_iff hds, and_comm]
  unfold ofDeclarations
  rw [List.mem_filter]
  refine and_congr_right fun _ => ?_
  simp only [Settled, isState, isSetter, Bool.not_eq_true', ← Bool.not_eq_true,
    Bool.or_eq_true, List.contains_iff_mem, not_or, and_assoc]

/-- Under a key there is one variable at most. -/
theorem unstable?_eq_some_iff (h : extract ctx file root = .ok facts)
    {component name : String} {v : UnstableVariable} :
      facts.unstable? component name = some v ↔ v ∈ facts.unstableVariables ∧
      v.owner.name = component ∧ v.name = name := by
  have hapart : facts.unstableVariables.Pairwise fun v w =>
    ¬ v.SharesKey w := by
    obtain ⟨ds, -, rfl⟩ := extract_eq_ok.1 h
    exact (pairwise_keepLast _).sublist List.filter_sublist
  unfold unstable?
  rw [List.find?_eq_some_iff_append, Bool.and_eq_true, beq_iff_eq, beq_iff_eq]
  constructor
  · rintro ⟨hkey, before, after, hsplit, -⟩
    exact ⟨hsplit ▸ List.mem_append_right _ List.mem_cons_self, hkey⟩
  · rintro ⟨hv, rfl, rfl⟩
    obtain ⟨before, after, hsplit⟩ := List.append_of_mem hv
    refine ⟨⟨rfl, rfl⟩, before, after, hsplit, fun w hw => ?_⟩
    rw [hsplit] at hapart
    have hshares := (List.pairwise_append.1 hapart).2.2 w hw v
      List.mem_cons_self
    rw [Bool.not_eq_true', ← Bool.not_eq_true, Bool.and_eq_true,
      beq_iff_eq, beq_iff_eq]
    exact fun hkey => hshares ⟨hkey.2, hkey.1⟩

/-- With well-formed settings the facts of a file can be told. -/
theorem exists_extract (hctx : ctx.options.WellFormed) (file : String)
    (root : Node) :
    ∃ facts, extract ctx file root = .ok facts := by
  obtain ⟨ds, hds⟩ := exists_mapM (l := root.declarators) fun d _ =>
    Declaration.exists_ofNode fun _ _ call _ =>
    Stability.exists_classify hctx file call
  exact ⟨_, extract_eq_ok.2 ⟨ds, hds, rfl⟩⟩

/-- A name that is renewed in a component is listed unless it is settled. -/
theorem isSome_unstable?_of_renews (h : extract ctx file root = .ok facts)
    {d : Node} (hd : d ∈ root.declarators) {v : UnstableVariable}
    (hv : Renews ctx file d v) :
    (facts.unstable? v.owner.name v.name).isSome = true ↔
      ¬ facts.Settled v.owner.name v.name := by
  obtain ⟨w, hlast, hname, howner⟩ := exists_isLastRenewal hd hv
  rw [hname, howner]
  constructor
  · intro hsome
    obtain ⟨x, hx⟩ := Option.isSome_iff_exists.1 hsome
    obtain ⟨hmem, hxowner, hxname⟩ := (unstable?_eq_some_iff h).1 hx
    rw [← hxowner, ← hxname]
    exact ((mem_unstableVariables_iff h).1 hmem).1
  · intro hfree
    have hmem := (mem_unstableVariables_iff h).2 ⟨hfree, hlast⟩
    exact Option.isSome_iff_exists.2
      ⟨w, (unstable?_eq_some_iff h).2 ⟨hmem, rfl, rfl⟩⟩

/-- The unstable variables of a file are its renewals. With well-formed
settings they can be told. A component has an unstable variable of a name iff
the name is not settled and some declarator directly inside the component
renews it, and what is known about the variable comes from the last such
declarator. -/
theorem extract_lists_renewals (ctx : Context) (file : String) (root : Node) :
    (ctx.options.WellFormed → ∃ facts, extract ctx file root = .ok facts) ∧
      ∀ facts, extract ctx file root = .ok facts → ∀ component name,
        ((facts.unstable? component name).isSome = true ↔
          ¬ facts.Settled component name ∧
          ∃ d ∈ root.declarators, ∃ v, Renews ctx file d v ∧
          v.owner.name = component ∧ v.name = name) ∧
        ∀ v, facts.unstable? component name = some v →
          IsLastRenewal ctx file root.declarators v ∧ v.owner.name = component ∧
            v.name = name := by
  refine ⟨fun hctx => exists_extract hctx file root,
    fun facts h component name => ⟨⟨fun hsome => ?_, ?_⟩, ?_⟩⟩
  · obtain ⟨v, hv⟩ := Option.isSome_iff_exists.1 hsome
    obtain ⟨hmem, rfl, rfl⟩ := (unstable?_eq_some_iff h).1 hv
    obtain ⟨hfree, before, d, after, hsplit, hrenews, -⟩ :=
      (mem_unstableVariables_iff h).1 hmem
    exact ⟨hfree, d, hsplit ▸ List.mem_append_right _ List.mem_cons_self, v,
      hrenews, rfl, rfl⟩
  · rintro ⟨hfree, d, hd, v, hrenews, rfl, rfl⟩
    exact (isSome_unstable?_of_renews h hd hrenews).2 hfree
  · intro v hv
    obtain ⟨hmem, hkey⟩ := (unstable?_eq_some_iff h).1 hv
    exact ⟨((mem_unstableVariables_iff h).1 hmem).2, hkey⟩

end Facts

/-! ### Components with one declaration of interest -/

namespace Sketch

/-- A call of a property of an object. -/
def callOn (object method : String) (args : List Sketch) : Sketch :=
  phrase .call true none
    [phrase .member true (some .function) [as .object (name object),
      between ".", phrase (.other "property_identifier") true (some .property)
      [between method]],
    phrase .arguments true (some .arguments)
      (between "(" :: list args ++ [between ")"])]

def emptyObject : Sketch := phrase .object true none [between "\x7b\x7d"]

def arrayPattern (elements : List Sketch) : Sketch :=
  phrase .arrayPattern true none (between "[" :: list elements ++ [between "]"])

/-- A pattern that takes properties out of an object under their own names. -/
def objectPattern (names : List String) : Sketch :=
  phrase .objectPattern true none (between "\x7b" ::
    list (names.map fun s => phrase .shorthandPattern true none [between s]) ++
      [between "\x7d"])

end Sketch

/-- A file with one component that consists of statements. -/
def panel (statements : List Sketch) : SourceFile :=
  Sketch.file "Panel.tsx" [.function "Panel" [] statements]

/-- A name is bound to an array and again, in a block of its own, to an
object. -/
def renewedTwice : SourceFile :=
  panel [.const (.name "opts") (.array []),
    .block [.const (.name "opts") .emptyObject]]

namespace Facts

/-- Of two renewals of one name the second one counts. -/
theorem extract_renewedTwice : ∃ facts v,
    extract .usual renewedTwice.path renewedTwice.root = .ok facts ∧
      facts.unstable? "Panel" "opts" = some v ∧ v.kind = .object ∧
      IsLastRenewal .usual renewedTwice.path
        renewedTwice.root.declarators v := by
  obtain ⟨facts, hfacts, h⟩ := exists_of_any_toOption
    (x := extract .usual renewedTwice.path renewedTwice.root)
    (p := fun facts => (facts.unstable? "Panel" "opts").any fun v =>
      v.kind == .object) (by decide +kernel)
  obtain ⟨v, hv, hkind⟩ := (Option.any_eq_true _ _).1 h
  have hlast :=
    ((extract_lists_renewals .usual renewedTwice.path renewedTwice.root).2
    facts hfacts "Panel" "opts").2 v hv
  exact ⟨facts, v, hfacts, hv, by simpa using hkind, hlast.1⟩

/-- A name is listed, although every declarator of the file is bound to a call
of one of the given hooks. -/
def ListsHookResult (ctx : Context) (f : SourceFile) (hooks : List String)
    (name : String) : Prop :=
  ∃ facts, extract ctx f.path f.root = .ok facts ∧
    (facts.unstable? "Panel" name).isSome = true ∧
    ∀ d ∈ f.root.declarators, ∃ call, d.bareChild? .value = some call ∧
      call.isCallOf hooks = true

/-- What has to be evaluated to see that the result of a hook is listed. -/
theorem listsHookResult_of_any {ctx : Context} {f : SourceFile}
    {hooks : List String} {name : String}
    (hlisted : (extract ctx f.path f.root).toOption.any (fun facts =>
      (facts.unstable? "Panel" name).isSome) = true)
    (hcalls : f.root.declarators.all (fun d =>
    (d.bareChild? .value).any (·.isCallOf hooks)) = true) :
    ListsHookResult ctx f hooks name := by
  obtain ⟨facts, hfacts, hsome⟩ := exists_of_any_toOption hlisted
  refine ⟨facts, hfacts, hsome, fun d hd => ?_⟩
  exact (Option.any_eq_true _ _).1 (List.all_eq_true.1 hcalls d hd)

/-- A memoized pair, and a state taken apart by its properties in a project
where hooks are spelled in another way. -/
theorem extract_lists_hook_results :
    ListsHookResult .usual (panel [.const (.arrayPattern [.name "a", .name "b"])
      (.callOn "React" "useMemo" [.name "compute", .array []])])
        Declaration.memoHooks "a" ∧
    ListsHookResult
      ((Context.ofOptions Regex.compiler
        { names := { customHook := "^query[A-Z]" } }).toOption.getD default)
      (panel [.const (.objectPattern ["a"]) (.call "useState" [.number "0"])])
        Declaration.stateHooks "a" :=
  ⟨listsHookResult_of_any (by decide +kernel) (by decide +kernel),
    listsHookResult_of_any (by decide +kernel) (by decide +kernel)⟩

end Facts

end RenderLoop
