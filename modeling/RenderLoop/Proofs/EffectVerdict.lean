import RenderLoop.Check.File
import RenderLoop.Proofs.Events
import RenderLoop.Proofs.Sketch

/-!
# The verdict on an effect

What the checks say about an effect is decided by its update sites, the calls
that update a setter while the effect runs.

> `isWorstVerdict_recordedKind?`: a dependency that is a state gets the
> verdict of the worst site of its setter, one without a guard being worse
> than one under an unsafe guard, and that worse than a safe one.

> `exists_confirmed_of_modifications`: an effect that always updates one of
> its dependencies, or any state if it lists none, is a confirmed loop,
> whether or not an unstable dependency is reported instead.

A call that nothing in the callback can keep from running has no guard, so it
is such an update (`CallsAlways.unguarded`).

The verdict is read off the record of the effect, and the record off its
events. So the argument is: a site without guard is a modification on record,
a site with a guard is that guard on record, and nothing else is
(`unsafelyGuarded_iff`, `updated_iff`); a modification outweighs all guards,
and among the guards an unsafe one outweighs the safe ones
(`kinds_dependencyVerdict`).

Two programs show what the verdict leaves out
(`effectLoops_passes_over_calls`): a callback that is made by a call is not
looked into, and a helper whose name is that of a setter elsewhere is taken
for that setter.
-/

namespace RenderLoop

/-- The setter of a state is one of the setters of the file. -/
theorem Facts.isSetter_of_setterOf? {ctx : Context} {file : String}
    {root : Node} {facts : Facts} (h : extract ctx file root = .ok facts)
    {state setter : String}
    (hs : facts.setterOf? state = some setter) :
    facts.isSetter setter = true := by
  obtain ⟨ds, -, h⟩ := bind_eq_ok.1 h
  cases h
  have hpair := Table.mem_of_mem_ofEntries (Table.mem_of_get? hs)
  obtain ⟨d, hd, hpair⟩ := List.mem_flatMap.1 hpair
  have hsetter : setter ∈ settersOf d := by
    unfold statePairs at hpair
    split at hpair
    · obtain ⟨-, rfl⟩ := Prod.mk.inj (List.mem_singleton.1 hpair)
      exact List.mem_singleton.2 rfl
    · exact List.mem_map.2 ⟨_, hpair, rfl⟩
    · cases hpair
  unfold isSetter ofDeclarations
  simpa using ⟨d, hd, hsetter⟩

/-- Capping the confidence changes neither the kind of a finding nor what it
is about. -/
theorem Finding.capConfidence_keeps (f : Finding) (reasons : List String) :
    (f.capConfidence reasons).kind = f.kind ∧
      (f.capConfidence reasons).dependency = f.dependency := by
  unfold Finding.capConfidence
  split
  · exact ⟨rfl, rfl⟩
  · exact ⟨rfl, rfl⟩

@[simp]
theorem Context.kind_report (ctx : Context) (f : Finding)
    (doubts : List Doubt) :
    (ctx.report f doubts).kind = f.kind :=
  (Finding.capConfidence_keeps _ _).1

@[simp]
theorem Context.dependency_report (ctx : Context) (f : Finding)
    (doubts : List Doubt) :
    (ctx.report f doubts).dependency = f.dependency :=
  (Finding.capConfidence_keeps _ _).2

/-- The guard that counts for a setter is one recorded for it, and it is
unsafe if any of them is. -/
theorem Interaction.guardFor?_eq_some {i : Interaction}
    {setter : String} {g : Guard} (h : i.guardFor? setter = some g) :
    (g ∈ i.guarded ∧ g.setter = setter) ∧
      (g.isSafe = true → ∀ other ∈ i.guarded, other.setter = setter →
        other.isSafe = true) := by
  unfold guardFor? at h
  simp only at h
  rcases Option.or_eq_some_iff.1 h with hunsafe | ⟨hnone, hhead⟩
  · have hmem := List.mem_filter.1 (List.mem_of_find?_eq_some hunsafe)
    have hg := List.find?_some hunsafe
    refine ⟨⟨hmem.1, by simpa using hmem.2⟩, fun hsafe => ?_⟩
    simp [hsafe] at hg
  · have hmem := List.mem_filter.1 (List.mem_of_mem_head? hhead)
    refine ⟨⟨hmem.1, by simpa using hmem.2⟩, fun _ other hother hsetter => ?_⟩
    have hfound := List.find?_eq_none.1 hnone other
      (List.mem_filter.2 ⟨hother, by simpa using hsetter⟩)
    simpa using hfound

/-- No guard is found for a setter iff none of those recorded is about it. -/
theorem Interaction.guardFor?_eq_none {i : Interaction} {setter : String} :
    i.guardFor? setter = none ↔ ∀ g ∈ i.guarded, g.setter ≠ setter := by
  unfold guardFor?
  simp only [Option.or_eq_none_iff, List.head?_eq_none_iff,
    List.filter_eq_nil_iff, beq_iff_eq]
  refine and_iff_right_of_imp fun h => List.find?_eq_none.2 fun g hg => ?_
  obtain ⟨hg, hsetter⟩ := List.mem_filter.1 hg
  exact absurd (by simpa using hsetter) (h g hg)

namespace Check

open Update

/-! ### One verdict for each dependency -/

/-- The kind of verdict that the record of a body leads to for a setter. -/
def recordedKind? (i : Interaction) (setter : String) : Option FindingKind :=
  if setter ∈ i.modifications then some .confirmed
  else
    match i.guardFor? setter with
    | some g => some (if g.isSafe then .safe else .potential)
    | none =>
      if setter ∈ i.deferred ∨ setter ∈ i.cleanup then some .safe else none

/-- The verdict on a dependency is of the recorded kind, and it names the
dependency. -/
theorem map_dependencyVerdict (ctx : Context) (h : Hook) (file : String)
    (i : Interaction) (state setter : String) :
    (dependencyVerdict ctx h file i state setter).map
      (fun x => (x.kind, x.dependency)) = (recordedKind? i setter).map
      fun kind => (kind, state) := by
  have hloop : (loopFinding ctx h file state setter i).kind = .confirmed ∧
      (loopFinding ctx h file state setter i).dependency = state :=
    ⟨Context.kind_report .., Context.dependency_report ..⟩
  have hsafe : ∀ why, (safeFinding ctx h file state setter i why).kind = .safe ∧
      (safeFinding ctx h file state setter i why).dependency = state :=
        fun why =>
    ⟨Context.kind_report .., Context.dependency_report ..⟩
  have hunsafe : ∀ g, (unsafeFinding ctx h file state setter i g).kind =
      .potential ∧ (unsafeFinding ctx h file state setter i g).dependency =
      state := by
    intro g
    unfold unsafeFinding
    simp only [Context.kind_report, Context.dependency_report]
    split
    · exact ⟨rfl, rfl⟩
    · exact ⟨rfl, rfl⟩
  unfold dependencyVerdict recordedKind?
  by_cases hmod : setter ∈ i.modifications
  · simp [hmod, hloop]
  · cases hguard : i.guardFor? setter with
    | some g => cases hg : g.isSafe <;> simp [hmod, hg, hsafe, hunsafe]
    | none =>
      by_cases hlater : setter ∈ i.deferred
      · simp [hmod, hlater, hsafe]
      · by_cases hclean : setter ∈ i.cleanup <;>
          simp [hmod, hlater, hclean, hsafe]

/-- A verdict reports a loop, an update under an unsafe guard or a safe
update. -/
theorem cases_of_dependencyVerdict {ctx : Context} {h : Hook} {file : String}
    {i : Interaction} {state setter : String} {x : Finding}
    (hx : dependencyVerdict ctx h file i state setter = some x) :
    (setter ∈ i.modifications ∧ x = loopFinding ctx h file state setter i) ∨
      (recordedKind? i setter = some .potential ∧
        ∃ guard, x = unsafeFinding ctx h file state setter i guard) ∨
      (recordedKind? i setter = some .safe ∧
        ∃ why, x = safeFinding ctx h file state setter i why) := by
  unfold dependencyVerdict at hx
  unfold recordedKind?
  by_cases hmod : setter ∈ i.modifications
  · rw [if_pos (List.contains_iff_mem.2 hmod)] at hx
    exact .inl ⟨hmod, (Option.some.inj hx).symm⟩
  · rw [if_neg fun hin => hmod (List.contains_iff_mem.1 hin)] at hx
    rw [if_neg hmod]
    right
    cases hguard : i.guardFor? setter with
    | some guard =>
      cases hsafe : guard.isSafe with
      | true =>
        simp only [hguard, hsafe, if_true] at hx
        exact .inr ⟨by simp [hsafe], _, (Option.some.inj hx).symm⟩
      | false =>
        simp only [hguard, hsafe, Bool.false_eq_true, if_false] at hx
        exact .inl ⟨by simp [hsafe], guard, (Option.some.inj hx).symm⟩
    | none =>
      simp only [hguard, List.contains_iff_mem] at hx
      by_cases hlater : setter ∈ i.deferred
      · rw [if_pos hlater] at hx
        exact .inr ⟨by simp [hlater], _, (Option.some.inj hx).symm⟩
      · by_cases hclean : setter ∈ i.cleanup
        · rw [if_neg hlater, if_pos hclean] at hx
          exact .inr ⟨by simp [hclean], _, (Option.some.inj hx).symm⟩
        · rw [if_neg hlater, if_neg hclean] at hx
          cases hx

/-- The check that a finding on a hook comes from, and when that check is
made. -/
inductive FoundOnHook (ctx : Context) (file : String) (facts : Facts) (h : Hook)
    (i : Interaction) (x : Finding) : Prop where
  | withoutArray (heffect : h.kind.isEffect = true)
      (harray : h.hasDependencies = false)
      (hx : x ∈ effectWithoutDeps ctx h file i)
  | unstable (harray : h.hasDependencies = true) (v : UnstableVariable)
      (hv : unstableDependency? h facts = some v)
      (hx : x = unstableFinding ctx h file facts i v)
  | dependency (heffect : h.kind.isEffect = true)
      (harray : h.hasDependencies = true)
      (hstable : unstableDependency? h facts = none) (state setter : String)
      (hsetter : facts.setterOf? state = some setter)
      (hx : dependencyVerdict ctx h file i state setter = some x)
  | memo (hmemo : h.kind.isEffect = false)
      (hx : x ∈ memoHook ctx h file facts i)

/-- Every finding on a hook comes from one of these checks. -/
theorem foundOnHook {ctx : Context} {file : String} {facts : Facts} {h : Hook}
    {i : Interaction} {x : Finding} (hx : x ∈ hookFindings ctx file facts h i) :
    FoundOnHook ctx file facts h i x := by
  unfold hookFindings at hx
  cases heffect : h.kind.isEffect with
  | true =>
    cases harray : h.hasDependencies with
    | false =>
      simp only [heffect, harray] at hx
      exact .withoutArray heffect harray hx
    | true =>
      cases hv : unstableDependency? h facts with
      | some v =>
        simp only [heffect, harray, unstableReference?, hv, Option.map_some,
          List.mem_singleton] at hx
        exact .unstable harray v hv hx
      | none =>
        simp only [heffect, harray, unstableReference?, hv, Option.map_none,
          if_true] at hx
        obtain ⟨state, -, hx⟩ := List.mem_filterMap.1 hx
        obtain ⟨setter, hsetter, hx⟩ := Option.bind_eq_some_iff.1 hx
        exact .dependency heffect harray hv state setter hsetter hx
  | false =>
    cases harray : h.hasDependencies with
    | false =>
      simp only [heffect, harray] at hx
      exact .memo heffect hx
    | true =>
      cases hv : unstableDependency? h facts with
      | some v =>
        simp only [heffect, harray, unstableReference?, hv, Option.map_some,
          List.mem_singleton] at hx
        exact .unstable harray v hv hx
      | none =>
        simp only [heffect, harray, unstableReference?, hv, Option.map_none,
          Bool.false_eq_true, if_false] at hx
        exact .memo heffect hx

/-- A memo hook is reported for having no dependency array, or for updating a
state that it depends on. -/
theorem cases_of_mem_memoHook {ctx : Context} {file : String} {facts : Facts}
    {h : Hook} {i : Interaction} {x : Finding}
    (hx : x ∈ memoHook ctx h file facts i) : x = missingMemoDeps ctx h file ∨
      ∃ state setter, facts.setterOf? state = some setter ∧
        x = memoUpdateFinding ctx h file i state setter := by
  unfold memoHook at hx
  split at hx
  · exact .inl (List.mem_singleton.1 hx)
  · obtain ⟨state, -, hx⟩ := List.mem_filterMap.1 hx
    split at hx
    · next setter hsetter =>
      split at hx
      · exact .inr ⟨state, setter, hsetter, (Option.some.inj hx).symm⟩
      · cases hx
    · cases hx

/-- A verdict names the state it is about. -/
theorem dependency_of_dependencyVerdict {ctx : Context} {h : Hook}
    {file : String} {i : Interaction} {state setter : String} {x : Finding}
    (hx : dependencyVerdict ctx h file i state setter = some x) :
    x.dependency = state := by
  have hmap := map_dependencyVerdict ctx h file i state setter
  rw [hx] at hmap
  obtain ⟨kind, -, hkind⟩ := Option.map_eq_some_iff.1 hmap.symm
  exact (Prod.mk.inj hkind).2.symm

/-- What the verdict says is read off the record. -/
theorem kinds_dependencyVerdict (ctx : Context) (h : Hook) (file : String)
    (i : Interaction) (state setter : String) :
    (dependencyVerdict ctx h file i state setter).toList.map (·.kind) =
      (recordedKind? i setter).toList := by
  have hmap := congrArg (Option.map Prod.fst)
    (map_dependencyVerdict ctx h file i state setter)
  rw [Option.map_map, Option.map_map] at hmap
  rw [← Option.toList_map]
  exact congrArg Option.toList (hmap.trans Option.map_id')

/-- The findings on one dependency are its verdict. -/
theorem filter_effectLoops {h : Hook} {facts : Facts} {state setter : String}
    (ctx : Context) (file : String) (i : Interaction)
    (hstate : state ∈ h.dependencies)
    (hsetter : facts.setterOf? state = some setter) :
    (effectLoops ctx h file facts i).filter (·.dependency == state) =
      (dependencyVerdict ctx h file i state setter).toList := by
  have habout : ∀ name x,
      ((facts.setterOf? name).bind (dependencyVerdict ctx h file i name)) =
        some x → x.dependency = name := by
    intro name x hx
    obtain ⟨other, -, hx⟩ := Option.bind_eq_some_iff.1 hx
    exact dependency_of_dependencyVerdict hx
  unfold effectLoops
  rw [filter_filterMap_of_nodup habout (nodup_eraseDups _)
    (List.mem_eraseDups.2 hstate), hsetter]
  rfl

end Check

/-! ### The worst site decides -/

namespace Update.Body

variable (b : Body) (sites : List Site) (setter : String)

/-- Some update site of the setter. -/
def Updated : Prop := ∃ s ∈ sites, b.IsUpdateSite setter s

/-- Some update site without a guard. -/
def Unguarded : Prop :=
  ∃ s ∈ sites, b.IsUpdateSite setter s ∧ b.guardAt? setter s.call = none

/-- Some update site under a guard that is not safe. -/
def UnsafelyGuarded : Prop :=
  ∃ s ∈ sites, b.IsUpdateSite setter s ∧
    ∃ g, b.guardAt? setter s.call = some g ∧ g.isSafe = false

/-- What the worst update site makes of a state, and without any site the
updates that come later. -/
structure IsWorstVerdict (i : Interaction) (kinds : List FindingKind) :
    Prop where
  confirmed : b.Unguarded sites setter → kinds = [.confirmed]
  potential : ¬ b.Unguarded sites setter → b.UnsafelyGuarded sites setter →
    kinds = [.potential]
  safe : ¬ b.Unguarded sites setter → ¬ b.UnsafelyGuarded sites setter →
    b.Updated sites setter ∨ setter ∈ i.deferred ∨ setter ∈ i.cleanup →
      kinds = [.safe]
  silent : ¬ b.Updated sites setter → setter ∉ i.deferred →
    setter ∉ i.cleanup → kinds = []

variable {b sites setter} {origins : Table (List String)} {i : Interaction}

/-- An unsafe guard around an update is an unsafe guard on record. -/
theorem unsafelyGuarded_iff (hsites : b.sites = .ok sites)
    (hi : b.interaction origins = .ok i) :
    b.UnsafelyGuarded sites setter ↔ ∃ g ∈ i.guarded, g.setter = setter ∧
      g.isSafe = false := by
  constructor
  · rintro ⟨s, hs, hsite, g, hg, hunsafe⟩
    obtain rfl : g.setter = setter := Guard.setter_of_inEffect? hg
    exact ⟨g, (mem_guarded hsites hi).2 ⟨s, hs, hsite, hg⟩, rfl, hunsafe⟩
  · rintro ⟨g, hmem, rfl, hunsafe⟩
    obtain ⟨s, hs, hsite, hg⟩ := (mem_guarded hsites hi).1 hmem
    exact ⟨s, hs, hsite, g, hg, hunsafe⟩

/-- A setter is updated iff it is on record as modified or as guarded. -/
theorem updated_iff (hsites : b.sites = .ok sites)
    (hi : b.interaction origins = .ok i) :
    b.Updated sites setter ↔ b.Unguarded sites setter ∨
      ∃ g ∈ i.guarded, g.setter = setter := by
  constructor
  · rintro ⟨s, hs, hsite⟩
    cases hg : b.guardAt? setter s.call with
    | none => exact .inl ⟨s, hs, hsite, hg⟩
    | some g =>
      obtain rfl : g.setter = setter := Guard.setter_of_inEffect? hg
      exact .inr ⟨g, (mem_guarded hsites hi).2 ⟨s, hs, hsite, hg⟩, rfl⟩
  · rintro (⟨s, hs, hsite, -⟩ | ⟨g, hmem, rfl⟩)
    · exact ⟨s, hs, hsite⟩
    · obtain ⟨s, hs, hsite, -⟩ := (mem_guarded hsites hi).1 hmem
      exact ⟨s, hs, hsite⟩

end Update.Body

namespace Check

open Update

/-- The record keeps of the update sites what their verdict hangs on. -/
theorem isWorstVerdict_recordedKind? {b : Body} {sites : List Site}
    {origins : Table (List String)} {i : Interaction}
    (hsites : b.sites = .ok sites)
    (hi : b.interaction origins = .ok i) (setter : String) :
    b.IsWorstVerdict sites setter i (recordedKind? i setter).toList := by
  have hmod : setter ∈ i.modifications ↔ b.Unguarded sites setter :=
    Body.mem_modifications hsites hi
  unfold recordedKind?
  refine ⟨fun hfree => ?_, fun hnone hunsafe => ?_,
    fun hnone hunsafe hany => ?_, fun hupdated hlater hclean => ?_⟩
  · rw [if_pos (hmod.2 hfree)]
    rfl
  · rw [if_neg fun hin => hnone (hmod.1 hin)]
    obtain ⟨g, hg, hsetter, hbad⟩ :=
      (Body.unsafelyGuarded_iff hsites hi).1 hunsafe
    cases hguard : i.guardFor? setter with
    | none => exact absurd hsetter (Interaction.guardFor?_eq_none.1 hguard g hg)
    | some first =>
      -- were the guard that counts safe, all of them would be
      have hfirst : ¬ first.isSafe = true := fun hsafe => by
        rw [(Interaction.guardFor?_eq_some hguard).2 hsafe g hg hsetter] at hbad
        cases hbad
      simp only [if_neg hfirst, Option.toList_some]
  · rw [if_neg fun hin => hnone (hmod.1 hin)]
    cases hguard : i.guardFor? setter with
    | some first =>
      obtain ⟨⟨hfirst, hsetter⟩, -⟩ := Interaction.guardFor?_eq_some hguard
      have hsafe : first.isSafe = true := Classical.not_not.1 fun hbad =>
        hunsafe ((Body.unsafelyGuarded_iff hsites hi).2 ⟨first, hfirst,
          hsetter, by simpa using hbad⟩)
      simp only [if_pos hsafe, Option.toList_some]
    | none =>
      have hlate : setter ∈ i.deferred ∨ setter ∈ i.cleanup :=
        hany.resolve_left fun hupdated => by
        rcases (Body.updated_iff hsites hi).1 hupdated with hfree |
          ⟨g, hg, hsetter⟩
        · exact hnone hfree
        · exact Interaction.guardFor?_eq_none.1 hguard g hg hsetter
      simp only [if_pos hlate, Option.toList_some]
  · have hfree := fun hin =>
      hupdated ((Body.updated_iff hsites hi).2 (.inl (hmod.1 hin)))
    have hguard : i.guardFor? setter = none :=
      Interaction.guardFor?_eq_none.2 fun g hg hsetter =>
      hupdated ((Body.updated_iff hsites hi).2 (.inr ⟨g, hg, hsetter⟩))
    have hlate : ¬ (setter ∈ i.deferred ∨ setter ∈ i.cleanup) :=
      fun h => h.elim hlater hclean
    rw [if_neg hfree, hguard]
    simp only [if_neg hlate, Option.toList_none]

/-- With patterns that compile, the record of a hook is always there. -/
theorem exists_interaction {ctx : Context}
    (hctx : ctx.options.WellFormed) (h : Hook) (facts : Facts)
    (helpers : HelperMap) (imported : String → Option SetterTaker)
    (origins : Table (List String)) :
    ∃ i, h.interaction ctx facts helpers imported origins = .ok i := by
  unfold Hook.interaction
  split
  · next callback _ =>
    split
    · obtain ⟨es, hes⟩ :=
        Body.exists_events (b := ⟨ctx, callback, facts, helpers, imported⟩) hctx
      exact ⟨_, bind_eq_ok.2 ⟨es, hes, rfl⟩⟩
    · exact ⟨_, rfl⟩
  · exact ⟨_, rfl⟩

/-- What a function written in place does is recorded from its body. -/
theorem interaction_eq {ctx : Context} {h : Hook} {facts : Facts}
    {helpers : HelperMap} {imported : String → Option SetterTaker}
    {origins : Table (List String)} {callback : Node}
    (hcallback : h.callback? = some callback)
    (hfn : callback.isFunction = true) :
    h.interaction ctx facts helpers imported origins =
      Body.interaction ⟨ctx, callback, facts, helpers, imported⟩ origins := by
  unfold Hook.interaction
  rw [hcallback]
  simp only [hfn, if_true]

/-- A body with a record has been scanned. -/
theorem exists_sites {b : Body} {origins : Table (List String)}
    {i : Interaction} (h : b.interaction origins = .ok i) :
    ∃ sites, b.sites = .ok sites := by
  obtain ⟨es, hes, -⟩ := bind_eq_ok.1 h
  obtain ⟨sites, hsites, -⟩ := bind_eq_ok.1 hes
  exact ⟨sites, hsites⟩

theorem hasDependencies_of_mem {h : Hook} {state : String}
    (hstate : state ∈ h.dependencies) :
    h.hasDependencies = true := by
  obtain ⟨n, hn, -⟩ := List.mem_map.1 hstate
  unfold Hook.dependencyNodes at hn
  unfold Hook.hasDependencies
  split at hn
  · next harguments =>
    rw [harguments]
    simp
  · cases hn

end Check

/-! ### Updates that always run -/

/-- A call of the setter in the callback's own code that nothing there can
keep from running: no nested function, no branch and no early return stands
between the two, and it is not part of the clean-up. -/
structure Update.Body.CallsAlways (b : Body) (setter : String) (call : Node)
    (steps : List (Node × Node)) : Prop where
  below : b.callback.Descent steps call
  isCall : call.kind = .call
  callee : ∃ f, call.callee? = some f ∧ f.kind = .identifier ∧ f.text = setter
  noFunction : ∀ s ∈ steps, s.2.isFunction = false
  noBranch : ∀ s ∈ steps, ¬ Guard.IsBranch s.1 s.2
  noReturn : ∀ state, b.facts.stateOf? setter = some state →
    ∀ s ∈ steps, ¬ Guard.ReturnsBefore state s.1 s.2
  outside : b.inCleanup call = false

namespace Update.Body

variable {b : Body} {sites : List Site} {setter : String} {call : Node}
  {steps : List (Node × Node)}

/-- A call that always runs is an update of its setter. -/
theorem CallsAlways.isUpdateSite (c : b.CallsAlways setter call steps)
    (hsetter : b.facts.isSetter setter = true) :
    b.IsUpdateSite setter ⟨call, false⟩ := by
  refine ⟨rfl, c.outside, .direct ?_ hsetter⟩
  obtain ⟨f, hf, hkind, rfl⟩ := c.callee
  show call.calleeKey? = some f.text
  unfold Node.calleeKey?
  simp only [hf, hkind]

/-- And nothing guards it, since nothing on the way to it is a branch or
returns early. -/
theorem CallsAlways.guardAt?_eq_none (c : b.CallsAlways setter call steps)
    (hfn : b.callback.isFunction = true)
    (hspaced : ∀ n ∈ b.callback.walk, n.Spaced) :
    b.guardAt? setter call = none :=
  Guard.inEffect?_eq_none setter _ c.below hfn
    (fun s hs => hspaced s.2 (c.below.parent_mem_walk.2 s hs)) c.noFunction
      c.noBranch c.noReturn

/-- A setter that is always called has an update site without a guard. -/
theorem CallsAlways.unguarded (c : b.CallsAlways setter call steps)
    (hsetter : b.facts.isSetter setter = true)
    (hfn : b.callback.isFunction = true)
    (hsync : b.callback.isAsync = false)
    (hspaced : ∀ n ∈ b.callback.walk, n.Spaced)
    (hsites : b.sites = .ok sites) : b.Unguarded sites setter := by
  have hlisted : ⟨call, false⟩ ∈ sites :=
    mem_scanCalls_of_descent c.below c.noFunction (by rw [c.isCall]; rfl)
      hsync hsites
  exact ⟨_, hlisted, c.isUpdateSite hsetter, c.guardAt?_eq_none hfn hspaced⟩

end Update.Body

namespace Check

open Update

/-- Without a dependency array any setter that is reached makes a loop. -/
theorem exists_confirmed_effectWithoutDeps {i : Interaction} {setter : String}
    (ctx : Context) (h : Hook) (file : String)
    (hreached : setter ∈ reachedSetters i) :
    ∃ x ∈ effectWithoutDeps ctx h file i, x.kind = .confirmed := by
  unfold effectWithoutDeps
  simp only
  split
  · exact ⟨_, List.mem_singleton.2 rfl, Context.kind_report ..⟩
  · split
    · next hnone =>
      rw [hnone] at hreached
      cases hreached
    · exact ⟨_, List.mem_singleton.2 rfl, Context.kind_report ..⟩

/-- An unstable dependency makes a loop of an effect that always updates some
state. -/
theorem kind_unstableFinding {h : Hook} {i : Interaction} {setter : String}
    (ctx : Context) (file : String) (facts : Facts) (v : UnstableVariable)
    (heffect : h.kind.isEffect = true)
    (hmod : setter ∈ i.modifications) :
    (unstableFinding ctx h file facts i v).kind = .confirmed := by
  unfold unstableFinding
  simp only [heffect]
  split
  · exact Context.kind_report ..
  · next hother =>
    cases hlist : i.modifications with
    | nil =>
      rw [hlist] at hmod
      cases hmod
    | cons first rest => exact absurd hlist (hother first rest rfl)

/-- An effect that always updates one of its dependencies, or any state if it
has no dependency array, is a confirmed loop. -/
theorem exists_confirmed_of_modifications {h : Hook} {facts : Facts}
    {i : Interaction} {state setter : String} (ctx : Context) (file : String)
    (heffect : h.kind.isEffect = true)
    (hsetter : facts.setterOf? state = some setter)
    (hlisted : h.hasDependencies = false ∨ state ∈ h.dependencies)
    (hmod : setter ∈ i.modifications) :
    ∃ x ∈ hookFindings ctx file facts h i, x.kind = .confirmed := by
  rcases hlisted with hnone | hstate
  · simp only [hookFindings, heffect, hnone]
    have hreached : setter ∈ reachedSetters i := by simp [reachedSetters, hmod]
    exact exists_confirmed_effectWithoutDeps ctx h file hreached
  · simp only [hookFindings, heffect, hasDependencies_of_mem hstate]
    cases hunstable : unstableReference? ctx h file facts i with
    | some x =>
      obtain ⟨v, -, rfl⟩ := Option.map_eq_some_iff.1 hunstable
      exact ⟨_, List.mem_singleton.2 rfl,
        kind_unstableFinding ctx file facts v heffect hmod⟩
    | none =>
      have hverdict : dependencyVerdict ctx h file i state setter =
          some (loopFinding ctx h file state setter i) := by
        simp [dependencyVerdict, hmod]
      refine ⟨loopFinding ctx h file state setter i, ?_, Context.kind_report ..⟩
      refine List.mem_filterMap.2 ⟨state, List.mem_eraseDups.2 hstate, ?_⟩
      rw [hsetter]
      exact hverdict

/-- No direct loop is missed: an effect whose callback always calls the setter
of a state it depends on, or of any state if it has no dependency array, is a
confirmed loop. -/
theorem hookStage_confirms_direct_loop {ctx : Context} {f : SourceFile}
    {facts : Facts} {h : Hook} {callback call : Node}
    {steps : List (Node × Node)} {state setter : String}
    (hctx : ctx.options.WellFormed)
    (hfacts : Facts.extract ctx f.path f.root = .ok facts)
    (hspaced : f.root.WellSpaced) (hh : h ∈ f.hooks)
    (heffect : h.kind.isEffect = true)
    (hcallback : h.callback? = some callback) (hfn : callback.isFunction = true)
    (hsync : callback.isAsync = false)
    (hsetter : facts.setterOf? state = some setter)
    (hlisted : h.hasDependencies = false ∨ state ∈ h.dependencies)
    (helpers : HelperMap)
    (imported : String → Option SetterTaker) (origins : Table (List String))
    (hcall : (⟨ctx, callback, facts, helpers, imported⟩ : Body).CallsAlways
      setter call steps) :
    ∃ findings, hookStage ctx f.path imported facts helpers origins h =
      .ok findings ∧ ∃ x ∈ findings, x.kind = .confirmed := by
  obtain ⟨i, hi⟩ := exists_interaction hctx h facts helpers imported origins
  have hcode : ∀ n ∈ callback.walk, n.Spaced := fun n hn =>
    hspaced n (Node.mem_walk_trans hn (Node.callback_mem_walk hh hcallback))
  have hbody := (interaction_eq hcallback hfn).symm.trans hi
  obtain ⟨sites, hsites⟩ := exists_sites hbody
  have hmod := (Body.mem_modifications hsites hbody).2
    (hcall.unguarded (Facts.isSetter_of_setterOf? hfacts hsetter) hfn hsync
      hcode hsites)
  exact ⟨_, bind_eq_ok.2 ⟨i, hi, rfl⟩,
    exists_confirmed_of_modifications ctx f.path heffect hsetter hlisted hmod⟩

theorem wellFormed_usual : Context.usual.options.WellFormed := by
  have hoverrides : Context.usual.options.overrides.length = 0 := by
    decide +kernel
  intro entry hentry
  rw [List.length_eq_zero_iff.1 hoverrides] at hentry
  cases hentry

/-- A counter whose only effect sets what it depends on. -/
def counter : SourceFile := Sketch.file "Counter.tsx"
  [.function "Counter" [] [.useState "v" "setV",
    .run (.call "useEffect"
      [.arrow [.run (.call "setV" [.binary (.name "v") "+" (.number "1")])],
      .array ["v"]])]]

namespace counter

def hook : Hook := ⟨.effect, counter.root.at [0, 2, 1, 0]⟩

def callback : Node := hook.call.at [1, 0]

def update : Node := callback.at [1, 0, 0]

/-- The facts about the counter, as far as its effect needs them. -/
theorem exists_facts :
    ∃ facts, Facts.extract .usual counter.path counter.root = .ok facts ∧
    facts.setterOf? "v" = some "setV" ∧
      unstableDependency? hook facts = none := by
  have hextract : (Facts.extract .usual counter.path counter.root).toOption.map
    (fun facts =>
      (facts.setterOf? "v", (unstableDependency? hook facts).isNone)) =
        some (some "setV", true) := by
    decide +kernel
  cases hfacts : Facts.extract .usual counter.path counter.root with
  | error e =>
    rw [hfacts] at hextract
    cases hextract
  | ok facts =>
    rw [hfacts] at hextract
    obtain ⟨hsetter, hstable⟩ := Prod.mk.inj (Option.some.inj hextract)
    exact ⟨facts, rfl, hsetter, Option.isNone_iff_eq_none.1 hstable⟩

/-- The update of the counter is the only statement of its callback. -/
theorem callsAlways (facts : Facts) :
    (⟨.usual, callback, facts, {}, fun _ => none⟩ : Body).CallsAlways
      "setV" update [(update, callback.at [1, 0]),
      (callback.at [1, 0], callback.at [1])] where
  below := .next (.next (.first (List.mem_of_getElem? (i := 1) rfl))
    (List.mem_of_getElem? (i := 0) rfl)) (List.mem_of_getElem? (i := 0) rfl)
  isCall := rfl
  callee := ⟨update.at [0], rfl, rfl, rfl⟩
  noFunction := by decide
  noBranch := by
    simp only [List.forall_mem_cons, List.not_mem_nil, false_imp_iff,
      implies_true, and_true]
    exact ⟨id, id⟩
  noReturn := by
    intro state _
    simp only [List.forall_mem_cons, List.not_mem_nil, false_imp_iff,
      implies_true, and_true]
    constructor
    · rintro ⟨hblock, -⟩
      cases hblock
    · -- the only statement of the block is the update itself
      rintro ⟨-, s, hs, hbefore, -⟩
      obtain rfl : s = callback.at [1, 0] := List.mem_singleton.1 hs
      exact Nat.lt_irrefl _ hbefore
  outside := rfl

theorem wellSpaced : counter.root.WellSpaced :=
  Sketch.wellSpaced_program (by decide +kernel)

theorem hook_mem : hook ∈ counter.hooks := List.mem_of_getElem? (i := 0) rfl

end counter

/-- The counter is reported. -/
theorem hookStage_counter_confirmed : ∃ facts findings,
    Facts.extract .usual counter.path counter.root = .ok facts ∧
      hookStage .usual counter.path (fun _ => none) facts {} [] counter.hook =
        .ok findings ∧
      ∃ x ∈ findings, x.kind = .confirmed := by
  obtain ⟨facts, hfacts, hsetter, -⟩ := counter.exists_facts
  obtain ⟨findings, hstage, hconfirmed⟩ := hookStage_confirms_direct_loop
    wellFormed_usual hfacts counter.wellSpaced
    counter.hook_mem rfl rfl rfl rfl hsetter (.inr (by decide +kernel)) {}
      (fun _ => none) []
    (counter.callsAlways facts)
  exact ⟨facts, findings, hfacts, hstage, hconfirmed⟩

/-- For a dependency of an effect that is a state, with none of the
dependencies unstable, the findings on it are the verdict of the worst site of
its setter. -/
theorem hookStage_worst_site (ctx : Context) (file : String) {h : Hook}
    {facts : Facts} {callback : Node} {state setter : String}
    (heffect : h.kind.isEffect = true)
    (hcallback : h.callback? = some callback) (hfn : callback.isFunction = true)
    (hstable : unstableDependency? h facts = none)
    (hstate : state ∈ h.dependencies)
    (hsetter : facts.setterOf? state = some setter) (helpers : HelperMap)
    (imported : String → Option SetterTaker) (origins : Table (List String)) :
    (ctx.options.WellFormed →
      ∃ i, h.interaction ctx facts helpers imported origins = .ok i) ∧
    ∀ i, h.interaction ctx facts helpers imported origins = .ok i →
      let b : Body := ⟨ctx, callback, facts, helpers, imported⟩
      let findings := effectLoops ctx h file facts i
      hookStage ctx file imported facts helpers origins h = .ok findings ∧
      ∃ sites, b.sites = .ok sites ∧ b.IsWorstVerdict sites setter i
        ((findings.filter (·.dependency == state)).map (·.kind)) := by
  refine ⟨fun hctx => exists_interaction hctx h facts helpers imported origins,
    fun i hi => ?_⟩
  have hstage : hookFindings ctx file facts h i =
      effectLoops ctx h file facts i := by
    simp [hookFindings, heffect, hasDependencies_of_mem hstate,
      unstableReference?, hstable]
  have hbody := (interaction_eq hcallback hfn).symm.trans hi
  obtain ⟨sites, hsites⟩ := exists_sites hbody
  refine ⟨bind_eq_ok.2 ⟨i, hi, congrArg Except.ok hstage⟩, sites, hsites, ?_⟩
  rw [filter_effectLoops ctx file i hstate hsetter, kinds_dependencyVerdict]
  exact isWorstVerdict_recordedKind? hsites hbody setter

/-- Its one update is without a guard, so the verdict is confirmed. -/
theorem hookStage_counter_worst_site : ∃ facts i,
    Facts.extract .usual counter.path counter.root = .ok facts ∧
      counter.hook.interaction .usual facts {} (fun _ => none) [] = .ok i ∧
      hookStage .usual counter.path (fun _ => none) facts {} [] counter.hook =
        .ok (effectLoops .usual counter.hook counter.path facts i) ∧
      ((effectLoops .usual counter.hook counter.path facts i).filter
        (·.dependency == "v")).map (·.kind) = [.confirmed] := by
  obtain ⟨facts, hfacts, hsetter, hstable⟩ := counter.exists_facts
  obtain ⟨hexists, hverdict⟩ :=
    hookStage_worst_site .usual counter.path rfl rfl rfl hstable
      (by decide +kernel) hsetter {} (fun _ => none) []
  obtain ⟨i, hi⟩ := hexists wellFormed_usual
  obtain ⟨hstage, sites, hsites, hworst⟩ := hverdict i hi
  have hspaced : ∀ n ∈ counter.callback.walk, n.Spaced := fun n hn =>
    counter.wellSpaced n
      (Node.mem_walk_trans hn (Node.callback_mem_walk counter.hook_mem rfl))
  have hfree := (counter.callsAlways facts).unguarded
    (Facts.isSetter_of_setterOf? hfacts hsetter)
    rfl rfl hspaced hsites
  exact ⟨facts, i, hfacts, hi, hstage, hworst.confirmed hfree⟩

/-- The effect lists the state, and a call of its callback, whatever that is,
runs with it, has no guard and calls the setter or a local function that
reaches it; yet there is no verdict. -/
def passesOver (f : SourceFile) (h : Hook) (state setter : String) :
    Except Fault Bool := do
  let facts ← Facts.extract .usual f.path f.root
  let helpers ← HelperMap.build .usual facts.setters f.root
  let i ← h.interaction .usual facts helpers (fun _ => none) f.root.origins
  match h.callback? with
  | none => return false
  | some callback =>
    let b : Body := ⟨.usual, callback, facts, helpers, fun _ => none⟩
    let updates (name : String) : Bool :=
      name == setter || helpers.isHelper name &&
        (helpers.settersNow name).contains setter
    let listed := facts.setterOf? state == some setter &&
      h.dependencies.contains state
    let unguarded := (← b.sites).any fun s =>
      !s.deferred && !b.inCleanup s.call && s.call.calleeKey?.any updates &&
        (b.guardAt? setter s.call).isNone
    return h.kind.isEffect && (unstableDependency? h facts).isNone && listed &&
      unguarded && (effectLoops .usual h f.path facts i).isEmpty

/-- The callback of the effect is what a call returns. -/
def wrappedCounter : SourceFile := Sketch.file "Wrapped.tsx"
  [.function "Counter" [] [.useState "v" "setV",
    .run (.call "useEffect" [.call "wrap"
      [.arrow [.run (.call "setV" [.binary (.name "v") "+" (.number "1")])]],
        .array ["v"]])]]

/-- The effect calls a local function under the name of another component's
setter. -/
def sharedName : SourceFile := Sketch.file "Shared.tsx"
  [.function "Loader" [] [.useState "v" "setV",
    .const (.name "load")
      (.arrow [.run (.call "setV" [.binary (.name "v") "+" (.number "1")])]),
    .run (.call "useEffect" [.arrow [.run (.call "load" [])], .array ["v"]])],
  .function "Other" [] [.useState "w" "load"]]

/-- Not every call that reaches a setter is an update site: a callback that is
not a function written in place has none, and a local function is passed over
if its name is also that of a setter. -/
theorem effectLoops_passes_over_calls :
    (passesOver wrappedCounter ⟨.effect, wrappedCounter.root.at [0, 2, 1, 0]⟩
        "v" "setV").toOption = some true ∧
      (passesOver sharedName ⟨.effect, sharedName.root.at [0, 2, 2, 0]⟩ "v"
        "setV").toOption = some true := by
  decide +kernel

end Check

end RenderLoop
