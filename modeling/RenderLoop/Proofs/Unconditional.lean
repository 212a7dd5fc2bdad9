import RenderLoop.Proofs.Confidence
import RenderLoop.Proofs.EffectGuards

/-!
# Updates that count as unconditional

A setter is listed as modified if some call reaches it without a guard. Guards
are looked for in terms of the state of the setter, so for a setter without
one there are none, however many conditionals stand around the call.

> `guardAt?_eq_none_iff`: an update has no guard iff its setter has no state,
> or nothing in the callback keeps the call from running.

> `interaction_lists_unconditional`: a setter with a state is listed as
> modified iff some call always updates it. One without a state is listed as
> soon as any call updates it.

For a setter with a state the search for a guard looks at every conditional
around the call and at every early return before it, and finds something iff
there is one. What it finds may be a poor guard; but it is a guard, and the
update is then listed under it and not as a modification.

Two files show how a state can be missing (`interaction_lists_conditional`):
the state of the setter is not given a name, or its name is taken over by
another component of the file.
-/

namespace RenderLoop

open Update (Body Site)

/-- No state is on record for a setter under a name that conditions could be
searched for. -/
def Facts.Stateless (facts : Facts) (setter : String) : Prop :=
  ∀ state, facts.stateOf? setter = some state → state = ""

namespace Update.Body

/-- Nothing in the callback keeps a call that updates a setter from running:
no conditional stands around it, and no block returns before it on a test of
the state. -/
structure RunsAlways (b : Body) (setter : String) (call : Node) : Prop where
  noConditional : ∀ s ∈ call.stepsBelow (some b.callback.key),
    ¬ Guard.Conditional s.1 s.2
  noReturn : ∀ state, b.facts.stateOf? setter = some state →
    ¬ ∃ s ∈ call.stepsBelow (some b.callback.key),
      Guard.ReturnsEarlier state s.1 s.2

variable {b : Body} {setter : String} {call : Node}

/-- Without a state there is nothing to compare with, so there is no guard. -/
theorem guardAt?_of_stateless (h : b.facts.Stateless setter) :
    b.guardAt? setter call = none := by
  unfold guardAt? Guard.inEffect?
  cases hstate : b.facts.stateOf? setter with
  | none => rfl
  | some state =>
    rw [h state hstate]
    rfl

/-- An update has no guard iff there is no state, or nothing keeps it from
running. -/
theorem guardAt?_eq_none_iff :
    b.guardAt? setter call = none ↔ b.facts.Stateless setter ∨
      b.RunsAlways setter call := by
  by_cases hstateless : b.facts.Stateless setter
  · exact iff_of_true (guardAt?_of_stateless hstateless) (.inl hstateless)
  · rw [or_iff_right hstateless]
    simp only [Facts.Stateless, not_forall] at hstateless
    obtain ⟨state, hstate, hname⟩ := hstateless
    unfold guardAt?
    rw [hstate, Guard.inEffect?_eq_none_iff hname,
      Guard.enclosingConditions_eq_nil, Guard.returnsEarly_iff]
    constructor
    · rintro ⟨hfree, hreturn⟩
      refine ⟨hfree, fun other hother => ?_⟩
      obtain rfl : state = other := Option.some.inj (hstate.symm.trans hother)
      exact hreturn
    · rintro ⟨hfree, hreturn⟩
      exact ⟨hfree, hreturn state hstate⟩

end Update.Body

/-- The setters that a hook is said to modify on every run. If there is a
state on record for a setter, some call of the callback that runs with it,
outside the clean-up, reaches the setter and is kept from running by nothing.
Otherwise any call that runs with the callback outside the clean-up and
reaches it will do. -/
theorem Hook.interaction_lists_unconditional (ctx : Context) (h : Hook)
    (facts : Facts) (helpers : HelperMap)
    (imported : String → Option SetterTaker) (origins : Table (List String))
    {i : Interaction}
    (hi : h.interaction ctx facts helpers imported origins = .ok i)
    (setter : String) :
    setter ∈ i.modifications ↔ ∃ callback sites, h.callback? = some callback ∧
      callback.isFunction = true ∧
      let b : Body := ⟨ctx, callback, facts, helpers, imported⟩
      b.sites = .ok sites ∧ ∃ s ∈ sites, b.IsUpdateSite setter s ∧
        (facts.Stateless setter ∨ b.RunsAlways setter s.call) := by
  constructor
  · intro hmod
    unfold Hook.interaction at hi
    split at hi
    · next callback hcallback =>
      split at hi
      · next hfn =>
        obtain ⟨sites, hsites⟩ := Check.exists_sites hi
        obtain ⟨s, hs, hsite, hnone⟩ :=
          (Body.mem_modifications hsites hi).1 hmod
        exact ⟨callback, sites, hcallback, hfn, hsites, s, hs, hsite,
          Body.guardAt?_eq_none_iff.1 hnone⟩
      · cases hi
        cases hmod
    · cases hi
      cases hmod
  · rintro ⟨callback, sites, hcallback, hfn, hsites, s, hs, hsite, hfree⟩
    rw [Check.interaction_eq hcallback hfn] at hi
    exact (Body.mem_modifications hsites hi).2 ⟨s, hs, hsite,
      Body.guardAt?_eq_none_iff.2 hfree⟩

namespace Check

/-- The counter has a state on record, so its effect is said to set it because
it always does. -/
theorem interaction_counter : ∃ facts helpers i sites s,
    Facts.extract .usual counter.path counter.root = .ok facts ∧
      (hesitant.hook counter).interaction .usual facts helpers (fun _ => none)
        counter.root.origins = .ok i ∧
      "setV" ∈ i.modifications ∧ (hesitant.body counter facts helpers).sites =
        .ok sites ∧ s ∈ sites ∧
      (hesitant.body counter facts helpers).IsUpdateSite "setV" s ∧
      (hesitant.body counter facts helpers).RunsAlways "setV" s.call := by
  obtain ⟨facts, helpers, i, _, _, hfacts, -, hi, -, -, h⟩ :=
    hesitant.exists_of_survey (f := counter)
      (p := fun x => x.2.2.1.modifications == ["setV"] &&
        x.1.stateOf? "setV" == some "v")
      (by decide +kernel)
  simp only [Bool.and_eq_true, beq_iff_eq] at h
  have hmod : "setV" ∈ i.modifications := by
    rw [h.1]
    exact List.mem_singleton.2 rfl
  obtain ⟨callback, sites', hcallback, -, hsites', s, hs, hsite, hfree⟩ :=
    (Hook.interaction_lists_unconditional .usual (hesitant.hook counter) facts
      helpers (fun _ => none) counter.root.origins hi "setV").1 hmod
  cases hcallback
  refine ⟨facts, helpers, i, sites', s, hfacts, hi, hmod, hsites', hs, hsite,
    hfree.resolve_left ?_⟩
  exact fun hstateless => absurd (hstateless "v" h.2) (by decide)

/-- A setter is listed as modified, although a conditional stands around every
call that updates it. -/
def ListsConditional (f : SourceFile) (setter : String) : Prop :=
  ∃ facts helpers i sites, Facts.extract .usual f.path f.root = .ok facts ∧
    HelperMap.build .usual facts.setters f.root = .ok helpers ∧
    (hesitant.hook f).interaction .usual facts helpers (fun _ => none)
      f.root.origins = .ok i ∧
    setter ∈ i.modifications ∧
    let b := hesitant.body f facts helpers
    b.sites = .ok sites ∧ ∀ s ∈ sites, b.IsUpdateSite setter s →
      ∃ step ∈ s.call.stepsBelow (some b.callback.key),
        Guard.Conditional step.1 step.2

/-- What has to be evaluated to see that a conditional update is listed. -/
theorem listsConditional_of_survey {f : SourceFile}
    (h : (hesitant.survey f).toOption.any (fun x =>
    x.2.2.1.modifications == ["setV"] &&
      hesitant.isConditional (hesitant.body f x.1 x.2.1) x.2.2.2.1 "setV") =
        true) :
    ListsConditional f "setV" := by
  obtain ⟨facts, helpers, i, sites, _, hfacts, hhelpers, hi, hsites, -, h⟩ :=
    hesitant.exists_of_survey h
  simp only [Bool.and_eq_true, beq_iff_eq] at h
  have hmod : "setV" ∈ i.modifications := by
    rw [h.1]
    exact List.mem_singleton.2 rfl
  refine ⟨facts, helpers, i, sites, hfacts, hhelpers, hi, hmod, hsites,
    fun s hs _ => ?_⟩
  have hall := List.all_eq_true.1 (Bool.and_eq_true_iff.1 h.2).2 s hs
  by_contra hnone
  rw [(Guard.enclosingConditions_eq_nil _ _).2 fun step hstep hcond =>
    hnone ⟨step, hstep, hcond⟩] at hall
  cases hall

/-- A component that declares a state in some way and sets it in a conditional
only. -/
def choosing (path : String) (declaration : Sketch) (others : List Sketch) :
    SourceFile :=
  Sketch.file path (.function "Panel" [] [declaration, .run (.call "useEffect"
    [.arrow [.ifThen (.name "open") [.run (.call "setV" [.number "1"])]],
      .array ["open"]])] :: others)

/-- Only the setter of the state is given a name. -/
def setterAlone : SourceFile :=
  choosing "Alone.tsx" (.const (.phrase .arrayPattern true none
  [.between "[", .phrase .comma false none [.between ","], .name "setV",
    .between "]"])
  (.call "useState" [.number "0"])) []

/-- Another component of the file has a state of the same name. -/
def stateTwice : SourceFile := choosing "Twice.tsx" (.useState "v" "setV")
  [.function "Other" [] [.useState "v" "setW"]]

/-- A setter without a state on record is said to be called on every run,
although all its calls stand in conditionals: it may have been declared
without one, or lost it to another setter. -/
theorem interaction_lists_conditional :
    ListsConditional setterAlone "setV" ∧ ListsConditional stateTwice "setV" :=
  ⟨listsConditional_of_survey (by decide +kernel),
    listsConditional_of_survey (by decide +kernel)⟩

end Check

end RenderLoop
