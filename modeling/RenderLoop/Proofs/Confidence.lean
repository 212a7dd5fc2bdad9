import RenderLoop.Proofs.Cleanup

/-!
# When a finding is less than certain

A finding that names a setter ought to be of medium confidence at most if the
effect may not update the state after all: every call that updates it stands
in a conditional, or hands it to a chain of functions that is too long to be
sure of. Four checks build such findings, each with its own reasons:

> `hookStage_caps_confidence`: of the findings about such a setter, exactly
> those of `Uncapped` are of high confidence.

What decides on a chain is the imported call recorded first for the setter. It
is that of an update, unless a call in the clean-up comes before it
(`Update.Body.AlwaysDeep.exists_importedCallFor?`).

The exceptions are of three kinds. An effect without dependency array is
reported for certain unless it goes through a helper; an unstable dependency
is reported for certain if its instability is known and not inferred, or in
strict mode; and the verdict on a stable dependency is certain if every update
has a safe guard, if a short way through the clean-up is recorded before the
long ones, or if the state has no name for a guard to compare with. Each kind
is one constructor, so that `hookStage_caps_confidence` can say that there are
no others.
-/

namespace RenderLoop

open Update (Body Event Site)

/-- A level is capped when it is not the highest. -/
theorem Level.le_medium_iff {l : Level} : l ≤ .medium ↔ l ≠ .high := by
  cases l <;> decide

/-- Reporting caps a high confidence iff there is a doubt. -/
theorem Context.confidence_report_le_iff (ctx : Context) {f : Finding}
    (hf : f.confidence = .high) (doubts : List Doubt) :
    (ctx.report f doubts).confidence ≤ .medium ↔ doubts ≠ [] := by
  cases doubts with
  | nil =>
    rw [Level.le_medium_iff]
    exact iff_of_false (not_not_intro hf) (not_not_intro rfl)
  | cons d doubts =>
    refine iff_of_true ?_ (List.cons_ne_nil _ _)
    exact Finding.confidence_capConfidence _ (List.cons_ne_nil _ _)

/-- Reporting raises no confidence. -/
theorem Context.confidence_report_le (ctx : Context) {f : Finding}
    (hf : f.confidence ≤ .medium) (doubts : List Doubt) :
    (ctx.report f doubts).confidence ≤ .medium := by
  cases doubts with
  | nil => exact hf
  | cons d doubts =>
    exact Finding.confidence_capConfidence _ (List.cons_ne_nil _ _)

theorem Finding.setter_capConfidence (f : Finding) (reasons : List String) :
    (f.capConfidence reasons).setter = f.setter := by
  unfold capConfidence
  split
  · rfl
  · rfl

theorem Context.setter_report (ctx : Context) (f : Finding)
    (doubts : List Doubt) :
    (ctx.report f doubts).setter = f.setter :=
  Finding.setter_capConfidence _ _

/-! ### Imported calls -/

namespace Update.Body

/-- A call hands a setter to an imported function, which calls it through a
number of functions. -/
inductive Hands (b : Body) (call : Node) (setter : String) (depth : Nat) :
    Prop where
  | intro (name : String) (taker : SetterTaker) (position : Nat) (arg : Node)
      (hkey : call.calleeKey? = some name)
      (hother : b.facts.isSetter name = false)
      (hhelper : b.helpers.isHelper name = false)
      (htaker : b.imported name = some taker)
      (harg : call.arguments[position]? = some arg)
      (hkind : arg.bare.kind = .identifier)
      (htext : arg.bare.text = setter)
      (hsetter : b.facts.isSetter setter = true)
      (hdepth : taker.depthAt? position = some depth)

variable {b : Body} {s : Site} {sites : List Site} {setter : String}
  {origins : Table (List String)} {i : Interaction}

/-- A setter that is handed over is reached. -/
theorem Hands.reaches {call : Node} {depth : Nat}
    (h : b.Hands call setter depth) :
    b.Reaches call setter := by
  obtain ⟨name, taker, position, arg, hkey, hother, hhelper, htaker, harg,
    hkind, htext, hsetter, hdepth⟩ := h
  exact .handed name taker position depth arg hkey hother hhelper htaker harg
    hkind htext hsetter hdepth

theorem imported_ne_update {call : Node} {reached : String} {inCleanup : Bool}
    {c : ImportedCall} :
    .imported c ≠ b.update call reached inCleanup :=
  ne_update rfl

/-- The imported calls among the events of a call are the setters it hands to
a taker. -/
theorem imported_mem_importedCall {call : Node} {name : String}
    {inCleanup : Bool} {c : ImportedCall} :
    .imported c ∈ b.importedCall call name inCleanup ↔
      ∃ taker position depth arg, b.imported name = some taker ∧
        call.arguments[position]? = some arg ∧ arg.bare.kind = .identifier ∧
        b.facts.isSetter arg.bare.text = true ∧ taker.depthAt? position =
          some depth ∧
        c = ⟨arg.bare.text, taker.name, taker.file, depth, call.line⟩ := by
  unfold importedCall
  constructor
  · intro h
    split at h
    · cases h
    · next taker htaker =>
      obtain ⟨⟨arg, position⟩, hmem, h⟩ := List.mem_flatMap.1 h
      have harg := List.mem_zipIdx_iff_getElem?.1 hmem
      unfold handedEvents at h
      simp only at h
      split at h
      · next hsetter =>
        obtain ⟨hkind, hsetter⟩ := Bool.and_eq_true_iff.1 hsetter
        split at h
        · next depth hdepth =>
          rcases List.mem_cons.1 h with h | h
          · cases h
            exact ⟨taker, position, depth, arg, htaker,
              harg, by simpa using hkind, hsetter, hdepth, rfl⟩
          · -- the update that goes with it is another event
            exact absurd (List.mem_singleton.1 h) imported_ne_update
        · cases h
      · cases h
  · rintro ⟨taker, position, depth, arg, htaker, harg, hkind, hsetter,
      hdepth, rfl⟩
    rw [htaker]
    refine List.mem_flatMap.2 ⟨(arg, position),
      List.mem_zipIdx_iff_getElem?.2 harg, ?_⟩
    simp [handedEvents, hkind, hsetter, hdepth]

theorem imported_not_mem_setterCall {name : String} {inCleanup : Bool}
    {c : ImportedCall} :
    .imported c ∉ b.setterCall s name inCleanup := by
  intro h
  rcases cases_of_mem_setterCall h with h | h | h
  · cases h
  · cases h
  · exact imported_ne_update h

theorem imported_not_mem_helperCall {name : String} {inCleanup : Bool}
    {c : ImportedCall} :
    .imported c ∉ b.helperCall s name inCleanup := by
  intro h
  rcases List.mem_append.1 h with h | h
  · obtain ⟨reached, -, h⟩ := List.mem_flatMap.1 h
    split at h
    · simp at h
    · simp only [List.mem_cons, reduceCtorEq, List.not_mem_nil, or_false,
        false_or] at h
      exact imported_ne_update h
  · simp at h

/-- The imported calls on record are those of the calls that run with the body
and hand a setter over. -/
theorem imported_mem_calleeEvents {inCleanup : Bool} {c : ImportedCall} :
    .imported c ∈ b.calleeEvents s inCleanup ↔ s.deferred = false ∧
      ∃ name taker position depth arg, s.call.calleeKey? = some name ∧
        b.facts.isSetter name = false ∧ b.helpers.isHelper name = false ∧
        b.imported name = some taker ∧ s.call.arguments[position]? = some arg ∧
        arg.bare.kind = .identifier ∧ b.facts.isSetter arg.bare.text = true ∧
        taker.depthAt? position = some depth ∧
        c = ⟨arg.bare.text, taker.name, taker.file, depth, s.call.line⟩ := by
  unfold calleeEvents
  constructor
  · intro h
    split at h
    · cases h
    · next name hkey =>
      split at h
      · exact absurd h imported_not_mem_setterCall
      · next hother =>
        split at h
        · exact absurd h imported_not_mem_helperCall
        · next hhelper =>
          split at h
          · cases h
          · next hnow =>
            obtain ⟨taker, position, depth, arg, hhands⟩ :=
              imported_mem_importedCall.1 h
            exact ⟨by simpa using hnow, name, taker, position, depth, arg,
              hkey, by simpa using hother, by simpa using hhelper, hhands⟩
  · rintro ⟨hnow, name, taker, position, depth, arg, hkey, hother,
      hhelper, hhands⟩
    rw [hkey]
    simp only [hother, hhelper, hnow, Bool.false_eq_true, if_false]
    exact imported_mem_importedCall.2 ⟨taker, position, depth, arg, hhands⟩

/-- A call recorded as an imported one hands a setter over at once. -/
theorem hands_of_mem_calleeEvents {inCleanup : Bool} {c : ImportedCall}
    (h : .imported c ∈ b.calleeEvents s inCleanup) :
    s.deferred = false ∧ b.Hands s.call c.setter c.depth := by
  obtain ⟨hnow, name, taker, position, depth, arg, hkey, hother, hhelper,
    htaker, harg, hkind, hsetter, hdepth, rfl⟩ := imported_mem_calleeEvents.1 h
  exact ⟨hnow, name, taker, position, arg, hkey, hother, hhelper, htaker, harg,
    hkind, rfl, hsetter, hdepth⟩

/-- And each setter handed over at once is recorded, with the depth at which
it is called. -/
theorem exists_imported_of_hands {inCleanup : Bool} {depth : Nat}
    (hnow : s.deferred = false) (h : b.Hands s.call setter depth) :
    ∃ c, c.setter = setter ∧ c.depth = depth ∧
      .imported c ∈ b.calleeEvents s inCleanup := by
  obtain ⟨name, taker, position, arg, hkey, hother, hhelper, htaker, harg,
    hkind, rfl, hsetter, hdepth⟩ := h
  exact ⟨_, rfl, rfl, imported_mem_calleeEvents.2 ⟨hnow, name, taker, position,
    depth, arg, hkey, hother, hhelper, htaker, harg, hkind, hsetter,
    hdepth, rfl⟩⟩

/-- The record lists the imported calls of the body and its clean-up. -/
theorem exists_importedCalls_iff (hsites : b.sites = .ok sites)
    (hi : b.interaction origins = .ok i) {depth : Nat} :
    (∃ c ∈ i.importedCalls, c.setter = setter ∧ c.depth = depth) ↔
      ∃ s ∈ sites, s.deferred = false ∧ b.Hands s.call setter depth := by
  obtain ⟨es, hes, h⟩ := bind_eq_ok.1 hi
  cases h
  have hlisted : ∀ c, c ∈ (b.record origins es).importedCalls ↔
      Event.imported c ∈ es := by
    intro c
    unfold record
    simp only
    rw [List.mem_eraseDups, List.mem_filterMap]
    constructor
    · rintro ⟨e, he, hcall⟩
      cases e <;> cases hcall
      exact he
    · intro he
      exact ⟨_, he, rfl⟩
  constructor
  · rintro ⟨c, hc, rfl, rfl⟩
    obtain ⟨s, hs, refs, hrefs, hmem | hmem⟩ :=
      (mem_events hsites hes).1 ((hlisted c).1 hc)
    · rcases cases_of_mem_references hrefs hmem with ⟨r, hr⟩ | ⟨later, hlater⟩
      · cases hr
      · cases hlater
    · exact ⟨s, hs, hands_of_mem_calleeEvents hmem⟩
  · rintro ⟨s, hs, hnow, hhands⟩
    obtain ⟨c, hsetter, hdepth, hmem⟩ := exists_imported_of_hands hnow hhands
    obtain ⟨refs, hrefs⟩ := exists_references hsites hes hs
    exact ⟨c, (hlisted c).2
      ((mem_events hsites hes).2 ⟨s, hs, refs, hrefs, .inr hmem⟩),
      hsetter, hdepth⟩

/-! ### Updates that are less than certain -/

variable (b sites setter)

/-- Every update of a setter stands in a conditional. -/
def AlwaysConditional : Prop :=
  ∀ s ∈ sites, b.IsUpdateSite setter s →
    Guard.enclosingConditions s.call (some b.callback.key) ≠ []

/-- Every update of a setter hands it to functions, all of them far from
calling it. -/
def AlwaysDeep : Prop :=
  ∀ s ∈ sites, b.IsUpdateSite setter s →
    (∃ depth, b.Hands s.call setter depth) ∧
    ∀ depth, b.Hands s.call setter depth → Check.maxCertainDepth < depth

/-- The body updates a setter while it runs, but not for certain. -/
structure UpdatesDoubtfully : Prop where
  updated : b.Updated sites setter
  doubt : b.AlwaysConditional sites setter ∨ b.AlwaysDeep sites setter

variable {b sites setter}

/-- In a conditional an update has a guard, if there is a state to compare
with. -/
theorem guardAt?_ne_none {call : Node} {state : String}
    (hstate : b.facts.stateOf? setter = some state)
    (hname : state ≠ "")
    (h : Guard.enclosingConditions call (some b.callback.key) ≠ []) :
    b.guardAt? setter call ≠ none := by
  intro hnone
  unfold guardAt? Guard.inEffect? at hnone
  rw [hstate] at hnone
  simp only [beq_eq_false_iff_ne.2 hname, Bool.false_eq_true, if_false] at hnone
  split at hnone
  · cases hnone
  · split at hnone
    · cases hnone
    · split at hnone
      · next hempty => exact h (List.isEmpty_iff.1 hempty)
      · cases hnone

/-- When all updates stand in conditionals, none goes without a guard. -/
theorem AlwaysConditional.not_unguarded {state : String}
    (h : b.AlwaysConditional sites setter)
    (hstate : b.facts.stateOf? setter = some state) (hname : state ≠ "") :
    ¬ b.Unguarded sites setter := by
  rintro ⟨s, hs, hsite, hnone⟩
  exact guardAt?_ne_none hstate hname (h s hs hsite) hnone

/-- The imported call recorded first is as deep as the updates, or stands in
the clean-up. -/
theorem AlwaysDeep.exists_importedCallFor? (h : b.AlwaysDeep sites setter)
    (hupdated : b.Updated sites setter) (hsites : b.sites = .ok sites)
    (hi : b.interaction origins = .ok i) :
      ∃ c, i.importedCallFor? setter = some c ∧
      (Check.maxCertainDepth < c.depth ∨ ∃ s ∈ sites, s.deferred = false ∧
        b.inCleanup s.call = true ∧ b.Hands s.call setter c.depth) := by
  obtain ⟨s, hs, hsite⟩ := hupdated
  obtain ⟨⟨depth, hhands⟩, -⟩ := h s hs hsite
  obtain ⟨c, hc, hsetter, -⟩ :=
    (exists_importedCalls_iff hsites hi).2 ⟨s, hs, hsite.now, hhands⟩
  cases hfirst : i.importedCallFor? setter with
  | none =>
    have hnot := List.find?_eq_none.1 hfirst c hc
    exact absurd (by simpa using hsetter) hnot
  | some first =>
    refine ⟨first, rfl, ?_⟩
    have hmem := List.mem_of_find?_eq_some hfirst
    have hname : first.setter = setter := by simpa using List.find?_some hfirst
    obtain ⟨t, ht, hnow, hgives⟩ :=
      (exists_importedCalls_iff hsites hi).1 ⟨first, hmem, hname, rfl⟩
    cases hin : b.inCleanup t.call with
    | true => exact .inr ⟨t, ht, hnow, hin, hgives⟩
    | false => exact .inl ((h t ht ⟨hnow, hin, hgives.reaches⟩).2 _ hgives)

end Update.Body

/-- The setter of a state belongs to a state. -/
theorem Facts.exists_stateOf? {facts : Facts} {state setter : String}
    (h : facts.setterOf? state = some setter) :
    ∃ other, facts.stateOf? setter = some other := by
  have hmem : (state, setter) ∈ facts.states.reverse :=
    List.mem_reverse.2 (Table.mem_of_get? h)
  cases hfind : facts.states.reverse.find? (·.2 == setter) with
  | none =>
    exact absurd (beq_self_eq_true setter) (List.find?_eq_none.1 hfind _ hmem)
  | some e => exact ⟨e.1, congrArg (Option.map Prod.fst) hfind⟩

namespace Check

variable {ctx : Context} {file : String} {h : Hook} {facts : Facts}
  {i : Interaction} {x : Finding} {state setter : String}

/-! ### The confidence of each check -/

/-- Without a dependency array only a helper on the way lowers the
confidence. -/
theorem confidence_effectWithoutDeps (hx : x ∈ effectWithoutDeps ctx h file i)
    (hsetter : x.setter = some setter) :
    x.confidence ≤ .medium ↔ i.helperFor? setter ≠ none := by
  unfold effectWithoutDeps at hx
  simp only at hx
  split at hx
  · next found hfound =>
    obtain rfl := List.mem_singleton.1 hx
    rw [Context.setter_report] at hsetter
    obtain rfl : found = setter := Option.some.inj hsetter
    have hdirect : i.helperFor? found = none := by
      simpa using List.find?_some hfound
    rw [Context.confidence_report_le_iff ctx rfl]
    exact iff_of_false (not_not_intro rfl) (not_not_intro hdirect)
  · next hnone =>
    split at hx
    · cases hx
    · next first rest hreached =>
      obtain rfl := List.mem_singleton.1 hx
      rw [Context.setter_report] at hsetter
      obtain rfl : first = setter := Option.some.inj hsetter
      refine iff_of_true
        (Context.confidence_report_le ctx
        (show Level.medium ≤ .medium by decide) []) ?_
      have hfirst := List.find?_eq_none.1 hnone
        first (by rw [hreached]; exact List.mem_cons_self)
      simpa using hfirst

/-- On an unstable dependency only a guess about its stability does. -/
theorem confidence_unstableFinding {v : UnstableVariable}
    (hsetter : (unstableFinding ctx h file facts i v).setter = some setter) :
    h.kind.isEffect = true ∧
      ((unstableFinding ctx h file facts i v).confidence ≤ .medium ↔
        ¬ (v.inferred = false ∨ ctx.strict = true)) := by
  cases heffect : h.kind.isEffect with
  | false =>
    simp only [unstableFinding, heffect, Context.setter_report] at hsetter
    cases hsetter
  | true =>
    refine ⟨rfl, ?_⟩
    cases hmod : i.modifications with
    | nil =>
      simp only [unstableFinding, heffect, hmod,
        Context.setter_report] at hsetter
      cases hsetter
    | cons first rest =>
      simp only [unstableFinding, heffect, hmod]
      rw [Context.confidence_report_le_iff ctx rfl]
      cases v.inferred <;> cases ctx.strict <;> simp

/-- On an update of a dependency the depth of the recorded chain does. -/
theorem confidence_loopFinding :
    (loopFinding ctx h file state setter i).confidence ≤ .medium ↔
    ∃ c, i.importedCallFor? setter = some c ∧ maxCertainDepth < c.depth := by
  unfold loopFinding
  simp only
  rw [Context.confidence_report_le_iff ctx rfl]
  unfold routeTo
  cases hcall : i.importedCallFor? setter with
  | some c => simp [Route.doubts]
  | none => cases i.helperFor? setter <;> simp [Route.doubts]

/-- An unsafe guard caps the confidence. -/
theorem confidence_unsafeFinding (guard : Guard) :
    (unsafeFinding ctx h file state setter i guard).confidence ≤ .medium :=
  Finding.confidence_capConfidence _ (List.cons_ne_nil _ _)

theorem setter_unsafeFinding (guard : Guard) :
    (unsafeFinding ctx h file state setter i guard).setter = some setter := by
  unfold unsafeFinding
  simp only [Context.setter_report]
  split
  · rfl
  · rfl

/-- A safe guard does not: the finding says for certain that there is no
loop. -/
theorem confidence_safeFinding (why : String) :
    ¬ (safeFinding ctx h file state setter i why).confidence ≤ .medium := by
  unfold safeFinding
  simp only
  rw [Context.confidence_report_le_iff ctx rfl]
  exact not_not_intro rfl

/-- A verdict is about the setter it was asked about. -/
theorem setter_dependencyVerdict
    (hx : dependencyVerdict ctx h file i state setter = some x) :
    x.setter = some setter := by
  rcases cases_of_dependencyVerdict hx with ⟨-, rfl⟩ | ⟨-, guard, rfl⟩ |
    ⟨-, why, rfl⟩
  · exact Context.setter_report ..
  · exact setter_unsafeFinding guard
  · exact Context.setter_report ..

/-- A finding on a memo hook names a setter only with medium confidence. -/
theorem confidence_memoHook (hx : x ∈ memoHook ctx h file facts i)
    (hsetter : x.setter = some setter) :
    x.confidence ≤ .medium := by
  rcases cases_of_mem_memoHook hx with rfl | ⟨state, other, -, rfl⟩
  · rw [missingMemoDeps, Context.setter_report] at hsetter
    cases hsetter
  · exact Context.confidence_report_le ctx
      (show Level.medium ≤ .medium by decide) []

/-! ### Certain findings on doubtful updates -/

/-- The doubtful updates of a dependency on which the verdict is of high
confidence. -/
inductive UncappedVerdict (b : Body) (sites : List Site) (i : Interaction)
    (setter : String) : Prop where
  /-- Each update has a guard, and none has an unsafe one. -/
  | safe (hguarded : ¬ b.Unguarded sites setter)
      (hsafe : ¬ b.UnsafelyGuarded sites setter)
  /-- The clean-up hands the setter to a function as well, and that is a short
  way. -/
  | cleanup (hfree : b.Unguarded sites setter) (s : Site) (hs : s ∈ sites)
      (hnow : s.deferred = false) (hcleanup : b.inCleanup s.call = true)
      (c : ImportedCall)
      (hfirst : i.importedCallFor? setter = some c)
      (hhands : b.Hands s.call setter c.depth)
      (hshort : c.depth ≤ maxCertainDepth)
  /-- The state has no name, so that no condition counts as a guard. -/
  | nameless (hfree : b.Unguarded sites setter)
      (hstate : b.facts.stateOf? setter = some "")
      (hshort : ∀ c, i.importedCallFor? setter = some c →
        c.depth ≤ maxCertainDepth)

/-- The effects on which a finding is of high confidence however doubtful the
update is. -/
inductive Uncapped (b : Body) (h : Hook) (sites : List Site) (i : Interaction)
    (setter : String) :
    Prop where
  /-- It has no dependency array and gets to the setter without a helper. -/
  | withoutArray (heffect : h.kind.isEffect = true)
      (harray : h.hasDependencies = false)
      (hdirect : i.helperFor? setter = none)
  /-- It lists a dependency that is known to be unstable. -/
  | unstable (heffect : h.kind.isEffect = true)
      (harray : h.hasDependencies = true) (v : UnstableVariable)
      (hv : unstableDependency? h b.facts = some v)
      (hknown : v.inferred = false ∨ b.ctx.strict = true)
  /-- Its dependencies are stable, and the verdict on one is of high
  confidence. -/
  | dependency (heffect : h.kind.isEffect = true)
      (harray : h.hasDependencies = true)
      (hstable : unstableDependency? h b.facts = none)
      (hverdict : UncappedVerdict b sites i setter)

section Body

variable {b : Body} {sites : List Site} {origins : Table (List String)}

theorem Uncapped.isEffect (hun : Uncapped b h sites i setter) :
    h.kind.isEffect = true := by
  cases hun with
  | withoutArray heffect => exact heffect
  | unstable heffect => exact heffect
  | dependency heffect => exact heffect

/-- Without a dependency array only the helper on the way counts. -/
theorem uncapped_iff_of_withoutArray (heffect : h.kind.isEffect = true)
    (harray : h.hasDependencies = false) :
    Uncapped b h sites i setter ↔ i.helperFor? setter = none := by
  refine ⟨fun hun => ?_, .withoutArray heffect harray⟩
  cases hun with
  | withoutArray _ _ hdirect => exact hdirect
  | unstable _ hlist | dependency _ hlist =>
    rw [harray] at hlist
    cases hlist

/-- With an unstable dependency it counts how its instability is known. -/
theorem uncapped_iff_of_unstable (heffect : h.kind.isEffect = true)
    (harray : h.hasDependencies = true) {v : UnstableVariable}
    (hv : unstableDependency? h b.facts = some v) :
    Uncapped b h sites i setter ↔ v.inferred = false ∨ b.ctx.strict = true := by
  refine ⟨fun hun => ?_, .unstable heffect harray v hv⟩
  cases hun with
  | withoutArray _ hnone =>
    rw [harray] at hnone
    cases hnone
  | unstable _ _ w hw hknown =>
    obtain rfl : v = w := Option.some.inj (hv.symm.trans hw)
    exact hknown
  | dependency _ _ hstable =>
    rw [hv] at hstable
    cases hstable

/-- With stable dependencies the verdict decides. -/
theorem uncapped_iff_of_stable (heffect : h.kind.isEffect = true)
    (harray : h.hasDependencies = true)
    (hstable : unstableDependency? h b.facts = none) :
    Uncapped b h sites i setter ↔ UncappedVerdict b sites i setter := by
  refine ⟨fun hun => ?_, .dependency heffect harray hstable⟩
  cases hun with
  | withoutArray _ hnone =>
    rw [harray] at hnone
    cases hnone
  | unstable _ _ v hv =>
    rw [hstable] at hv
    cases hv
  | dependency _ _ _ hverdict => exact hverdict

/-- An update is found safe iff each of its sites has a safe guard. -/
theorem recordedKind?_eq_safe_iff (hsites : b.sites = .ok sites)
    (hi : b.interaction origins = .ok i) (hupdated : b.Updated sites setter) :
      recordedKind? i setter = some .safe ↔ ¬ b.Unguarded sites setter ∧
      ¬ b.UnsafelyGuarded sites setter := by
  have hworst := isWorstVerdict_recordedKind? hsites hi setter
  constructor
  · intro hkind
    rw [hkind] at hworst
    have hguarded : ¬ b.Unguarded sites setter := fun hfree => by
      cases hworst.confirmed hfree
    refine ⟨hguarded, fun hunsafe => ?_⟩
    cases hworst.potential hguarded hunsafe
  · rintro ⟨hguarded, hsafe⟩
    simpa using hworst.safe hguarded hsafe (.inl hupdated)

/-- An update without a guard is uncapped iff the recorded chain is no long
one. -/
theorem uncappedVerdict_iff_of_unguarded (hsites : b.sites = .ok sites)
    (hi : b.interaction origins = .ok i)
    (hdoubt : b.UpdatesDoubtfully sites setter)
    (hsetter : b.facts.setterOf? state = some setter)
    (hfree : b.Unguarded sites setter) :
    UncappedVerdict b sites i setter ↔
      ¬ ∃ c, i.importedCallFor? setter = some c ∧
        maxCertainDepth < c.depth := by
  constructor
  · rintro hun ⟨c, hc, hlong⟩
    cases hun with
    | safe hguarded => exact hguarded hfree
    | cleanup _ s _ _ _ first hfirst _ hshort =>
      obtain rfl : c = first := Option.some.inj (hc.symm.trans hfirst)
      omega
    | nameless _ _ hshort =>
      have := hshort c hc
      omega
  · intro hnone
    have hshort : ∀ c, i.importedCallFor? setter = some c →
        c.depth ≤ maxCertainDepth :=
      fun c hc => Nat.le_of_not_lt fun hlong => hnone ⟨c, hc, hlong⟩
    rcases hdoubt.doubt with hcond | hdeep
    · -- an update in a conditional has no guard only for want of a name to look
      -- for
      obtain ⟨other, hstate⟩ := Facts.exists_stateOf? hsetter
      have hname : other = "" := Classical.not_not.1 fun hname =>
        hcond.not_unguarded hstate hname hfree
      rw [hname] at hstate
      exact .nameless hfree hstate hshort
    · obtain ⟨c, hc, hlong | ⟨s, hs, hnow, hcleanup, hhands⟩⟩ :=
        hdeep.exists_importedCallFor? hdoubt.updated hsites hi
      · exact absurd ⟨c, hc, hlong⟩ hnone
      · exact .cleanup hfree s hs hnow hcleanup c hc hhands (hshort c hc)

/-- The verdict on a doubtful update is capped, but for the three cases of
`UncappedVerdict`. -/
theorem confidence_dependencyVerdict (hsites : b.sites = .ok sites)
    (hi : b.interaction origins = .ok i)
    (hdoubt : b.UpdatesDoubtfully sites setter)
    (hsetter : b.facts.setterOf? state = some setter)
    (hx : dependencyVerdict ctx h file i state setter = some x) :
    x.confidence ≤ .medium ↔ ¬ UncappedVerdict b sites i setter := by
  have hmodified : setter ∈ i.modifications ↔ b.Unguarded sites setter :=
    Body.mem_modifications hsites hi
  have hsafe := recordedKind?_eq_safe_iff hsites hi hdoubt.updated
  rcases cases_of_dependencyVerdict hx with ⟨hmod, rfl⟩ | ⟨hkind, guard, rfl⟩ |
    ⟨hkind, why, rfl⟩
  · rw [confidence_loopFinding,
      uncappedVerdict_iff_of_unguarded hsites hi hdoubt hsetter
        (hmodified.1 hmod), Classical.not_not]
  · refine iff_of_true (confidence_unsafeFinding guard) fun hun => ?_
    have hguarded : ¬ b.Unguarded sites setter := fun hfree => by
      rw [recordedKind?, if_pos (hmodified.2 hfree)] at hkind
      cases hkind
    cases hun with
    | safe _ hnone =>
      rw [hsafe.2 ⟨hguarded, hnone⟩] at hkind
      cases hkind
    | cleanup hfree | nameless hfree => exact hguarded hfree
  · obtain ⟨hguarded, hnone⟩ := hsafe.1 hkind
    exact iff_of_false (confidence_safeFinding why)
      (not_not_intro (.safe hguarded hnone))

end Body

/-- Of the findings about a setter whose updates all stand in conditionals or
all go through long chains, those are of medium confidence at most that are
not on an effect of `Uncapped`. -/
theorem hookStage_caps_confidence (ctx : Context) (file : String) {h : Hook}
    {facts : Facts} {callback : Node} (hcallback : h.callback? = some callback)
    (hfn : callback.isFunction = true)
    (helpers : HelperMap) (imported : String → Option SetterTaker)
    (origins : Table (List String))
    {i : Interaction}
    (hi : h.interaction ctx facts helpers imported origins = .ok i) :
    let b : Body := ⟨ctx, callback, facts, helpers, imported⟩
    ∃ sites findings, b.sites = .ok sites ∧
      hookStage ctx file imported facts helpers origins h = .ok findings ∧
      ∀ setter, b.UpdatesDoubtfully sites setter →
        ∀ x ∈ findings, x.setter = some setter →
        (x.confidence ≤ .medium ↔ ¬ Uncapped b h sites i setter) := by
  intro b
  have hbody : b.interaction origins = .ok i :=
    (interaction_eq hcallback hfn).symm.trans hi
  obtain ⟨sites, hsites⟩ := exists_sites hbody
  refine ⟨sites, _, hsites, bind_eq_ok.2 ⟨i, hi, rfl⟩, ?_⟩
  intro setter hdoubt x hx hsetter
  cases foundOnHook hx with
  | withoutArray heffect harray hx =>
    rw [confidence_effectWithoutDeps hx hsetter,
      uncapped_iff_of_withoutArray heffect harray]
  | unstable harray v hv hx =>
    rw [hx] at hsetter ⊢
    obtain ⟨heffect, hcapped⟩ := confidence_unstableFinding hsetter
    rw [hcapped]
    exact not_congr (uncapped_iff_of_unstable (b := b) heffect harray hv).symm
  | dependency heffect harray hstable state other hother hx =>
    obtain rfl : other = setter :=
      Option.some.inj ((setter_dependencyVerdict hx).symm.trans hsetter)
    rw [uncapped_iff_of_stable heffect harray hstable]
    exact confidence_dependencyVerdict hsites hbody hdoubt hother hx
  | memo hmemo hx =>
    refine iff_of_true (confidence_memoHook hx hsetter) fun hun => ?_
    rw [hun.isEffect] at hmemo
    cases hmemo

/-- A component whose only effect sets the state in a conditional. -/
def hesitant (path : String) (array : List Sketch) : SourceFile :=
  Sketch.file path [.function "Panel" [] [.useState "v" "setV",
    .run (.call "useEffect" (.arrow [.ifThen (.name "open")
      [.run (.call "setV" [.binary (.name "v") "+" (.number "1")])]] ::
        array))]]

/-- The effect lists the state. -/
def hesitantListed : SourceFile := hesitant "Listed.tsx" [.array ["v"]]

/-- The effect has no dependency array. -/
def hesitantBare : SourceFile := hesitant "Bare.tsx" []

namespace hesitant

/-- The effect of such a component. -/
def hook (f : SourceFile) : Hook := ⟨.effect, f.root.at [0, 2, 1, 0]⟩

def body (f : SourceFile) (facts : Facts) (helpers : HelperMap) : Body :=
  ⟨.usual, (hook f).call.at [1, 0], facts, helpers, fun _ => none⟩

/-- What is found out about the effect: the facts, the helpers, the record,
the calls and the findings. -/
def survey (f : SourceFile) :
    Except Fault (Facts × HelperMap × Interaction × List Site × List Finding) :=
  do
  let facts ← Facts.extract .usual f.path f.root
  let helpers ← HelperMap.build .usual facts.setters f.root
  let i ← (hook f).interaction .usual facts helpers (fun _ => none)
    f.root.origins
  let sites ← (body f facts helpers).sites
  return (facts, helpers, i, sites,
    ← hookStage .usual f.path (fun _ => none) facts helpers
      f.root.origins (hook f))

/-- What holds of a survey holds of what was surveyed. -/
theorem exists_of_survey {f : SourceFile}
    {p : Facts × HelperMap × Interaction × List Site × List Finding → Bool}
    (h : (survey f).toOption.any p = true) :
    ∃ facts helpers i sites findings,
      Facts.extract .usual f.path f.root = .ok facts ∧
      HelperMap.build .usual facts.setters f.root = .ok helpers ∧
      (hook f).interaction .usual facts helpers (fun _ => none) f.root.origins =
        .ok i ∧
      (body f facts helpers).sites = .ok sites ∧
      hookStage .usual f.path (fun _ => none) facts helpers f.root.origins
        (hook f) = .ok findings ∧
      p (facts, helpers, i, sites, findings) = true := by
  obtain ⟨x, hsurvey, h⟩ := exists_of_any_toOption h
  obtain ⟨facts, hfacts, hsurvey⟩ := bind_eq_ok.1 hsurvey
  obtain ⟨helpers, hhelpers, hsurvey⟩ := bind_eq_ok.1 hsurvey
  obtain ⟨i, hi, hsurvey⟩ := bind_eq_ok.1 hsurvey
  obtain ⟨sites, hsites, hsurvey⟩ := bind_eq_ok.1 hsurvey
  obtain ⟨findings, hstage, hsurvey⟩ := bind_eq_ok.1 hsurvey
  cases hsurvey
  exact ⟨facts, helpers, i, sites, findings, hfacts, hhelpers, hi,
    hsites, hstage, h⟩

/-- Some call of the setter runs with the body, and all calls stand in
conditionals. -/
def isConditional (b : Body) (sites : List Site) (setter : String) : Bool :=
  b.facts.isSetter setter &&
    (sites.any fun s => !s.deferred && !b.inCleanup s.call &&
      s.call.calleeKey? == some setter) &&
    sites.all fun s =>
      !(Guard.enclosingConditions s.call (some b.callback.key)).isEmpty

theorem updatesDoubtfully {b : Body} {sites : List Site}
    (h : isConditional b sites setter = true) :
    b.UpdatesDoubtfully sites setter := by
  unfold isConditional at h
  simp only [Bool.and_eq_true, List.any_eq_true, List.all_eq_true,
    Bool.not_eq_true', beq_iff_eq] at h
  obtain ⟨⟨hsetter, s, hs, ⟨hnow, hout⟩, hkey⟩, hall⟩ := h
  refine ⟨⟨s, hs, hnow, hout, .direct hkey hsetter⟩,
    .inl fun t ht _ hempty => ?_⟩
  have := hall t ht
  rw [hempty] at this
  cases this

/-- In a survey where the state is set in conditionals only, and never later,
the effect has one finding. -/
theorem exists_survey (f : SourceFile) (confidence : Level)
    (h : (survey f).toOption.any (fun x =>
    isConditional (body f x.1 x.2.1) x.2.2.2.1 "setV" &&
      x.2.2.1.deferred == [] &&
        x.2.2.2.2.map (fun y => (y.setter, y.confidence)) ==
          [(some "setV", confidence)]) = true) :
    ∃ facts helpers i sites x, Facts.extract .usual f.path f.root = .ok facts ∧
      HelperMap.build .usual facts.setters f.root = .ok helpers ∧
      (hook f).interaction .usual facts helpers (fun _ => none) f.root.origins =
        .ok i ∧
      (body f facts helpers).sites = .ok sites ∧
      (body f facts helpers).UpdatesDoubtfully sites "setV" ∧ i.deferred = [] ∧
      hookStage .usual f.path (fun _ => none) facts helpers f.root.origins
        (hook f) = .ok [x] ∧
      x.setter = some "setV" ∧ x.confidence = confidence := by
  obtain ⟨facts, helpers, i, sites, findings, hfacts, hhelpers, hi,
      hsites, hstage, h⟩ :=
    exists_of_survey h
  simp only [Bool.and_eq_true, beq_iff_eq] at h
  obtain ⟨⟨hdoubt, hdeferred⟩, hfindings⟩ := h
  obtain ⟨y, rfl, hy⟩ := List.map_eq_singleton_iff.1 hfindings
  obtain ⟨hsetter, hconfidence⟩ := Prod.mk.inj hy
  exact ⟨facts, helpers, i, sites, y, hfacts, hhelpers, hi, hsites,
    updatesDoubtfully hdoubt, hdeferred, hstage, hsetter, hconfidence⟩

end hesitant

/-- With a dependency array the finding is of medium confidence. -/
theorem hookStage_hesitantListed : ∃ facts helpers i sites x,
    Facts.extract .usual hesitantListed.path hesitantListed.root = .ok facts ∧
      (hesitant.hook hesitantListed).interaction .usual facts helpers
        (fun _ => none) hesitantListed.root.origins = .ok i ∧
      (hesitant.body hesitantListed facts helpers).sites = .ok sites ∧
      (hesitant.body hesitantListed facts helpers).UpdatesDoubtfully
        sites "setV" ∧
      hookStage .usual hesitantListed.path (fun _ => none) facts helpers
        hesitantListed.root.origins (hesitant.hook hesitantListed) = .ok [x] ∧
      x.setter = some "setV" ∧ x.confidence ≤ .medium ∧
      ¬ Uncapped (hesitant.body hesitantListed facts helpers)
        (hesitant.hook hesitantListed) sites i "setV" := by
  obtain ⟨facts, helpers, i, sites, x, hfacts, -, hi, hsites, hdoubt, -, hstage,
      hsetter, hmedium⟩ :=
    hesitant.exists_survey hesitantListed .medium (by decide +kernel)
  obtain ⟨sites', findings, hsites', hstage', hcapped⟩ :=
    hookStage_caps_confidence .usual hesitantListed.path rfl rfl helpers
      (fun _ => none) _ hi
  obtain rfl : sites = sites' := Except.ok.inj (hsites.symm.trans hsites')
  obtain rfl : [x] = findings := Except.ok.inj (hstage.symm.trans hstage')
  have hle : x.confidence ≤ .medium := by
    rw [hmedium]
    decide
  exact ⟨facts, helpers, i, sites, x, hfacts, hi, hsites, hdoubt, hstage,
    hsetter, hle, (hcapped "setV" hdoubt x (List.mem_singleton.2 rfl) hsetter).1
    hle⟩

/-- Without a dependency array the finding on the same update is of high
confidence. -/
theorem hookStage_hesitantBare : ∃ facts helpers i sites x,
    Facts.extract .usual hesitantBare.path hesitantBare.root = .ok facts ∧
      HelperMap.build .usual facts.setters hesitantBare.root = .ok helpers ∧
      (hesitant.hook hesitantBare).interaction .usual facts helpers
        (fun _ => none) hesitantBare.root.origins = .ok i ∧
      (hesitant.body hesitantBare facts helpers).sites = .ok sites ∧
      (hesitant.body hesitantBare facts helpers).UpdatesDoubtfully
        sites "setV" ∧
      "setV" ∉ i.deferred ∧
      hookStage .usual hesitantBare.path (fun _ => none) facts helpers
        hesitantBare.root.origins (hesitant.hook hesitantBare) = .ok [x] ∧
      x.setter = some "setV" ∧ ¬ x.confidence ≤ .medium := by
  obtain ⟨facts, helpers, i, sites, x, hfacts, hhelpers, hi, hsites, hdoubt,
    hdeferred, hstage, hsetter, hhigh⟩ :=
    hesitant.exists_survey hesitantBare .high (by decide +kernel)
  refine ⟨facts, helpers, i, sites, x, hfacts, hhelpers, hi, hsites, hdoubt, ?_,
    hstage, hsetter, ?_⟩
  · rw [hdeferred]
    exact List.not_mem_nil
  · rw [hhigh]
    decide

end Check

end RenderLoop
