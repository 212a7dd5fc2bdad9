import RenderLoop.Proofs.Unconditional
import RenderLoop.Proofs.Cleanup
import RenderLoop.Proofs.Anchors

/-!
# Memo hooks that update what they depend on

A memo hook may not set a state that it depends on to a new value. Setting it
by a function of the old value is let pass. The record of the callback keeps
no calls but names of setters, so whether a setter is called with a value or
with a function is no longer told apart call by call:

> `mem_functional`: a setter counts as updated by a function if any call of it
> that runs with the callback is given one, wherever it stands.

> `hookStage_reports_memo_updates`: a memo hook is reported for a state iff
> some call updates the state under no guard that is safe, and no call at all
> is given a function.

The events of a callback record an update by a function beside the update
itself, and only for calls of the setter under its own name: a helper or an
imported function that calls it with a function does not count
(`functional_mem_calleeEvents`). So the two conditions of the verdict are
about different sets of calls, and a setter that is called both ways is passed
over (`hookStage_passes_over_plain`).
-/

namespace RenderLoop

open Update (Body Event Site)

namespace Update

/-- The new value is a function of the old one, written in place. -/
def GivesUpdater (call : Node) : Prop :=
  ∃ a, call.firstArgument? = some a ∧ a.kind.isFunctionLiteral = true

theorem givesUpdater_iff {call : Node} :
    (call.firstArgument?.any fun a => a.kind.isFunctionLiteral) = true ↔
      GivesUpdater call :=
  Option.any_eq_true _ _

namespace Body

variable {b : Body} {s : Site} {sites : List Site} {setter : String}
  {inCleanup : Bool} {origins : Table (List String)} {i : Interaction}

/-- A call of a setter under its own name that runs with the body. -/
structure CallsSetter (b : Body) (setter : String) (s : Site) : Prop where
  now : s.deferred = false
  key : s.call.calleeKey? = some setter
  isSetter : b.facts.isSetter setter = true

/-- Some call gives a setter a function, in the clean-up or outside, guarded
or not. -/
def UpdatesByFunction (b : Body) (sites : List Site) (setter : String) : Prop :=
  ∃ s ∈ sites, b.CallsSetter setter s ∧ GivesUpdater s.call

/-- A call of a setter outside the clean-up that nothing keeps from running
and that gives it no function. -/
structure IsPlainUpdate (b : Body) (setter : String) (s : Site) : Prop where
  calls : b.CallsSetter setter s
  outside : b.inCleanup s.call = false
  always : b.RunsAlways setter s.call
  plain : ¬ GivesUpdater s.call

/-- A plain update is an update without a guard. -/
theorem IsPlainUpdate.unguarded (h : b.IsPlainUpdate setter s)
    (hs : s ∈ sites) :
    b.Unguarded sites setter :=
  ⟨s, hs, ⟨h.calls.now, h.outside, .direct h.calls.key h.calls.isSetter⟩,
    guardAt?_eq_none_iff.2 (.inr h.always)⟩

/-! ### The functions on record -/

theorem functional_ne_update {call : Node} {reached : String} :
    .functional setter ≠ b.update call reached inCleanup :=
  ne_update rfl

/-- Only a call of the setter that runs at once can count as an update by a
function. -/
theorem functional_mem_setterCall {name : String} :
    .functional setter ∈ b.setterCall s name inCleanup ↔
      s.deferred = false ∧ name = setter ∧ GivesUpdater s.call := by
  unfold setterCall
  rw [← givesUpdater_iff]
  cases s.deferred with
  | true => simp
  | false =>
    simp only [Bool.false_eq_true, if_false, List.mem_append,
      List.mem_singleton, functional_ne_update, or_false, true_and]
    cases s.call.firstArgument?.any fun a => a.kind.isFunctionLiteral with
    | true => simp [eq_comm]
    | false => simp

/-- What a helper does is not looked into for that. -/
theorem functional_not_mem_helperCall {name : String} :
    .functional setter ∉ b.helperCall s name inCleanup := by
  unfold helperCall
  rw [List.mem_append, not_or]
  refine ⟨fun h => ?_, by simp⟩
  obtain ⟨reached, -, h⟩ := List.mem_flatMap.1 h
  split at h
  · simp at h
  · simp [functional_ne_update] at h

theorem functional_not_mem_importedCall {call : Node} {name : String} :
    .functional setter ∉ b.importedCall call name inCleanup := by
  intro h
  rcases cases_of_mem_importedCall h with ⟨c, h⟩ | ⟨reached, h⟩
  · cases h
  · exact functional_ne_update h

/-- So of all calls only those of the setter under its own name count. -/
theorem functional_mem_calleeEvents :
    .functional setter ∈ b.calleeEvents s inCleanup ↔ b.CallsSetter setter s ∧
      GivesUpdater s.call := by
  unfold calleeEvents
  constructor
  · intro h
    split at h
    · cases h
    · next name hkey =>
      split at h
      · next hsetter =>
        obtain ⟨hnow, rfl, hgives⟩ := functional_mem_setterCall.1 h
        exact ⟨⟨hnow, hkey, hsetter⟩, hgives⟩
      · split at h
        · exact absurd h functional_not_mem_helperCall
        · split at h
          · cases h
          · exact absurd h functional_not_mem_importedCall
  · rintro ⟨⟨hnow, hkey, hsetter⟩, hgives⟩
    rw [hkey]
    simp only [hsetter, if_true]
    exact functional_mem_setterCall.2 ⟨hnow, rfl, hgives⟩

/-- The setters on record as updated by a function. -/
theorem mem_functional (hsites : b.sites = .ok sites)
    (hi : b.interaction origins = .ok i) :
    setter ∈ i.functional ↔ b.UpdatesByFunction sites setter := by
  obtain ⟨es, hes, h⟩ := bind_eq_ok.1 hi
  cases h
  have hlisted : setter ∈ (b.record origins es).functional ↔
      Event.functional setter ∈ es := by
    unfold record
    rw [mem_sortedUnique, List.mem_filterMap]
    constructor
    · rintro ⟨e, he, hname⟩
      cases e <;> cases hname
      exact he
    · intro he
      exact ⟨_, he, rfl⟩
  rw [hlisted, mem_events hsites hes]
  -- names that are handed over leave no such event, only calls do
  constructor
  · rintro ⟨s, hs, refs, hrefs, hmem | hmem⟩
    · rcases cases_of_mem_references hrefs hmem with ⟨r, hr⟩ | ⟨later, hlater⟩
      · cases hr
      · cases hlater
    · exact ⟨s, hs, functional_mem_calleeEvents.1 hmem⟩
  · rintro ⟨s, hs, hcalls⟩
    obtain ⟨refs, hrefs⟩ := exists_references hsites hes hs
    exact ⟨s, hs, refs, hrefs, .inr (functional_mem_calleeEvents.2 hcalls)⟩

/-- A setter is updated conditionally if it has an unsafe guard. -/
theorem mem_conditional (hi : b.interaction origins = .ok i) :
    setter ∈ i.conditional ↔ ∃ g ∈ i.guarded, g.setter = setter ∧
      g.isSafe = false := by
  obtain ⟨es, -, h⟩ := bind_eq_ok.1 hi
  cases h
  unfold record
  simp only [mem_sortedUnique, List.mem_map, List.mem_filter, Bool.not_eq_true']
  constructor
  · rintro ⟨g, ⟨hg, hunsafe⟩, rfl⟩
    exact ⟨g, hg, rfl, hunsafe⟩
  · rintro ⟨g, hg, rfl, hunsafe⟩
    exact ⟨g, ⟨hg, hunsafe⟩, rfl⟩

/-- What a memo hook may be reported for are its updates without a safe
guard. -/
theorem mem_memoUpdates (hsites : b.sites = .ok sites)
    (hi : b.interaction origins = .ok i) :
    setter ∈ Check.memoUpdates i ↔ b.Unguarded sites setter ∨
      b.UnsafelyGuarded sites setter := by
  unfold Check.memoUpdates
  rw [mem_sortedUnique, List.mem_append, mem_conditional hi,
    unsafelyGuarded_iff hsites hi]
  exact or_congr_left (mem_modifications hsites hi)

end Body

end Update

namespace Check

variable {ctx : Context} {file : String} {h : Hook} {facts : Facts}
  {i : Interaction} {state setter : String}

/-- A finding that says that a memo hook updates a state it depends on. -/
structure IsMemoUpdate (h : Hook) (file state setter : String) (x : Finding) :
    Prop where
  code : x.code = .memoSelfUpdate
  kind : x.kind = .potential
  place : StandsAt file h.call x
  dependency : x.dependency = state
  state : x.state = some state
  setter : x.setter = some setter

/-- The finding says what it should. -/
theorem isMemoUpdate_memoUpdateFinding :
    IsMemoUpdate h file state setter
      (memoUpdateFinding ctx h file i state setter) :=
  ⟨rfl, rfl, ⟨rfl, rfl, rfl⟩, rfl, rfl, rfl⟩

/-- The findings on a memo hook that name a state it depends on. -/
theorem filter_memoHook (hstate : state ∈ h.dependencies)
    (hsetter : facts.setterOf? state = some setter) :
    (memoHook ctx h file facts i).filter (·.dependency == state) =
      if setter ∈ memoUpdates i ∧ setter ∉ i.functional then
        [memoUpdateFinding ctx h file i state setter]
      else [] := by
  unfold memoHook
  rw [hasDependencies_of_mem hstate]
  simp only [Bool.not_true, Bool.false_eq_true, if_false]
  rw [filter_filterMap_of_nodup _ (nodup_eraseDups _)
    (List.mem_eraseDups.2 hstate)]
  · by_cases hboth : setter ∈ memoUpdates i ∧ setter ∉ i.functional
    · simp [hsetter, hboth]
    · rw [if_neg hboth]
      simp only [hsetter, Bool.and_eq_true,
        Bool.not_eq_true', ← Bool.not_eq_true, List.contains_iff_mem]
      rw [if_neg hboth]
      rfl
  · intro name x hx
    split at hx
    · split at hx
      · cases hx
        rfl
      · cases hx
    · cases hx

/-- What is reported about a state that a memo hook depends on, given the
calls of its callback. -/
structure IsMemoVerdict (b : Body) (sites : List Site) (h : Hook)
    (file state setter : String) (findings : List Finding) : Prop where
  reported : b.Unguarded sites setter ∨ b.UnsafelyGuarded sites setter →
    ¬ b.UpdatesByFunction sites setter →
      ∃ x, findings.filter (·.dependency == state) = [x] ∧
        IsMemoUpdate h file state setter x
  silent : ¬ (b.Unguarded sites setter ∨ b.UnsafelyGuarded sites setter) ∨
    b.UpdatesByFunction sites setter →
      findings.filter (·.dependency == state) = []

/-- What is reported about a memo hook is decided by the calls of its
callback. -/
theorem isMemoVerdict_memoHook {b : Body} {sites : List Site}
    {origins : Table (List String)} (hsites : b.sites = .ok sites)
    (hi : b.interaction origins = .ok i) (hstate : state ∈ h.dependencies)
    (hsetter : facts.setterOf? state = some setter) :
    IsMemoVerdict b sites h file state setter
      (memoHook ctx h file facts i) := by
  have hupdates : setter ∈ memoUpdates i ↔ _ := Body.mem_memoUpdates hsites hi
  have hfunctional : setter ∈ i.functional ↔ _ := Body.mem_functional hsites hi
  constructor
  · intro hupdated hno
    rw [filter_memoHook hstate hsetter,
      if_pos ⟨hupdates.2 hupdated, fun hin => hno (hfunctional.1 hin)⟩]
    exact ⟨_, rfl, isMemoUpdate_memoUpdateFinding⟩
  · intro hsilent
    rw [filter_memoHook hstate hsetter, if_neg]
    rintro ⟨hin, hout⟩
    rcases hsilent with hno | hfunction
    · exact hno (hupdates.1 hin)
    · exact hout (hfunctional.2 hfunction)

/-- A memo hook with a callback written in place, none of whose dependencies
is unstable, is reported for a state that it depends on iff some call updates
the state under no safe guard and no call of the setter that runs with the
callback is given a function. So a plain update that always runs is reported
iff no other call is given a function. -/
theorem hookStage_reports_memo_updates (ctx : Context) (file : String)
    {h : Hook} {facts : Facts} {callback : Node} {state setter : String}
    (hmemo : h.kind.isEffect = false)
    (hcallback : h.callback? = some callback) (hfn : callback.isFunction = true)
    (hstable : unstableDependency? h facts = none)
    (hstate : state ∈ h.dependencies)
    (hsetter : facts.setterOf? state = some setter) (helpers : HelperMap)
    (imported : String → Option SetterTaker) (origins : Table (List String)) :
    (ctx.options.WellFormed →
      ∃ findings, hookStage ctx file imported facts helpers origins h =
        .ok findings) ∧
    ∀ findings, hookStage ctx file imported facts helpers origins h =
      .ok findings →
      let b : Body := ⟨ctx, callback, facts, helpers, imported⟩
      ∃ sites, b.sites = .ok sites ∧
        IsMemoVerdict b sites h file state setter findings ∧
        ∀ s ∈ sites, b.IsPlainUpdate setter s →
          ((∃ x ∈ findings, IsMemoUpdate h file state setter x) ↔
            ¬ b.UpdatesByFunction sites setter) := by
  have hstage : ∀ i, hookFindings ctx file facts h i = memoHook ctx h file facts
      i := fun i => by
    simp [hookFindings, hmemo, hasDependencies_of_mem hstate,
      unstableReference?, hstable]
  refine ⟨fun hctx => ?_, fun findings hfindings => ?_⟩
  · obtain ⟨i, hi⟩ := exists_interaction hctx h facts helpers imported origins
    exact ⟨_, bind_eq_ok.2 ⟨i, hi, rfl⟩⟩
  · obtain ⟨i, hi, hfindings⟩ := bind_eq_ok.1 hfindings
    cases hfindings
    rw [hstage]
    have hbody := (interaction_eq hcallback hfn).symm.trans hi
    obtain ⟨sites, hsites⟩ := exists_sites hbody
    have hverdict : IsMemoVerdict _ sites h file state setter
        (memoHook ctx h file facts i) :=
      isMemoVerdict_memoHook hsites hbody hstate hsetter
    refine ⟨sites, hsites, hverdict, fun s hs hplain => ⟨?_, fun hno => ?_⟩⟩
    · rintro ⟨x, hx, habout⟩ hfunction
      have hnone := List.filter_eq_nil_iff.1
        (hverdict.silent (.inr hfunction)) x hx
      exact hnone (by simpa using habout.dependency)
    · obtain ⟨x, hx, habout⟩ :=
        hverdict.reported (.inl (hplain.unguarded hs)) hno
      have hmem : x ∈ (memoHook ctx h file facts i).filter
          (·.dependency == state) := by
        rw [hx]
        exact List.mem_singleton.2 rfl
      exact ⟨x, (List.mem_filter.1 hmem).1, habout⟩

/-! ### A value and a function -/

/-- A component with a memo hook that depends on its only state. -/
def tally (path : String) (statements : List Sketch) : SourceFile :=
  Sketch.file path [.function "Tally" [] [.useState "v" "setV",
    .run (.call "useMemo" [.arrow statements, .array ["v"]])]]

namespace tally

def hook (f : SourceFile) : Hook := ⟨.memo, f.root.at [0, 2, 1, 0]⟩

def callback (f : SourceFile) : Node := (hook f).call.at [1, 0]

def body (f : SourceFile) (facts : Facts) (helpers : HelperMap) : Body :=
  ⟨.usual, callback f, facts, helpers, fun _ => none⟩

/-- What is found out about the hook: the facts, the helpers, the calls and
the findings. -/
def survey (f : SourceFile) :
    Except Fault (Facts × HelperMap × List Site × List Finding) := do
  let facts ← Facts.extract .usual f.path f.root
  let helpers ← HelperMap.build .usual facts.setters f.root
  let sites ← (body f facts helpers).sites
  return (facts, helpers, sites,
    ← hookStage .usual f.path (fun _ => none) facts helpers
      f.root.origins (hook f))

/-- A call sets the state to a value outside the clean-up, and no guard is
around it. -/
def isPlain (b : Body) (s : Site) : Bool :=
  !s.deferred && !b.inCleanup s.call && s.call.calleeKey? == some "setV" &&
    (b.guardAt? "setV" s.call).isNone && !s.call.firstArgument?.any fun a =>
      a.kind.isFunctionLiteral

/-- The state is declared and no dependency is unstable, as far as the facts
go. -/
def isSettled (f : SourceFile) (facts : Facts) : Bool :=
  facts.setterOf? "v" == some "setV" && facts.stateOf? "setV" == some "v" &&
    facts.isSetter "setV" && (unstableDependency? (hook f) facts).isNone

/-- What has to be evaluated to see that an update is plain. -/
theorem isPlainUpdate {b : Body} {s : Site}
    (hstate : b.facts.stateOf? "setV" = some "v")
    (hsetter : b.facts.isSetter "setV" = true) (h : isPlain b s = true) :
    b.IsPlainUpdate "setV" s := by
  unfold isPlain at h
  simp only [Bool.and_eq_true, Bool.not_eq_true', beq_iff_eq,
    Option.isNone_iff_eq_none] at h
  obtain ⟨⟨⟨⟨hnow, hout⟩, hkey⟩, hguard⟩, hplain⟩ := h
  refine ⟨⟨hnow, hkey, hsetter⟩, hout,
    (Body.guardAt?_eq_none_iff.1 hguard).resolve_left fun hno => ?_,
    fun hgives => ?_⟩
  · exact absurd (hno "v" hstate) (by decide)
  · rw [Update.givesUpdater_iff.2 hgives] at hplain
    cases hplain

/-- What holds of a survey holds of what was surveyed. -/
theorem exists_of_survey {f : SourceFile} {p : List Site → List Finding → Bool}
    (h : (survey f).toOption.any (fun x => isSettled f x.1 &&
      x.2.2.1.any (isPlain (body f x.1 x.2.1)) && p x.2.2.1 x.2.2.2) = true) :
    ∃ facts helpers sites findings,
      Facts.extract .usual f.path f.root = .ok facts ∧
      HelperMap.build .usual facts.setters f.root = .ok helpers ∧
      facts.setterOf? "v" = some "setV" ∧
        unstableDependency? (hook f) facts = none ∧
      (body f facts helpers).sites = .ok sites ∧
      (∃ s ∈ sites, (body f facts helpers).IsPlainUpdate "setV" s) ∧
      hookStage .usual f.path (fun _ => none) facts helpers f.root.origins
        (hook f) = .ok findings ∧
      p sites findings = true := by
  obtain ⟨x, hsurvey, h⟩ := exists_of_any_toOption h
  obtain ⟨facts, hfacts, hsurvey⟩ := bind_eq_ok.1 hsurvey
  obtain ⟨helpers, hhelpers, hsurvey⟩ := bind_eq_ok.1 hsurvey
  obtain ⟨sites, hsites, hsurvey⟩ := bind_eq_ok.1 hsurvey
  obtain ⟨findings, hstage, hsurvey⟩ := bind_eq_ok.1 hsurvey
  cases hsurvey
  simp only [isSettled, Bool.and_eq_true, beq_iff_eq, Option.isNone_iff_eq_none,
    List.any_eq_true] at h
  obtain ⟨⟨⟨⟨⟨hsetter, hstate⟩, hknown⟩, hstable⟩, s, hs, hplain⟩, hp⟩ := h
  exact ⟨facts, helpers, sites, findings, hfacts, hhelpers, hsetter,
    hstable, hsites, ⟨s, hs, isPlainUpdate hstate hknown hplain⟩, hstage, hp⟩

/-- The state is set to a value. -/
def plain : SourceFile :=
  tally "Plain.tsx" [.run
    (.call "setV" [.binary (.name "v") "+" (.number "1")])]

/-- The state is set by a function first, and then to a value. -/
def mixed : SourceFile := tally "Mixed.tsx"
  [.run (.call "setV" [.arrow [.giveBack (.number "1")]]),
    .run (.call "setV" [.binary (.name "v") "+" (.number "1")])]

end tally

/-- A plain update alone is reported. -/
theorem hookStage_tally_plain : ∃ facts helpers findings,
    Facts.extract .usual tally.plain.path tally.plain.root = .ok facts ∧
      facts.setterOf? "v" = some "setV" ∧
        unstableDependency? (tally.hook tally.plain) facts = none ∧
      hookStage .usual tally.plain.path (fun _ => none) facts helpers
        tally.plain.root.origins (tally.hook tally.plain) = .ok findings ∧
      ∃ x ∈ findings, IsMemoUpdate (tally.hook tally.plain) tally.plain.path
        "v" "setV" x := by
  obtain ⟨facts, helpers, sites, findings, hfacts, -, hsetter, hstable, hsites,
      ⟨s, hs, hplain⟩, hstage, hp⟩ :=
    tally.exists_of_survey (f := tally.plain)
      (p := fun sites _ => sites.all fun s =>
        !s.call.firstArgument?.any fun a => a.kind.isFunctionLiteral)
      (by decide +kernel)
  obtain ⟨sites', hsites', -, hexact⟩ :=
    (hookStage_reports_memo_updates .usual tally.plain.path rfl rfl rfl
    hstable (by decide +kernel) hsetter helpers (fun _ => none)
      tally.plain.root.origins).2 findings hstage
  obtain rfl : sites = sites' := Except.ok.inj (hsites.symm.trans hsites')
  refine ⟨facts, helpers, findings, hfacts, hsetter, hstable, hstage,
    (hexact s hs hplain).2 ?_⟩
  rintro ⟨u, hu, -, hgives⟩
  have hno := List.all_eq_true.1 hp u hu
  rw [Update.givesUpdater_iff.2 hgives] at hno
  cases hno

/-- Next to an update by a function a plain one is passed over. -/
theorem hookStage_passes_over_plain : ∃ facts helpers sites s,
    Facts.extract .usual tally.mixed.path tally.mixed.root = .ok facts ∧
      HelperMap.build .usual facts.setters tally.mixed.root = .ok helpers ∧
      tally.hook tally.mixed ∈ tally.mixed.hooks ∧
        "v" ∈ (tally.hook tally.mixed).dependencies ∧
      facts.setterOf? "v" = some "setV" ∧
        unstableDependency? (tally.hook tally.mixed) facts = none ∧
      (tally.hook tally.mixed).callback? = some (tally.callback tally.mixed) ∧
      (tally.callback tally.mixed).isFunction = true ∧
      (tally.body tally.mixed facts helpers).sites = .ok sites ∧ s ∈ sites ∧
      (tally.body tally.mixed facts helpers).IsPlainUpdate "setV" s ∧
      hookStage .usual tally.mixed.path (fun _ => none) facts helpers
        tally.mixed.root.origins (tally.hook tally.mixed) = .ok [] := by
  obtain ⟨facts, helpers, sites, findings, hfacts, hhelpers, hsetter, hstable,
    hsites, ⟨s, hs, hplain⟩, hstage, hp⟩ :=
    tally.exists_of_survey (f := tally.mixed)
      (p := fun _ findings => findings.isEmpty) (by decide +kernel)
  rw [List.isEmpty_iff.1 hp] at hstage
  exact ⟨facts, helpers, sites, s, hfacts, hhelpers,
    List.mem_of_getElem? (i := 0) rfl, by decide +kernel,
    hsetter, hstable, rfl, rfl, hsites, hs, hplain, hstage⟩

end Check

end RenderLoop
