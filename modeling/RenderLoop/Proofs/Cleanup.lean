import RenderLoop.Proofs.EffectVerdict

/-!
# Updates during clean-up

The closure that a callback returns runs when the effect is cleaned up. What
it does to a setter at once is kept apart from what the body does, and so is
what it hands over; but an update that it leaves for later counts as one that
the body leaves for later.

> `mem_deferred`: the setters listed as updated later are those of the calls
> that run later or call a helper that does the rest later, wherever they
> stand, and of what is handed over outside the clean-up.

A setter that is reached in the clean-up only is therefore listed at most
there and as updated later (`Body.OnlyInCleanup.recordedApart`), and an effect
without dependency array that touches setters in its clean-up only is reported
iff its clean-up leaves an update for later.

The events of a body are listed call by call, so the proof asks of each kind
of call when it defers an update: a call of a setter, of a helper, of an
imported function, and a name that is handed over. Only the last of these
looks at the clean-up, which is why the clean-up of an effect can leave
updates for later but hand nothing over.
-/

namespace RenderLoop

namespace Update

namespace Body

variable {b : Body} {origins : Table (List String)} {i : Interaction}
  {sites : List Site} {s : Site} {setter : String} {inCleanup : Bool}

/-! ### Updates that are left for later -/

/-- A call updates a setter after the body has run: it runs later itself, or
it calls a helper that does its part later. -/
inductive UpdatesLater (b : Body) (s : Site) (setter : String) : Prop where
  | direct (hlater : s.deferred = true) (hkey : s.call.calleeKey? = some setter)
      (hsetter : b.facts.isSetter setter = true)
  | helper (name : String) (hlater : s.deferred = true)
      (hkey : s.call.calleeKey? = some name)
      (hother : b.facts.isSetter name = false)
      (hhelper : b.helpers.isHelper name = true)
      (hreach : setter ∈ b.helpers.settersNow name)
  | inHelper (name : String) (hkey : s.call.calleeKey? = some name)
      (hother : b.facts.isSetter name = false)
      (hhelper : b.helpers.isHelper name = true)
      (hreach : setter ∈ b.helpers.settersLater name)

/-- A name stands for a setter: its own, or one that the helper of that name
reaches. -/
def StandsFor (b : Body) (name setter : String) : Prop :=
  if b.facts.isSetter name then name = setter
  else b.helpers.isHelper name = true ∧
    (setter ∈ b.helpers.settersNow name ∨ setter ∈ b.helpers.settersLater name)

/-- A call hands a setter to something that calls it later. -/
def HandsOver (b : Body) (call : Node) (setter : String) : Prop :=
  (eventListeners.contains (receiverName call) = true ∨
    callsBackLater b.ctx call = .ok true) ∧
    ∃ arg ∈ call.arguments,
    (arg.bare.kind = .identifier ∨ arg.bare.kind = .member) ∧
      b.StandsFor arg.bare.text setter

theorem isUpdate_update (b : Body) (call : Node) (setter : String)
    (inCleanup : Bool) :
    (b.update call setter inCleanup).isUpdate = true := by
  unfold update
  split
  · rfl
  · split <;> rfl

/-- An event of another kind is no update. -/
theorem ne_update {e : Event} (he : e.isUpdate = false) {call : Node}
    {reached : String} :
    e ≠ b.update call reached inCleanup := by
  rintro rfl
  rw [isUpdate_update] at he
  cases he

theorem update_ne_deferred {call : Node} {reached : String} :
    b.update call reached inCleanup ≠ .deferred setter :=
  (ne_update rfl).symm

/-- A call of a setter is an update, now or later, and perhaps by a function. -/
theorem cases_of_mem_setterCall {e : Event}
    (h : e ∈ b.setterCall s setter inCleanup) :
    e = .deferred setter ∨ e = .functional setter ∨
      e = b.update s.call setter inCleanup := by
  unfold setterCall at h
  split at h
  · exact .inl (List.mem_singleton.1 h)
  · rcases List.mem_append.1 h with h | h
    · split at h
      · exact .inr (.inl (List.mem_singleton.1 h))
      · cases h
    · exact .inr (.inr (List.mem_singleton.1 h))

/-- A call of an imported function hands setters over and so updates them. -/
theorem cases_of_mem_importedCall {call : Node} {name : String} {e : Event}
    (h : e ∈ b.importedCall call name inCleanup) :
    (∃ c, e = .imported c) ∨
      ∃ reached, e = b.update call reached inCleanup := by
  unfold importedCall at h
  split at h
  · cases h
  · obtain ⟨⟨arg, position⟩, -, h⟩ := List.mem_flatMap.1 h
    unfold handedEvents at h
    simp only at h
    split at h
    · split at h
      · rcases List.mem_cons.1 h with h | h
        · exact .inl ⟨_, h⟩
        · exact .inr ⟨_, List.mem_singleton.1 h⟩
      · cases h
    · cases h

/-- A call of a setter is recorded as deferred when the site is. -/
theorem deferred_mem_setterCall {name : String} :
    .deferred setter ∈ b.setterCall s name inCleanup ↔ s.deferred = true ∧
      name = setter := by
  unfold setterCall
  cases s.deferred with
  | true => simp [eq_comm]
  | false =>
    simp only [Bool.false_eq_true, if_false, false_and, iff_false,
      List.mem_append, List.mem_singleton, not_or]
    refine ⟨?_, update_ne_deferred.symm⟩
    split <;> simp

/-- A call of a helper defers what the helper sets at once, when the site is
deferred, and what it sets later in any case. -/
theorem deferred_mem_helperCall {name : String} :
    .deferred setter ∈ b.helperCall s name inCleanup ↔
      s.deferred = true ∧ setter ∈ b.helpers.settersNow name ∨
        setter ∈ b.helpers.settersLater name := by
  unfold helperCall
  rw [List.mem_append, List.mem_flatMap]
  refine or_congr ?_ (by simp)
  cases s.deferred with
  | true => simp
  | false =>
    simp only [Bool.false_eq_true, if_false, false_and, iff_false]
    rintro ⟨reached, -, hmem⟩
    rcases List.mem_cons.1 hmem with h | h
    · cases h
    · exact update_ne_deferred (List.mem_singleton.1 h).symm

/-- What an imported function sets is never recorded as deferred. -/
theorem deferred_not_mem_importedCall {call : Node} {name : String} :
    .deferred setter ∉ b.importedCall call name inCleanup := by
  intro h
  rcases cases_of_mem_importedCall h with ⟨c, h⟩ | ⟨reached, h⟩
  · cases h
  · exact update_ne_deferred h.symm

/-- Whether a call leaves an update for later does not depend on where it
stands. -/
theorem deferred_mem_calleeEvents :
    .deferred setter ∈ b.calleeEvents s inCleanup ↔
      b.UpdatesLater s setter := by
  unfold calleeEvents
  constructor
  · intro h
    split at h
    · cases h
    · next name hkey =>
      split at h
      · next hsetter =>
        obtain ⟨hlater, rfl⟩ := deferred_mem_setterCall.1 h
        exact .direct hlater hkey hsetter
      · next hother =>
        have hother : b.facts.isSetter name = false :=
          Bool.eq_false_iff.2 hother
        split at h
        · next hhelper =>
          rcases deferred_mem_helperCall.1 h with ⟨hlater, hreach⟩ | hreach
          · exact .helper name hlater hkey hother hhelper hreach
          · exact .inHelper name hkey hother hhelper hreach
        · split at h
          · cases h
          · exact absurd h deferred_not_mem_importedCall
  · intro h
    cases h with
    | direct hlater hkey hsetter =>
      rw [hkey]
      simp only [hsetter, if_true]
      exact deferred_mem_setterCall.2 ⟨hlater, rfl⟩
    | helper name hlater hkey hother hhelper hreach =>
      rw [hkey]
      simp only [hother, hhelper, if_true, Bool.false_eq_true, if_false]
      exact deferred_mem_helperCall.2 (.inl ⟨hlater, hreach⟩)
    | inHelper name hkey hother hhelper hreach =>
      rw [hkey]
      simp only [hother, hhelper, if_true, Bool.false_eq_true, if_false]
      exact deferred_mem_helperCall.2 (.inr hreach)

/-- A name handed over defers its setters, unless it is handed over inside the
clean-up. -/
theorem deferred_mem_referenceEvents {toListener : Bool} {receiver : String}
    {arg : Node} :
    .deferred setter ∈ b.referenceEvents toListener receiver inCleanup arg ↔
      inCleanup = false ∧
      (arg.bare.kind = .identifier ∨ arg.bare.kind = .member) ∧
      b.StandsFor arg.bare.text setter := by
  unfold referenceEvents StandsFor
  by_cases hkind : arg.bare.kind = .identifier ∨ arg.bare.kind = .member
  · have hkind' : (arg.bare.kind == .identifier || arg.bare.kind == .member) =
        true := by
      simpa using hkind
    simp only [hkind', if_true, hkind, true_and]
    cases hsetter : b.facts.isSetter arg.bare.text with
    | true => cases inCleanup <;> simp [eq_comm]
    | false =>
      cases hhelper : b.helpers.isHelper arg.bare.text with
      | true => cases inCleanup <;> simp
      | false => simp
  · have hkind' : (arg.bare.kind == .identifier || arg.bare.kind == .member) =
        false := by
      simpa using hkind
    simp [hkind', hkind]

/-- What a call hands over counts outside the clean-up only. -/
theorem deferred_mem_references {call : Node} {refs : List Event}
    (h : b.references call inCleanup = .ok refs) :
    .deferred setter ∈ refs ↔ inCleanup = false ∧ b.HandsOver call setter := by
  have hargs : ∀ toListener, .deferred setter ∈
      call.arguments.flatMap
        (b.referenceEvents toListener (receiverName call) inCleanup) ↔
        inCleanup = false ∧ ∃ arg ∈ call.arguments,
          (arg.bare.kind = .identifier ∨ arg.bare.kind = .member) ∧
            b.StandsFor arg.bare.text setter := by
    intro toListener
    rw [List.mem_flatMap]
    simp only [deferred_mem_referenceEvents]
    constructor
    · rintro ⟨arg, harg, hout, hstands⟩
      exact ⟨hout, arg, harg, hstands⟩
    · rintro ⟨hout, arg, harg, hstands⟩
      exact ⟨arg, harg, hout, hstands⟩
  unfold references at h
  unfold HandsOver
  simp only at h
  split at h
  · next hlistener =>
    cases h
    rw [hargs, hlistener]
    simp
  · next hlistener =>
    obtain ⟨later, hlater, h⟩ := bind_eq_ok.1 h
    rw [hlater]
    cases later with
    | true =>
      cases h
      rw [hargs]
      simp
    | false =>
      cases h
      refine iff_of_false List.not_mem_nil ?_
      rintro ⟨-, hreceiver | hreceiver, -⟩
      · exact hlistener hreceiver
      · cases hreceiver

/-- The setters listed as updated later. -/
theorem mem_deferred (hsites : b.sites = .ok sites)
    (hi : b.interaction origins = .ok i) :
    setter ∈ i.deferred ↔ ∃ s ∈ sites, b.UpdatesLater s setter ∨
      b.inCleanup s.call = false ∧ b.HandsOver s.call setter := by
  obtain ⟨es, hes, h⟩ := bind_eq_ok.1 hi
  cases h
  have hlisted : setter ∈ (b.record origins es).deferred ↔
      Event.deferred setter ∈ es := by
    unfold record
    rw [mem_sortedUnique, List.mem_filterMap]
    constructor
    · rintro ⟨e, he, hname⟩
      cases e <;> cases hname
      exact he
    · intro he
      exact ⟨_, he, rfl⟩
  rw [hlisted, mem_events hsites hes]
  constructor
  · rintro ⟨s, hs, refs, hrefs, hmem | hmem⟩
    · exact ⟨s, hs, .inr ((deferred_mem_references hrefs).1 hmem)⟩
    · exact ⟨s, hs, .inl (deferred_mem_calleeEvents.1 hmem)⟩
  · rintro ⟨s, hs, hlater⟩
    obtain ⟨refs, hrefs⟩ := exists_references hsites hes hs
    refine ⟨s, hs, refs, hrefs, hlater.symm.imp ?_ ?_⟩
    · exact (deferred_mem_references hrefs).2
    · exact deferred_mem_calleeEvents.2

/-! ### Setters of the clean-up -/

/-- Whatever reaches a setter stands in a closure that the body returns: the
calls that update it, at once or later, and those that hand it over. -/
structure OnlyInCleanup (b : Body) (sites : List Site) (setter : String) :
    Prop where
  now : ∀ s ∈ sites, s.deferred = false → b.Reaches s.call setter →
    b.inCleanup s.call = true
  later : ∀ s ∈ sites, b.UpdatesLater s setter → b.inCleanup s.call = true
  handed : ∀ s ∈ sites, b.HandsOver s.call setter → b.inCleanup s.call = true

theorem OnlyInCleanup.of_all (h : ∀ s ∈ sites, b.inCleanup s.call = true)
    (setter : String) :
    b.OnlyInCleanup sites setter :=
  ⟨fun s hs _ _ => h s hs, fun s hs _ => h s hs, fun s hs _ => h s hs⟩

/-- A setter touched only in the clean-up has no site that counts as an
update. -/
theorem OnlyInCleanup.not_isUpdateSite (h : b.OnlyInCleanup sites setter)
    (hs : s ∈ sites) :
    ¬ b.IsUpdateSite setter s := by
  intro hupdate
  have hin := h.now s hs hupdate.now hupdate.reaches
  rw [hupdate.outside] at hin
  cases hin

/-- The record of a setter that is reached in the clean-up only: no update of
the body itself, guarded or not, and an update for later iff the clean-up
leaves one. -/
structure RecordedApart (b : Body) (sites : List Site) (i : Interaction)
    (setter : String) : Prop where
  not_modified : setter ∉ i.modifications
  not_conditional : setter ∉ i.conditional
  not_guarded : ∀ g ∈ i.guarded, g.setter ≠ setter
  deferred_iff : setter ∈ i.deferred ↔ ∃ s ∈ sites, b.UpdatesLater s setter

/-- A setter is listed as conditional only together with a guard for it. -/
theorem setter_mem_guarded_of_conditional (hi : b.interaction origins = .ok i)
    (h : setter ∈ i.conditional) : ∃ g ∈ i.guarded, g.setter = setter := by
  obtain ⟨es, -, hrecord⟩ := bind_eq_ok.1 hi
  cases hrecord
  obtain ⟨g, hg, hsetter⟩ := List.mem_map.1 (mem_sortedUnique.1 h)
  exact ⟨g, (List.mem_filter.1 hg).1, hsetter⟩

/-- Such a setter is kept apart from the updates of the body, whatever else
the body does. -/
theorem OnlyInCleanup.recordedApart (h : b.OnlyInCleanup sites setter)
    (hsites : b.sites = .ok sites) (hi : b.interaction origins = .ok i) :
    b.RecordedApart sites i setter := by
  have hguarded : ∀ g ∈ i.guarded, g.setter ≠ setter := by
    rintro g hg rfl
    obtain ⟨s, hs, hupdate, -⟩ := (mem_guarded hsites hi).1 hg
    exact h.not_isUpdateSite hs hupdate
  refine ⟨fun hmod => ?_, fun hcond => ?_, hguarded, ?_⟩
  · obtain ⟨s, hs, hupdate, -⟩ := (mem_modifications hsites hi).1 hmod
    exact h.not_isUpdateSite hs hupdate
  · obtain ⟨g, hg, hsetter⟩ := setter_mem_guarded_of_conditional hi hcond
    exact hguarded g hg hsetter
  · rw [mem_deferred hsites hi]
    constructor
    · rintro ⟨s, hs, hlater | ⟨hout, hhands⟩⟩
      · exact ⟨s, hs, hlater⟩
      · -- what the clean-up hands over is not counted, and nothing else is
        -- handed over
        have hin := h.handed s hs hhands
        rw [hout] at hin
        cases hin
    · rintro ⟨s, hs, hlater⟩
      exact ⟨s, hs, .inl hlater⟩

end Body

end Update

namespace Check

open Update

/-- The setters an effect may reach: by a plain update, later, or under a
guard that is not safe. -/
theorem mem_reachedSetters {i : Interaction} {setter : String} :
    setter ∈ reachedSetters i ↔ setter ∈ i.modifications ∨ setter ∈ i.deferred ∨
      ∃ g ∈ i.guarded, g.isSafe = false ∧ g.setter = setter := by
  simp [reachedSetters, and_assoc]

/-- An effect without dependency array is a confirmed loop iff it reaches a
setter. -/
theorem confirmed_effectWithoutDeps_iff {i : Interaction} (ctx : Context)
    (h : Hook) (file : String) :
    (∃ x ∈ effectWithoutDeps ctx h file i, x.kind = .confirmed) ↔
      ∃ setter, setter ∈ reachedSetters i := by
  constructor
  · rintro ⟨x, hx, -⟩
    cases hreached : reachedSetters i with
    | cons setter others => exact ⟨setter, List.mem_cons_self⟩
    | nil =>
      have hnone : effectWithoutDeps ctx h file i = [] := by
        simp [effectWithoutDeps, hreached]
      rw [hnone] at hx
      cases hx
  · rintro ⟨setter, hreached⟩
    exact exists_confirmed_effectWithoutDeps ctx h file hreached

/-- What is reached in the clean-up only is recorded apart from what the body
does. So an effect without dependency array that reaches setters in its
clean-up only is a confirmed loop iff the clean-up leaves an update for
later. -/
theorem hookStage_cleanup_apart (ctx : Context) (file : String) {h : Hook}
    {facts : Facts} {callback : Node} (hcallback : h.callback? = some callback)
    (hfn : callback.isFunction = true)
    (helpers : HelperMap) (imported : String → Option SetterTaker)
    (origins : Table (List String))
    {i : Interaction}
    (hi : h.interaction ctx facts helpers imported origins = .ok i) :
    let b : Body := ⟨ctx, callback, facts, helpers, imported⟩
    ∃ sites, b.sites = .ok sites ∧
      (∀ setter, b.OnlyInCleanup sites setter →
        b.RecordedApart sites i setter) ∧
      (h.kind.isEffect = true → h.hasDependencies = false →
        (∀ setter, b.OnlyInCleanup sites setter) →
        ∃ findings, hookStage ctx file imported facts helpers origins h =
          .ok findings ∧ ((∃ x ∈ findings, x.kind = .confirmed) ↔
            ∃ setter, ∃ s ∈ sites, b.UpdatesLater s setter)) := by
  intro b
  have hbody : b.interaction origins = .ok i :=
    (interaction_eq hcallback hfn).symm.trans hi
  obtain ⟨sites, hsites⟩ := exists_sites hbody
  refine ⟨sites, hsites, fun setter honly =>
    honly.recordedApart hsites hbody, ?_⟩
  intro heffect hnone honly
  have hstage : hookFindings ctx file facts h i =
      effectWithoutDeps ctx h file i := by
    simp [hookFindings, heffect, hnone]
  refine ⟨_, bind_eq_ok.2 ⟨i, hi, congrArg Except.ok hstage⟩, ?_⟩
  rw [confirmed_effectWithoutDeps_iff]
  refine exists_congr fun setter => ?_
  have hapart := (honly setter).recordedApart hsites hbody
  rw [mem_reachedSetters, ← hapart.deferred_iff]
  constructor
  · rintro (hmod | hdeferred | ⟨g, hg, -, hsetter⟩)
    · exact absurd hmod hapart.not_modified
    · exact hdeferred
    · exact absurd hsetter (hapart.not_guarded g hg)
  · exact fun hdeferred => .inr (.inl hdeferred)

/-- A component whose only effect, without dependency array, returns a closure
with the given code. -/
def cleaning (path : String) (statements : List Sketch) : SourceFile :=
  Sketch.file path [.function "Panel" [] [.useState "v" "setV",
    .run (.call "useEffect" [.arrow [.giveBack (.arrow statements)]])]]

/-- The closure sets the state. -/
def cleaningNow : SourceFile :=
  cleaning "Now.tsx" [.run (.call "setV" [.number "1"])]

/-- The closure starts a timer that sets the state. -/
def cleaningLater : SourceFile := cleaning "Later.tsx"
  [.run (.call "setTimeout" [.arrow [.run (.call "setV" [.number "1"])],
    .number "9"])]

namespace cleaning

/-- The effect of such a component. -/
def hook (f : SourceFile) : Hook := ⟨.effect, f.root.at [0, 2, 1, 0]⟩

def callback (f : SourceFile) : Node := (hook f).call.at [1, 0]

def body (f : SourceFile) (facts : Facts) (helpers : HelperMap) : Body :=
  ⟨.usual, callback f, facts, helpers, fun _ => none⟩

/-- What is found out about the effect: the facts, the helpers, the record and
the calls. -/
def survey (f : SourceFile) :
    Except Fault (Facts × HelperMap × Interaction × List Site) := do
  let facts ← Facts.extract .usual f.path f.root
  let helpers ← HelperMap.build .usual facts.setters f.root
  let i ← (hook f).interaction .usual facts helpers (fun _ => none)
    f.root.origins
  return (facts, helpers, i, ← (body f facts helpers).sites)

/-- In a survey all of whose calls stand in the clean-up, every setter is
reached there only. -/
theorem exists_survey (f : SourceFile) (deferred : List String)
    (h : (survey f).toOption.map (fun x => (x.2.2.1.deferred,
      x.2.2.2.all fun s => (body f x.1 x.2.1).inCleanup s.call)) =
        some (deferred, true)) :
    ∃ facts helpers i sites, Facts.extract .usual f.path f.root = .ok facts ∧
      HelperMap.build .usual facts.setters f.root = .ok helpers ∧
      (hook f).interaction .usual facts helpers (fun _ => none) f.root.origins =
        .ok i ∧
      (body f facts helpers).sites = .ok sites ∧ i.deferred = deferred ∧
      ∀ setter, (body f facts helpers).OnlyInCleanup sites setter := by
  cases hsurvey : survey f with
  | error e =>
    rw [hsurvey] at h
    cases h
  | ok x =>
    rw [hsurvey] at h
    obtain ⟨hdeferred, hall⟩ := Prod.mk.inj (Option.some.inj h)
    obtain ⟨facts, hfacts, hsurvey⟩ := bind_eq_ok.1 hsurvey
    obtain ⟨helpers, hhelpers, hsurvey⟩ := bind_eq_ok.1 hsurvey
    obtain ⟨i, hi, hsurvey⟩ := bind_eq_ok.1 hsurvey
    obtain ⟨sites, hsites, hsurvey⟩ := bind_eq_ok.1 hsurvey
    cases hsurvey
    exact ⟨facts, helpers, i, sites, hfacts, hhelpers, hi, hsites, hdeferred,
      .of_all (List.all_eq_true.1 hall)⟩

end cleaning

/-- A state that is set in the clean-up, and at once, makes no loop. -/
theorem hookStage_cleaningNow : ∃ facts helpers i findings,
    Facts.extract .usual cleaningNow.path cleaningNow.root = .ok facts ∧
      (cleaning.hook cleaningNow).interaction .usual facts helpers
        (fun _ => none) cleaningNow.root.origins = .ok i ∧
      hookStage .usual cleaningNow.path (fun _ => none) facts helpers
        cleaningNow.root.origins (cleaning.hook cleaningNow) = .ok findings ∧
      ¬ ∃ x ∈ findings, x.kind = .confirmed := by
  obtain ⟨facts, helpers, i, sites, hfacts, -, hi, hsites, hdeferred, honly⟩ :=
    cleaning.exists_survey cleaningNow [] (by decide +kernel)
  have hcallback : (cleaning.hook cleaningNow).callback? =
    some (cleaning.callback cleaningNow) := rfl
  obtain ⟨sites', hsites', hapart, hloop⟩ :=
    hookStage_cleanup_apart .usual cleaningNow.path
    hcallback rfl helpers (fun _ => none) _ hi
  obtain rfl : sites = sites' := Except.ok.inj (hsites.symm.trans hsites')
  obtain ⟨findings, hstage, hconfirmed⟩ := hloop rfl rfl honly
  refine ⟨facts, helpers, i, findings, hfacts, hi, hstage, fun h => ?_⟩
  obtain ⟨setter, hlater⟩ := hconfirmed.1 h
  have hmem := (hapart setter (honly setter)).deferred_iff.2 hlater
  rw [hdeferred] at hmem
  cases hmem

/-- A state that is set in the clean-up only, but by a timer that the clean-up
starts, is listed as updated later, and the effect is a confirmed loop. -/
theorem hookStage_cleaningLater : ∃ facts helpers i sites findings,
    Facts.extract .usual cleaningLater.path cleaningLater.root = .ok facts ∧
      HelperMap.build .usual facts.setters cleaningLater.root = .ok helpers ∧
      (cleaning.hook cleaningLater).interaction .usual facts helpers
        (fun _ => none) cleaningLater.root.origins = .ok i ∧
      (cleaning.body cleaningLater facts helpers).sites = .ok sites ∧
      (∀ setter, (cleaning.body cleaningLater facts helpers).OnlyInCleanup
        sites setter) ∧
      "setV" ∈ i.deferred ∧
      hookStage .usual cleaningLater.path (fun _ => none) facts helpers
        cleaningLater.root.origins (cleaning.hook cleaningLater) =
        .ok findings ∧
      ∃ x ∈ findings, x.kind = .confirmed := by
  obtain ⟨facts, helpers, i, sites, hfacts, hhelpers, hi, hsites,
      hdeferred, honly⟩ :=
    cleaning.exists_survey cleaningLater ["setV"] (by decide +kernel)
  have hmem : "setV" ∈ i.deferred := by
    rw [hdeferred]
    exact List.mem_singleton.2 rfl
  refine ⟨facts, helpers, i, sites, _, hfacts, hhelpers, hi, hsites,
    honly, hmem, bind_eq_ok.2 ⟨i, hi, rfl⟩, ?_⟩
  exact exists_confirmed_effectWithoutDeps .usual _ _
    (mem_reachedSetters.2 (.inr (.inl hmem)))

end Check

end RenderLoop
