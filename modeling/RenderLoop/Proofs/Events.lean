import RenderLoop.Update.Interaction
import RenderLoop.Proofs.Names
import RenderLoop.Proofs.Scan

/-!
# From calls to the record of a body

A call of a body updates a setter if it runs with the body and reaches the
setter: by calling it, by calling a helper that does, or by handing it to an
imported function that does (`Body.Reaches`). What an update amounts to is
decided by `Body.update` alone, so one statement covers all routes:

> `mem_events_of_isUpdate`: the updates among the events of a body are those
> of its calls, one for each setter that a call reaches.

The record then lists a setter as modified iff some call outside the clean-up
reaches it without a guard (`mem_modifications`), and its guards are the
guards of such calls (`mem_guarded`).

The events come from three kinds of calls and from what is handed over. The
first three are taken together as the calls that reach a setter; a hand-over
is never an update (`not_isUpdate_of_mem_references`), so the record of
updates does not depend on the references at all.
-/

namespace RenderLoop

/-- A guard found around an update is about the setter that is updated and the
state that was asked for. -/
theorem Guard.about_of_inEffect? {call : Node} {setter : String}
    {state : Option String} {stop : Option Key} {g : Guard}
    (h : inEffect? call setter state stop = some g) :
    g.setter = setter ∧ state = some g.state := by
  unfold inEffect? at h
  split at h
  · cases h
  · simp only at h
    split at h
    · cases h
    · split at h
      · cases h
        exact ⟨rfl, rfl⟩
      · split at h
        · cases h
          exact ⟨rfl, rfl⟩
        · split at h
          · cases h
          · cases h
            exact ⟨rfl, rfl⟩

/-- A guard in an effect is about the setter it was looked for. -/
theorem Guard.setter_of_inEffect? {call : Node} {setter : String}
    {state : Option String} {stop : Option Key} {g : Guard}
    (h : inEffect? call setter state stop = some g) :
    g.setter = setter :=
  (about_of_inEffect? h).1

namespace Update

/-- An event that records the update of a setter by a call of the body. -/
def Event.isUpdate : Event → Bool
  | modified _ | guarded _ | cleanup _ => true
  | _ => false

namespace Body

/-- A call reaches a setter. The called name is looked for among the setters,
then among the helpers, then among the imports. -/
inductive Reaches (b : Body) (call : Node) (setter : String) : Prop where
  | direct (hkey : call.calleeKey? = some setter)
      (hsetter : b.facts.isSetter setter = true)
  | helper (name : String) (hkey : call.calleeKey? = some name)
      (hother : b.facts.isSetter name = false)
      (hhelper : b.helpers.isHelper name = true)
      (hreach : setter ∈ b.helpers.settersNow name)
  | handed (name : String) (taker : SetterTaker) (position depth : Nat)
      (arg : Node) (hkey : call.calleeKey? = some name)
      (hother : b.facts.isSetter name = false)
      (hhelper : b.helpers.isHelper name = false)
      (htaker : b.imported name = some taker)
      (harg : call.arguments[position]? = some arg)
      (hkind : arg.bare.kind = .identifier)
      (htext : arg.bare.text = setter)
      (hsetter : b.facts.isSetter setter = true)
      (hdepth : taker.depthAt? position = some depth)

/-- The call lies in a closure the body returns. -/
def inCleanup (b : Body) (call : Node) : Bool :=
  b.cleanups.any (·.encloses call)

/-- The guard around a call for the state of a setter. -/
def guardAt? (b : Body) (setter : String) (call : Node) : Option Guard :=
  Guard.inEffect? call setter (b.facts.stateOf? setter) (some b.callback.key)

/-! ### Updates by one call -/

/-- Calling a setter is an update of it, unless the call runs later. -/
theorem mem_setterCall {b : Body} {s : Site} {setter : String}
    {inCleanup : Bool} {e : Event} (he : e.isUpdate = true) :
    e ∈ b.setterCall s setter inCleanup ↔
      s.deferred = false ∧ e = b.update s.call setter inCleanup := by
  unfold setterCall
  cases hdeferred : s.deferred with
  | true =>
    simp only [if_true, List.mem_singleton, Bool.true_eq_false,
      false_and, iff_false]
    rintro rfl
    cases he
  | false =>
    simp only [Bool.false_eq_true, if_false, List.mem_append,
      List.mem_singleton, true_and]
    refine or_iff_right fun hfunctional => ?_
    split at hfunctional
    · obtain rfl := List.mem_singleton.1 hfunctional
      cases he
    · cases hfunctional

/-- Calling a helper is an update of all the setters that it sets at once. -/
theorem mem_helperCall {b : Body} {s : Site} {name : String}
    {inCleanup : Bool} {e : Event} (he : e.isUpdate = true) :
    e ∈ b.helperCall s name inCleanup ↔ s.deferred = false ∧
      ∃ setter ∈ b.helpers.settersNow name,
        e = b.update s.call setter inCleanup := by
  have hlater : e ∉ (b.helpers.settersLater name).map Event.deferred := by
    rintro hmem
    obtain ⟨setter, -, rfl⟩ := List.mem_map.1 hmem
    cases he
  unfold helperCall
  rw [List.mem_append, or_iff_left hlater, List.mem_flatMap]
  cases hdeferred : s.deferred with
  | true =>
    simp only [Bool.true_eq_false, false_and, iff_false, if_true]
    rintro ⟨setter, -, hmem⟩
    obtain rfl := List.mem_singleton.1 hmem
    cases he
  | false =>
    simp only [mem_sortedUnique, Bool.false_eq_true, if_false, List.mem_cons,
      List.not_mem_nil, or_false, true_and]
    refine exists_congr fun setter => and_congr_right fun _ => or_iff_right ?_
    rintro rfl
    cases he

/-- Calling an imported function is an update of the setters it is handed and
calls. -/
theorem mem_importedCall {b : Body} {call : Node} {name : String}
    {inCleanup : Bool} {e : Event} (he : e.isUpdate = true) :
    e ∈ b.importedCall call name inCleanup ↔
      ∃ taker position depth arg, b.imported name = some taker ∧
        call.arguments[position]? = some arg ∧ arg.bare.kind = .identifier ∧
        b.facts.isSetter arg.bare.text = true ∧ taker.depthAt? position =
          some depth ∧
        e = b.update call arg.bare.text inCleanup := by
  unfold importedCall
  constructor
  · intro h
    split at h
    · cases h
    · next taker htaker =>
      obtain ⟨⟨arg, position⟩, hmem, h⟩ := List.mem_flatMap.1 h
      have harg := List.mem_zipIdx_iff_getElem?.1 hmem
      unfold handedEvents at h
      simp only at h
      split at h
      · next hsetter =>
        obtain ⟨hkind, hsetter⟩ := Bool.and_eq_true_iff.1 hsetter
        split at h
        · next depth hdepth =>
          rcases List.mem_cons.1 h with rfl | h
          · cases he
          · exact ⟨taker, position, depth, arg, htaker,
              harg, by simpa using hkind, hsetter, hdepth,
              List.mem_singleton.1 h⟩
        · cases h
      · cases h
  · rintro ⟨taker, position, depth, arg, htaker, harg, hkind, hsetter,
      hdepth, rfl⟩
    rw [htaker]
    refine List.mem_flatMap.2 ⟨(arg, position),
      List.mem_zipIdx_iff_getElem?.2 harg, ?_⟩
    simp [handedEvents, hkind, hsetter, hdepth]

/-- The updates by a call are those of the setters it reaches, if it runs with
the body. -/
theorem mem_calleeEvents {b : Body} {s : Site} {inCleanup : Bool} {e : Event}
    (he : e.isUpdate = true) :
    e ∈ b.calleeEvents s inCleanup ↔ s.deferred = false ∧
      ∃ setter, b.Reaches s.call setter ∧
        e = b.update s.call setter inCleanup := by
  unfold calleeEvents
  constructor
  · intro h
    split at h
    · cases h
    · next name hkey =>
      split at h
      · next hsetter =>
        obtain ⟨hnow, he⟩ := (mem_setterCall he).1 h
        exact ⟨hnow, name, .direct hkey hsetter, he⟩
      · next hother =>
        have hother : b.facts.isSetter name = false := by simpa using hother
        split at h
        · next hhelper =>
          obtain ⟨hnow, setter, hreach, he⟩ := (mem_helperCall he).1 h
          exact ⟨hnow, setter, .helper name hkey hother hhelper hreach, he⟩
        · next hhelper =>
          have hhelper : b.helpers.isHelper name = false := by
            simpa using hhelper
          split at h
          · cases h
          · next hnow =>
            obtain ⟨taker, position, depth, arg, htaker, harg, hkind,
                hsetter, hdepth, he⟩ :=
              (mem_importedCall he).1 h
            exact ⟨by simpa using hnow, _,
              .handed name taker position depth arg hkey hother
              hhelper htaker harg hkind rfl hsetter hdepth, he⟩
  · rintro ⟨hnow, setter, hreach, rfl⟩
    cases hreach with
    | direct hkey hsetter =>
      rw [hkey]
      simp only [hsetter, if_true]
      exact (mem_setterCall he).2 ⟨hnow, rfl⟩
    | helper name hkey hother hhelper hreach =>
      rw [hkey]
      simp only [hother, hhelper, if_true, Bool.false_eq_true, if_false]
      exact (mem_helperCall he).2 ⟨hnow, setter, hreach, rfl⟩
    | handed name taker position depth arg hkey hother hhelper htaker harg hkind
        htext hsetter hdepth =>
      rw [hkey]
      simp only [hother, hhelper, hnow, Bool.false_eq_true, if_false]
      subst htext
      exact (mem_importedCall he).2
        ⟨taker, position, depth, arg, htaker, harg, hkind, hsetter, hdepth, rfl⟩

/-! ### Updates of a body -/

/-- What is handed over makes references and deferred updates only. -/
theorem cases_of_mem_referenceEvents {b : Body} {toListener inCleanup : Bool}
    {receiver : String} {arg : Node} {e : Event}
    (h : e ∈ b.referenceEvents toListener receiver inCleanup arg) :
    (∃ r, e = .reference r) ∨ ∃ setter, e = .deferred setter := by
  unfold referenceEvents at h
  simp only at h
  split at h
  · split at h
    · rcases List.mem_cons.1 h with rfl | h
      · exact .inl ⟨_, rfl⟩
      · obtain ⟨setter, -, rfl⟩ := List.mem_map.1 h
        exact .inr ⟨setter, rfl⟩
    · cases h
  · cases h

/-- Functions handed over are references, or are called later. -/
theorem cases_of_mem_references {b : Body} {call : Node} {inCleanup : Bool}
    {es : List Event} (h : b.references call inCleanup = .ok es) {e : Event}
    (he : e ∈ es) :
    (∃ r, e = .reference r) ∨ ∃ setter, e = .deferred setter := by
  unfold references at h
  simp only at h
  split at h
  · cases h
    obtain ⟨arg, -, he⟩ := List.mem_flatMap.1 he
    exact cases_of_mem_referenceEvents he
  · obtain ⟨later, -, h⟩ := bind_eq_ok.1 h
    split at h
    · cases h
      obtain ⟨arg, -, he⟩ := List.mem_flatMap.1 he
      exact cases_of_mem_referenceEvents he
    · cases h
      cases he

/-- So no reference counts as an update. -/
theorem not_isUpdate_of_mem_references {b : Body} {call : Node}
    {inCleanup : Bool} {es : List Event}
    (h : b.references call inCleanup = .ok es) {e : Event} (he : e ∈ es) :
    e.isUpdate = false := by
  rcases cases_of_mem_references h he with ⟨r, rfl⟩ | ⟨setter, rfl⟩
  · rfl
  · rfl

/-- The events of a body are those of its calls: of what they hand over, and
of what they call. -/
theorem mem_events {b : Body} {sites : List Site} {es : List Event}
    (hsites : b.sites = .ok sites) (hes : b.events = .ok es) {e : Event} :
    e ∈ es ↔ ∃ s ∈ sites,
      ∃ refs, b.references s.call (b.inCleanup s.call) = .ok refs ∧
      (e ∈ refs ∨ e ∈ b.calleeEvents s (b.inCleanup s.call)) := by
  obtain ⟨sites', hsites', hrest⟩ := bind_eq_ok.1 hes
  obtain rfl : sites = sites' := Except.ok.inj (hsites.symm.trans hsites')
  obtain ⟨parts, hparts, hflat⟩ := bind_eq_ok.1 hrest
  cases hflat
  rw [List.mem_flatten]
  constructor
  · rintro ⟨part, hpart, hmem⟩
    obtain ⟨s, hs, hsite⟩ := (mem_of_mapM hparts).1 hpart
    obtain ⟨refs, hrefs, hsite⟩ := bind_eq_ok.1 hsite
    cases hsite
    exact ⟨s, hs, refs, hrefs, List.mem_append.1 hmem⟩
  · rintro ⟨s, hs, refs, hrefs, hmem⟩
    refine ⟨_, (mem_of_mapM hparts).2 ⟨s, hs, bind_eq_ok.2 ⟨refs, hrefs, rfl⟩⟩,
      ?_⟩
    exact List.mem_append.2 hmem

/-- The events of a body are there only if the references of all its calls
are. -/
theorem exists_references {b : Body} {sites : List Site} {es : List Event}
    (hsites : b.sites = .ok sites) (hes : b.events = .ok es) {s : Site}
    (hs : s ∈ sites) :
    ∃ refs, b.references s.call (b.inCleanup s.call) = .ok refs := by
  obtain ⟨sites', hsites', hrest⟩ := bind_eq_ok.1 hes
  obtain rfl : sites = sites' := Except.ok.inj (hsites.symm.trans hsites')
  obtain ⟨parts, hparts, -⟩ := bind_eq_ok.1 hrest
  obtain ⟨part, hpart⟩ := exists_of_mapM hparts hs
  obtain ⟨refs, hrefs, -⟩ := bind_eq_ok.1 hpart
  exact ⟨refs, hrefs⟩

/-- The updates among the events of a body are those by its calls that run
with it. -/
theorem mem_events_of_isUpdate {b : Body} {sites : List Site} {es : List Event}
    (hsites : b.sites = .ok sites) (hes : b.events = .ok es) {e : Event}
    (he : e.isUpdate = true) :
    e ∈ es ↔ ∃ s ∈ sites, s.deferred = false ∧
      ∃ setter, b.Reaches s.call setter ∧
        e = b.update s.call setter (b.inCleanup s.call) := by
  rw [mem_events hsites hes]
  constructor
  · rintro ⟨s, hs, refs, hrefs, hmem | hmem⟩
    · rw [not_isUpdate_of_mem_references hrefs hmem] at he
      cases he
    · exact ⟨s, hs, (mem_calleeEvents he).1 hmem⟩
  · rintro ⟨s, hs, hupdate⟩
    obtain ⟨refs, hrefs⟩ := exists_references hsites hes hs
    exact ⟨s, hs, refs, hrefs, .inr ((mem_calleeEvents he).2 hupdate)⟩

/-- Under well-formed settings the events of a body are found. -/
theorem exists_events {b : Body} (h : b.ctx.options.WellFormed) :
    ∃ es, b.events = .ok es := by
  obtain ⟨sites, hsites⟩ := exists_scanCalls h b.skipped b.callback
  have hsite : ∀ s ∈ sites, ∃ es, b.siteEvents b.cleanups s = .ok es := by
    intro s _
    have hrefs : ∃ es, b.references s.call (b.inCleanup s.call) = .ok es := by
      unfold references
      simp only
      split
      · exact ⟨_, rfl⟩
      · obtain ⟨later, hlater⟩ := exists_callsBackLater h s.call
        cases later with
        | true => exact ⟨_, bind_eq_ok.2 ⟨true, hlater, rfl⟩⟩
        | false => exact ⟨_, bind_eq_ok.2 ⟨false, hlater, rfl⟩⟩
    obtain ⟨refs, hrefs⟩ := hrefs
    exact ⟨_, bind_eq_ok.2 ⟨refs, hrefs, rfl⟩⟩
  obtain ⟨parts, hparts⟩ := exists_mapM hsite
  exact ⟨_, bind_eq_ok.2 ⟨sites, hsites, bind_eq_ok.2 ⟨parts, hparts, rfl⟩⟩⟩

/-! ### The record -/

/-- A call that updates a setter while the body runs. -/
structure IsUpdateSite (b : Body) (setter : String) (s : Site) : Prop where
  now : s.deferred = false
  outside : b.inCleanup s.call = false
  reaches : b.Reaches s.call setter

variable {b : Body} {origins : Table (List String)} {i : Interaction}
  {sites : List Site}

/-- An update is recorded as a modification iff it is outside the clean-up and
has no guard. -/
theorem update_eq_modified {call : Node} {reached setter : String}
    {inCleanup : Bool} :
    b.update call reached inCleanup = .modified setter ↔
      inCleanup = false ∧ reached = setter ∧ b.guardAt? setter call = none := by
  unfold update
  cases inCleanup with
  | true => simp
  | false =>
    simp only [Bool.false_eq_true, if_false, true_and]
    constructor
    · intro h
      split at h
      · next hnone =>
        cases h
        exact ⟨rfl, hnone⟩
      · cases h
    · rintro ⟨rfl, hnone⟩
      unfold guardAt? at hnone
      rw [hnone]

/-- And with its guard iff it has one. -/
theorem update_eq_guarded {call : Node} {reached : String} {inCleanup : Bool}
    {g : Guard} :
    b.update call reached inCleanup = .guarded g ↔
      inCleanup = false ∧ reached = g.setter ∧
        b.guardAt? g.setter call = some g := by
  unfold update
  cases inCleanup with
  | true => simp
  | false =>
    simp only [Bool.false_eq_true, if_false, true_and]
    constructor
    · intro h
      split at h
      · cases h
      · next g' hsome =>
        cases h
        obtain rfl : g.setter = reached := Guard.setter_of_inEffect? hsome
        exact ⟨rfl, hsome⟩
    · rintro ⟨rfl, hsome⟩
      unfold guardAt? at hsome
      rw [hsome]

/-- The setters listed as modified: some call reaches them, and no guard is
around it. -/
theorem mem_modifications (hsites : b.sites = .ok sites)
    (hi : b.interaction origins = .ok i) {setter : String} :
      setter ∈ i.modifications ↔ ∃ s ∈ sites, b.IsUpdateSite setter s ∧
      b.guardAt? setter s.call = none := by
  obtain ⟨es, hes, h⟩ := bind_eq_ok.1 hi
  cases h
  have hlisted : setter ∈ (b.record origins es).modifications ↔
      Event.modified setter ∈ es := by
    unfold record
    rw [mem_sortedUnique, List.mem_filterMap]
    constructor
    · rintro ⟨e, he, hname⟩
      cases e <;> cases hname
      exact he
    · intro he
      exact ⟨_, he, rfl⟩
  rw [hlisted, mem_events_of_isUpdate hsites hes rfl]
  constructor
  · rintro ⟨s, hs, hnow, reached, hreach, he⟩
    obtain ⟨hout, rfl, hnone⟩ := update_eq_modified.1 he.symm
    exact ⟨s, hs, ⟨hnow, hout, hreach⟩, hnone⟩
  · rintro ⟨s, hs, ⟨hnow, hout, hreach⟩, hnone⟩
    exact ⟨s, hs, hnow, setter, hreach,
      (update_eq_modified.2 ⟨hout, rfl, hnone⟩).symm⟩

/-- The guards listed are those around the calls that reach a setter. -/
theorem mem_guarded (hsites : b.sites = .ok sites)
    (hi : b.interaction origins = .ok i) {g : Guard} : g ∈ i.guarded ↔
      ∃ s ∈ sites, b.IsUpdateSite g.setter s ∧
        b.guardAt? g.setter s.call = some g := by
  obtain ⟨es, hes, h⟩ := bind_eq_ok.1 hi
  cases h
  have hlisted : g ∈ (b.record origins es).guarded ↔ Event.guarded g ∈ es := by
    unfold record
    simp only
    rw [List.mem_eraseDups, List.mem_filterMap]
    constructor
    · rintro ⟨e, he, hguard⟩
      cases e <;> cases hguard
      exact he
    · intro he
      exact ⟨_, he, rfl⟩
  rw [hlisted, mem_events_of_isUpdate hsites hes rfl]
  constructor
  · rintro ⟨s, hs, hnow, reached, hreach, he⟩
    obtain ⟨hout, rfl, hsome⟩ := update_eq_guarded.1 he.symm
    exact ⟨s, hs, ⟨hnow, hout, hreach⟩, hsome⟩
  · rintro ⟨s, hs, ⟨hnow, hout, hreach⟩, hsome⟩
    exact ⟨s, hs, hnow, g.setter, hreach,
      (update_eq_guarded.2 ⟨hout, rfl, hsome⟩).symm⟩

end Body

end Update

end RenderLoop
