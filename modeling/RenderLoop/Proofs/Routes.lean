import RenderLoop.Proofs.Confidence

/-!
# The route that a finding states

A confirmed finding on an effect says which way the effect gets to the setter:
by a call of its own, through a helper or through an imported function. It
looks the way up by the name of the setter, among the routes of all calls that
run with the body. So the route it states is always taken by a call, but the
verdict may rest on other calls:

> `checks_state_routes`: a stated route is taken by a call that counts, unless
> the calls that take it are guarded or in the clean-up. Without a dependency
> array a direct call is also stated where the setter is only handed to
> imported functions, or only left to helpers for later.

The record lists for each setter the helpers and the imported calls in the
order of the calls, and a finding takes the first of them. `FirstTakes` says
that of the calls themselves: the first call that goes this way, with none
before it. Whether that call is one on which the verdict rests is a different
question, and the exceptions are the answers to it.
-/

namespace RenderLoop

open Update (Body Event Site)

open Check (Route)

def Check.Route.isHelper : Route → Bool
  | helper _ => true
  | _ => false

namespace Update

/-- The setter and the route that an event records. -/
def Event.route? : Event → Option (String × Route)
  | indirect helper setter => some (setter, .helper helper)
  | imported c => some (c.setter, .imported c)
  | _ => none

namespace Body

variable {b : Body} {call : Node} {s : Site} {sites : List Site}
  {setter name : String} {origins : Table (List String)} {i : Interaction}
  {inCleanup : Bool} {ρ : Route}

/-! ### The routes of a call -/

/-- A call gets to a setter by a route. -/
inductive Takes (b : Body) (call : Node) (setter : String) : Route → Prop where
  | direct (hkey : call.calleeKey? = some setter)
      (hsetter : b.facts.isSetter setter = true) :
      Takes b call setter .direct
  | helper (name : String) (hkey : call.calleeKey? = some name)
      (hother : b.facts.isSetter name = false)
      (hhelper : b.helpers.isHelper name = true)
      (hreach : setter ∈ b.helpers.settersNow name) :
        Takes b call setter (.helper name)
  | imported (name : String) (taker : SetterTaker) (position depth : Nat)
      (arg : Node) (hkey : call.calleeKey? = some name)
      (hother : b.facts.isSetter name = false)
      (hhelper : b.helpers.isHelper name = false)
      (htaker : b.imported name = some taker)
      (harg : call.arguments[position]? = some arg)
      (hkind : arg.bare.kind = .identifier)
      (htext : arg.bare.text = setter)
      (hsetter : b.facts.isSetter setter = true)
      (hdepth : taker.depthAt? position = some depth) :
      Takes b call setter
        (.imported ⟨setter, taker.name, taker.file, depth, call.line⟩)

theorem Takes.setter_imported {c : ImportedCall}
    (h : b.Takes call setter (.imported c)) :
    c.setter = setter := by
  cases h
  rfl

/-- The setters that a call reaches are those it gets to by some route. -/
theorem reaches_iff_takes :
    b.Reaches call setter ↔ ∃ ρ, b.Takes call setter ρ := by
  constructor
  · intro h
    cases h with
    | direct hkey hsetter => exact ⟨_, .direct hkey hsetter⟩
    | helper name hkey hother hhelper hreach =>
      exact ⟨_, .helper name hkey hother hhelper hreach⟩
    | handed name taker position depth arg hkey hother hhelper htaker harg hkind
        htext hsetter hdepth =>
      exact ⟨_, .imported name taker position depth arg hkey hother hhelper
        htaker harg hkind htext hsetter hdepth⟩
  · rintro ⟨ρ, h⟩
    cases h with
    | direct hkey hsetter => exact .direct hkey hsetter
    | helper name hkey hother hhelper hreach =>
      exact .helper name hkey hother hhelper hreach
    | imported name taker position depth arg hkey hother hhelper htaker harg
        hkind htext hsetter hdepth =>
      exact .handed name taker position depth arg hkey hother hhelper htaker
        harg hkind htext hsetter hdepth

theorem indirect_ne_update {reached : String} :
    .indirect name setter ≠ b.update call reached inCleanup :=
  ne_update rfl

/-- A call of a helper records the helper as the way to each of its
setters. -/
theorem indirect_mem_helperCall {helper : String} :
    .indirect name setter ∈ b.helperCall s helper inCleanup ↔
      s.deferred = false ∧ name = helper ∧
        setter ∈ b.helpers.settersNow helper := by
  unfold helperCall
  rw [List.mem_append, or_iff_left (by simp), List.mem_flatMap]
  cases s.deferred with
  | true => simp
  | false =>
    simp only [mem_sortedUnique, Bool.false_eq_true, if_false, List.mem_cons,
      indirect_ne_update, List.not_mem_nil, or_false,
      Event.indirect.injEq, true_and]
    constructor
    · rintro ⟨reached, hreach, rfl, rfl⟩
      exact ⟨rfl, hreach⟩
    · rintro ⟨rfl, hreach⟩
      exact ⟨setter, hreach, rfl, rfl⟩

theorem indirect_not_mem_setterCall {called : String} :
    .indirect name setter ∉ b.setterCall s called inCleanup := by
  intro h
  rcases cases_of_mem_setterCall h with h | h | h
  · cases h
  · cases h
  · exact indirect_ne_update h

theorem indirect_not_mem_importedCall {called : String} :
    .indirect name setter ∉ b.importedCall call called inCleanup := by
  intro h
  rcases cases_of_mem_importedCall h with ⟨c, h⟩ | ⟨reached, h⟩
  · cases h
  · exact indirect_ne_update h

/-- The helper routes on record are those of the calls that run with the
body. -/
theorem indirect_mem_calleeEvents :
    .indirect name setter ∈ b.calleeEvents s inCleanup ↔
    s.deferred = false ∧ b.Takes s.call setter (.helper name) := by
  unfold calleeEvents
  constructor
  · intro h
    split at h
    · cases h
    · next called hkey =>
      split at h
      · exact absurd h indirect_not_mem_setterCall
      · next hother =>
        split at h
        · next hhelper =>
          obtain ⟨hnow, rfl, hreach⟩ := indirect_mem_helperCall.1 h
          exact ⟨hnow, .helper name hkey (by simpa using hother) hhelper hreach⟩
        · split at h
          · cases h
          · exact absurd h indirect_not_mem_importedCall
  · rintro ⟨hnow, htakes⟩
    cases htakes with
    | helper _ hkey hother hhelper hreach =>
      rw [hkey]
      simp only [hother, hhelper, if_true, Bool.false_eq_true, if_false]
      exact indirect_mem_helperCall.2 ⟨hnow, rfl, hreach⟩

/-- So are the imported ones. -/
theorem imported_mem_calleeEvents_iff_takes {c : ImportedCall} :
    .imported c ∈ b.calleeEvents s inCleanup ↔ s.deferred = false ∧
    b.Takes s.call c.setter (.imported c) := by
  rw [imported_mem_calleeEvents]
  refine and_congr_right fun _ => ⟨?_, fun htakes => ?_⟩
  · rintro ⟨name, taker, position, depth, arg, hkey, hother, hhelper, htaker,
      harg, hkind, hsetter, hdepth, rfl⟩
    exact .imported name taker position depth arg hkey hother hhelper htaker
      harg hkind rfl hsetter hdepth
  · obtain ⟨setter, function, file, chain, line⟩ := c
    cases htakes with
    | imported name taker position _ arg hkey hother hhelper htaker harg hkind
        htext hsetter hdepth =>
      subst htext
      exact ⟨name, taker, position, chain, arg, hkey, hother, hhelper, htaker,
        harg, hkind, hsetter, hdepth, rfl⟩

/-- A route that leads through another function is on record iff the call runs
with the body. -/
theorem mem_calleeEvents_of_route? {e : Event}
    (h : e.route? = some (setter, ρ)) :
    e ∈ b.calleeEvents s inCleanup ↔ s.deferred = false ∧
      b.Takes s.call setter ρ := by
  cases e <;> cases h
  · exact imported_mem_calleeEvents_iff_takes
  · exact indirect_mem_calleeEvents

/-- Every way through another function leaves a record. -/
theorem Takes.exists_event (h : b.Takes call setter ρ) (hother : ρ ≠ .direct) :
    ∃ e : Event, e.route? = some (setter, ρ) := by
  cases ρ with
  | direct => exact absurd rfl hother
  | helper name => exact ⟨.indirect name setter, rfl⟩
  | imported c => exact ⟨.imported c, by rw [Event.route?, h.setter_imported]⟩

/-! ### The route on record -/

/-- No call that runs with the body gets to a setter by a route of some kind. -/
def NoneTakes (b : Body) (sites : List Site) (setter : String)
    (kind : Route → Bool) : Prop :=
  ∀ s ∈ sites, s.deferred = false → ∀ ρ, b.Takes s.call setter ρ →
    kind ρ = false

/-- Of the calls that run with the body and get to a setter by a route of some
kind, the first takes this one. -/
def FirstTakes (b : Body) (sites : List Site) (setter : String)
    (kind : Route → Bool) (ρ : Route) : Prop :=
  ∃ before s after, sites = before ++ s :: after ∧ s.deferred = false ∧
    b.Takes s.call setter ρ ∧ kind ρ = true ∧ b.NoneTakes before setter kind

/-- The first event that records a route is one of the first call that has
any. -/
theorem exists_first_site {es : List Event} {e : Event} {p : Event → Bool}
    (hsites : b.sites = .ok sites) (hes : b.events = .ok es)
    (hroute : ∀ e, p e = true → e.route?.isSome = true)
    (h : es.find? p = some e) : ∃ before s after, sites = before ++ s :: after ∧
      e ∈ b.calleeEvents s (b.inCleanup s.call) ∧
      ∀ t ∈ before, ∀ e ∈ b.calleeEvents t (b.inCleanup t.call),
        p e = false := by
  obtain ⟨sites', hsites', hrest⟩ := bind_eq_ok.1 hes
  obtain rfl : sites = sites' := Except.ok.inj (hsites.symm.trans hsites')
  obtain ⟨parts, hparts, hflat⟩ := bind_eq_ok.1 hrest
  cases hflat
  obtain ⟨hp, front, fore, aft, rest, rfl, hfront, -⟩ :=
    List.find?_flatten_eq_some_iff.1 h
  obtain ⟨before, s, after, rfl, hsite, hbefore⟩ := exists_split_of_mapM hparts
  refine ⟨before, s, after, rfl, ?_, fun t ht e' he' => ?_⟩
  · obtain ⟨refs, hrefs, hsite⟩ := bind_eq_ok.1 hsite
    have hmem : e ∈ refs ++
        b.calleeEvents s (b.cleanups.any (·.encloses s.call)) := by
      rw [Except.ok.inj hsite]
      exact List.mem_append_right _ List.mem_cons_self
    rcases List.mem_append.1 hmem with hmem | hmem
    · -- what is handed over records no route
      rcases cases_of_mem_references hrefs hmem with ⟨r, rfl⟩ | ⟨setter, rfl⟩
      · cases hroute _ hp
      · cases hroute _ hp
    · exact hmem
  · obtain ⟨part, hpart, hsite⟩ := hbefore t ht
    obtain ⟨refs, -, hsite⟩ := bind_eq_ok.1 hsite
    have hmem : e' ∈ part := by
      rw [← Except.ok.inj hsite]
      exact List.mem_append_right _ he'
    simpa using hfront part hpart e' hmem

section Lookup

variable {es : List Event} {kind : Route → Bool} {p : Event → Bool}

/-- Looking for the routes of a kind to a setter finds that of the first call
that takes one. -/
theorem firstTakes_of_find? {e : Event} (hsites : b.sites = .ok sites)
    (hes : b.events = .ok es) (hdirect : kind .direct = false)
    (hp : ∀ e, p e = true ↔ ∃ ρ, e.route? = some (setter, ρ) ∧ kind ρ = true)
    (h : es.find? p = some e) (hρ : e.route? = some (setter, ρ)) :
    b.FirstTakes sites setter kind ρ := by
  have hroute : ∀ e, p e = true → e.route?.isSome = true := by
    intro e he
    obtain ⟨ρ, hρ, -⟩ := (hp e).1 he
    rw [hρ]
    rfl
  obtain ⟨before, s, after, rfl, hmem, hbefore⟩ :=
    exists_first_site hsites hes hroute h
  obtain ⟨hnow, htakes⟩ := (mem_calleeEvents_of_route? hρ).1 hmem
  obtain ⟨ρ', hρ', hkind⟩ := (hp e).1 (List.find?_some h)
  obtain rfl : ρ = ρ' := (Prod.mk.inj (Option.some.inj (hρ.symm.trans hρ'))).2
  refine ⟨before, s, after, rfl, hnow, htakes, hkind, fun t ht hnow τ hτ => ?_⟩
  -- an earlier call with such a route would have given the search an earlier
  -- event
  by_contra hkind
  have hother : τ ≠ .direct := by
    rintro rfl
    exact hkind hdirect
  obtain ⟨e', he'⟩ := hτ.exists_event hother
  have hnot := hbefore t ht e' ((mem_calleeEvents_of_route? he').2 ⟨hnow, hτ⟩)
  rw [(hp e').2 ⟨τ, he', by simpa using hkind⟩] at hnot
  cases hnot

/-- If nothing is on record, no call takes such a way. -/
theorem noneTakes_of_find? (hsites : b.sites = .ok sites)
    (hes : b.events = .ok es) (hdirect : kind .direct = false)
    (hp : ∀ e, p e = true ↔ ∃ ρ, e.route? = some (setter, ρ) ∧ kind ρ = true)
    (h : es.find? p = none) : b.NoneTakes sites setter kind := by
  intro s hs hnow ρ hρ
  by_contra hkind
  have hother : ρ ≠ .direct := by
    rintro rfl
    exact hkind hdirect
  obtain ⟨e, he⟩ := hρ.exists_event hother
  obtain ⟨refs, hrefs⟩ := exists_references hsites hes hs
  have hmem : e ∈ es := (mem_events hsites hes).2
    ⟨s, hs, refs, hrefs, .inr ((mem_calleeEvents_of_route? he).2 ⟨hnow, hρ⟩)⟩
  exact List.find?_eq_none.1 h e hmem ((hp e).2 ⟨ρ, he, by simpa using hkind⟩)

end Lookup

/-- The events that record a helper for a setter. -/
theorem any_indirect?_iff (e : Event) :
    (e.indirect?.any (·.2 == setter)) = true ↔
    ∃ ρ, e.route? = some (setter, ρ) ∧ ρ.isHelper = true := by
  cases e <;> simp [Event.indirect?, Event.route?, Route.isHelper, and_assoc]

/-- The events that record an imported function for it. -/
theorem any_imported?_iff (e : Event) :
    (e.imported?.any (·.setter == setter)) = true ↔
    ∃ ρ, e.route? = some (setter, ρ) ∧ ρ.isImported = true := by
  cases e <;> simp [Event.imported?, Event.route?, Route.isImported, and_assoc]

section Record

variable (hsites : b.sites = .ok sites) (hi : b.interaction origins = .ok i)

include hsites hi

/-- The helper on record is that of the first call. -/
theorem helperFor?_eq_some (h : i.helperFor? setter = some name) :
    b.FirstTakes sites setter Route.isHelper (.helper name) := by
  obtain ⟨es, hes, hrecord⟩ := bind_eq_ok.1 hi
  cases hrecord
  obtain ⟨⟨helper, reached⟩, hfind, rfl⟩ := Option.map_eq_some_iff.1 h
  obtain rfl : reached = setter := by simpa using List.find?_some hfind
  unfold record at hfind
  rw [find?_eraseDups, List.find?_filterMap] at hfind
  obtain ⟨e, he, hpair⟩ := Option.bind_eq_some_iff.1 hfind
  refine firstTakes_of_find? hsites hes rfl any_indirect?_iff he ?_
  cases e <;> cases hpair
  rfl

/-- If none is on record, no call goes through a helper. -/
theorem helperFor?_eq_none (h : i.helperFor? setter = none) :
    b.NoneTakes sites setter Route.isHelper := by
  obtain ⟨es, hes, hrecord⟩ := bind_eq_ok.1 hi
  cases hrecord
  refine noneTakes_of_find? hsites hes rfl any_indirect?_iff ?_
  have hnone := Option.map_eq_none_iff.1 h
  unfold record at hnone
  rwa [find?_eraseDups, find?_filterMap_eq_none] at hnone

/-- The imported function on record is that of the first call. -/
theorem importedCallFor?_eq_some {c : ImportedCall}
    (h : i.importedCallFor? setter = some c) :
    b.FirstTakes sites setter Route.isImported (.imported c) := by
  obtain ⟨es, hes, hrecord⟩ := bind_eq_ok.1 hi
  cases hrecord
  obtain rfl : c.setter = setter := by simpa using List.find?_some h
  unfold Interaction.importedCallFor? record at h
  rw [find?_eraseDups, List.find?_filterMap] at h
  obtain ⟨e, he, hcall⟩ := Option.bind_eq_some_iff.1 h
  refine firstTakes_of_find? hsites hes rfl any_imported?_iff he ?_
  cases e <;> cases hcall
  rfl

/-- If none is on record, no call hands the setter to an imported function. -/
theorem importedCallFor?_eq_none (h : i.importedCallFor? setter = none) :
    b.NoneTakes sites setter Route.isImported := by
  obtain ⟨es, hes, hrecord⟩ := bind_eq_ok.1 hi
  cases hrecord
  refine noneTakes_of_find? hsites hes rfl any_imported?_iff ?_
  unfold Interaction.importedCallFor? record at h
  rwa [find?_eraseDups, find?_filterMap_eq_none] at h

end Record

/-- The route on record for a setter: that of the first call that hands it to
an imported function; if there is none, of the first call of a helper that
reaches it. -/
inductive RecordedRoute (b : Body) (sites : List Site) (setter : String) :
    Route → Prop where
  | imported (c : ImportedCall)
      (hfirst : b.FirstTakes sites setter Route.isImported (.imported c)) :
      RecordedRoute b sites setter (.imported c)
  | helper (name : String)
      (himported : b.NoneTakes sites setter Route.isImported)
      (hfirst : b.FirstTakes sites setter Route.isHelper (.helper name)) :
      RecordedRoute b sites setter (.helper name)
  | direct (himported : b.NoneTakes sites setter Route.isImported)
      (hhelper : b.NoneTakes sites setter Route.isHelper) :
        RecordedRoute b sites setter .direct

/-- The route that is looked up is the one on record. -/
theorem recordedRoute_routeTo (hsites : b.sites = .ok sites)
    (hi : b.interaction origins = .ok i) (setter : String) :
    b.RecordedRoute sites setter (Check.routeTo i setter) := by
  unfold Check.routeTo
  cases himported : i.importedCallFor? setter with
  | some c => exact .imported c (importedCallFor?_eq_some hsites hi himported)
  | none =>
    have hnone := importedCallFor?_eq_none hsites hi himported
    cases hhelper : i.helperFor? setter with
    | some name =>
      exact .helper name hnone (helperFor?_eq_some hsites hi hhelper)
    | none => exact .direct hnone (helperFor?_eq_none hsites hi hhelper)

/-- The helper on record for a setter, whatever imported functions it is
handed to. -/
inductive RecordedHelper (b : Body) (sites : List Site) (setter : String) :
    Route → Prop where
  | helper (name : String)
      (hfirst : b.FirstTakes sites setter Route.isHelper (.helper name)) :
      RecordedHelper b sites setter (.helper name)
  | direct (hnone : b.NoneTakes sites setter Route.isHelper) :
      RecordedHelper b sites setter .direct

/-! ### The calls that a verdict rests on -/

/-- A call that updates a setter on every run gets to it by a route. -/
structure LoopsBy (b : Body) (setter : String) (ρ : Route) (s : Site) :
    Prop where
  site : b.IsUpdateSite setter s
  free : b.guardAt? setter s.call = none
  takes : b.Takes s.call setter ρ

/-- A call hands a name to something that calls it later. -/
def GivesAway (b : Body) (call : Node) (name : String) : Prop :=
  (eventListeners.contains (receiverName call) = true ∨
    callsBackLater b.ctx call = .ok true) ∧
    ∃ arg ∈ call.arguments,
    (arg.bare.kind = .identifier ∨ arg.bare.kind = .member) ∧
    arg.bare.text = name

/-- A call leaves the update of a setter for later, by a route: it runs later
itself, its helper does a part later, or it gives the setter or a helper
away. -/
inductive LeavesBy (b : Body) (s : Site) (setter : String) : Route → Prop where
  | called (ρ : Route) (hlater : s.deferred = true)
      (hown : ρ.isImported = false) (htakes : b.Takes s.call setter ρ) :
      LeavesBy b s setter ρ
  | inHelper (name : String) (hkey : s.call.calleeKey? = some name)
      (hother : b.facts.isSetter name = false)
      (hhelper : b.helpers.isHelper name = true)
      (hreach : setter ∈ b.helpers.settersLater name) :
        LeavesBy b s setter (.helper name)
  | given (hout : b.inCleanup s.call = false)
      (hgives : b.GivesAway s.call setter)
      (hsetter : b.facts.isSetter setter = true) : LeavesBy b s setter .direct
  | givenHelper (name : String) (hout : b.inCleanup s.call = false)
      (hgives : b.GivesAway s.call name)
      (hother : b.facts.isSetter name = false)
      (hhelper : b.helpers.isHelper name = true)
      (hreach : setter ∈ b.helpers.settersNow name ∨
        setter ∈ b.helpers.settersLater name) :
      LeavesBy b s setter (.helper name)

/-- A call makes an effect without dependency array run again, by a route: no
safe guard is around it, or it leaves the update for later, whatever is around
it. -/
inductive RerunsBy (b : Body) (setter : String) (ρ : Route) (s : Site) :
    Prop where
  | now (hsite : b.IsUpdateSite setter s)
      (hguard : ∀ g, b.guardAt? setter s.call = some g → g.isSafe = false)
      (htakes : b.Takes s.call setter ρ)
  | later (hleaves : b.LeavesBy s setter ρ)

/-- A call leaves an update for later by some route iff it is counted as
such. -/
theorem exists_leavesBy_iff : (∃ ρ, b.LeavesBy s setter ρ) ↔
    b.UpdatesLater s setter ∨ b.inCleanup s.call = false ∧
      b.HandsOver s.call setter := by
  constructor
  · rintro ⟨ρ, h⟩
    cases h with
    | called _ hlater hown htakes =>
      cases htakes with
      | direct hkey hsetter => exact .inl (.direct hlater hkey hsetter)
      | helper name hkey hother hhelper hreach =>
        exact .inl (.helper name hlater hkey hother hhelper hreach)
      | imported => cases hown
    | inHelper name hkey hother hhelper hreach =>
      exact .inl (.inHelper name hkey hother hhelper hreach)
    | given hout hgives hsetter =>
      obtain ⟨hlater, arg, harg, hkind, rfl⟩ := hgives
      exact .inr ⟨hout, hlater, arg, harg,
        hkind, by rw [StandsFor, if_pos hsetter]⟩
    | givenHelper name hout hgives hother hhelper hreach =>
      obtain ⟨hlater, arg, harg, hkind, rfl⟩ := hgives
      refine .inr ⟨hout, hlater, arg, harg, hkind, ?_⟩
      rw [StandsFor, if_neg (by simp [hother])]
      exact ⟨hhelper, hreach⟩
  · rintro (h | ⟨hout, hlater, arg, harg, hkind, hstands⟩)
    · cases h with
      | direct hlater hkey hsetter =>
        exact ⟨_, .called _ hlater rfl (.direct hkey hsetter)⟩
      | helper name hlater hkey hother hhelper hreach =>
        exact ⟨_, .called _ hlater rfl
          (.helper name hkey hother hhelper hreach)⟩
      | inHelper name hkey hother hhelper hreach =>
        exact ⟨_, .inHelper name hkey hother hhelper hreach⟩
    · have hgives : b.GivesAway s.call arg.bare.text :=
        ⟨hlater, arg, harg, hkind, rfl⟩
      unfold StandsFor at hstands
      split at hstands
      · next hsetter =>
        rw [hstands] at hgives hsetter
        exact ⟨_, .given hout hgives hsetter⟩
      · next hother =>
        exact ⟨_, .givenHelper _ hout hgives (by simpa using hother)
          hstands.1 hstands.2⟩

/-- The setters that an effect without dependency array must not reach are
those of the calls that make it run again. -/
theorem mem_reachedSetters_iff_rerunsBy (hsites : b.sites = .ok sites)
    (hi : b.interaction origins = .ok i) : setter ∈ Check.reachedSetters i ↔
      ∃ s ∈ sites, ∃ ρ, b.RerunsBy setter ρ s := by
  rw [Check.mem_reachedSetters, mem_modifications hsites hi,
    mem_deferred hsites hi]
  constructor
  · rintro (⟨s, hs, hsite, hfree⟩ | ⟨s, hs, hlater⟩ | ⟨g, hg, hunsafe, rfl⟩)
    · obtain ⟨ρ, htakes⟩ := reaches_iff_takes.1 hsite.reaches
      exact ⟨s, hs, ρ, .now hsite (by simp [hfree]) htakes⟩
    · obtain ⟨ρ, hleaves⟩ := exists_leavesBy_iff.2 hlater
      exact ⟨s, hs, ρ, .later hleaves⟩
    · obtain ⟨s, hs, hsite, hguard⟩ := (mem_guarded hsites hi).1 hg
      obtain ⟨ρ, htakes⟩ := reaches_iff_takes.1 hsite.reaches
      exact ⟨s, hs, ρ, .now hsite (by simp [hguard, hunsafe]) htakes⟩
  · rintro ⟨s, hs, ρ, h⟩
    cases h with
    | now hsite hguard htakes =>
      cases hg : b.guardAt? setter s.call with
      | none => exact .inl ⟨s, hs, hsite, hg⟩
      | some g =>
        obtain rfl : g.setter = setter := Guard.setter_of_inEffect? hg
        exact .inr (.inr ⟨g, (mem_guarded hsites hi).2 ⟨s, hs, hsite, hg⟩,
          hguard g hg, rfl⟩)
    | later hleaves =>
      exact .inr (.inl ⟨s, hs, exists_leavesBy_iff.1 ⟨ρ, hleaves⟩⟩)

/-! ### Routes that are stated -/

/-- A call that runs with the body takes a route in the clean-up, or under a
guard of some kind. -/
def TakesApart (b : Body) (sites : List Site) (setter : String) (ρ : Route)
    (kind : Guard → Prop) : Prop :=
  ∃ s ∈ sites, s.deferred = false ∧ b.Takes s.call setter ρ ∧
    (b.inCleanup s.call = true ∨
      ∃ g, b.guardAt? setter s.call = some g ∧ kind g)

/-- The route stated for a setter that is updated on every run. It is that of
such an update, unless it leads through another function and is only taken in
the clean-up or under a guard. -/
structure LoopRoute (b : Body) (sites : List Site) (setter : String)
    (ρ : Route) : Prop where
  recorded : b.RecordedRoute sites setter ρ
  loops : ∃ s ∈ sites, ∃ τ, b.LoopsBy setter τ s
  real : (∃ s ∈ sites, b.LoopsBy setter ρ s) ∨
    ρ ≠ .direct ∧ b.TakesApart sites setter ρ fun _ => True

/-- The route stated for a setter that makes an effect without dependency
array run again. It is that of a call that does so, with two exceptions: a
helper may be called only in the clean-up or under a safe guard, and a direct
call is stated as well where the setter is only handed to imported functions
or left to helpers. -/
structure RerunRoute (b : Body) (sites : List Site) (setter : String)
    (ρ : Route) : Prop where
  recorded : b.RecordedHelper sites setter ρ
  reruns : ∃ s ∈ sites, ∃ τ, b.RerunsBy setter τ s
  real : (∃ s ∈ sites, b.RerunsBy setter ρ s) ∨
    ρ ≠ .direct ∧ b.TakesApart sites setter ρ (·.isSafe = true) ∨
    ρ = .direct ∧ ∀ s ∈ sites, ∀ τ, b.RerunsBy setter τ s →
      τ.isImported = true ∨ τ.isHelper = true ∧ b.LeavesBy s setter τ

/-- The call whose route is on record updates the setter, or stands in the
clean-up. -/
theorem FirstTakes.exists_site {kind : Route → Bool}
    (h : b.FirstTakes sites setter kind ρ) :
    ∃ s ∈ sites, s.deferred = false ∧ b.Takes s.call setter ρ ∧
      (b.inCleanup s.call = true ∨ b.IsUpdateSite setter s) := by
  obtain ⟨before, s, after, rfl, hnow, htakes, -, -⟩ := h
  refine ⟨s, List.mem_append_right _ List.mem_cons_self, hnow, htakes, ?_⟩
  cases hout : b.inCleanup s.call with
  | true => exact .inl rfl
  | false => exact .inr ⟨hnow, hout, reaches_iff_takes.2 ⟨ρ, htakes⟩⟩

/-- The first call that takes a route makes the loop, or is guarded or in the
clean-up. -/
theorem FirstTakes.loopsBy_or {kind : Route → Bool}
    (h : b.FirstTakes sites setter kind ρ) :
    (∃ s ∈ sites, b.LoopsBy setter ρ s) ∨
      b.TakesApart sites setter ρ fun _ => True := by
  obtain ⟨s, hs, hnow, htakes, hin | hsite⟩ := h.exists_site
  · exact .inr ⟨s, hs, hnow, htakes, .inl hin⟩
  · cases hguard : b.guardAt? setter s.call with
    | some g => exact .inr ⟨s, hs, hnow, htakes, .inr ⟨g, hguard, trivial⟩⟩
    | none => exact .inl ⟨s, hs, hsite, hguard, htakes⟩

/-- Or, without a dependency array, is guarded safely or in the clean-up. -/
theorem FirstTakes.rerunsBy_or {kind : Route → Bool}
    (h : b.FirstTakes sites setter kind ρ) :
    (∃ s ∈ sites, b.RerunsBy setter ρ s) ∨
      b.TakesApart sites setter ρ (·.isSafe = true) := by
  obtain ⟨s, hs, hnow, htakes, hin | hsite⟩ := h.exists_site
  · exact .inr ⟨s, hs, hnow, htakes, .inl hin⟩
  · by_cases hsafe : ∃ g, b.guardAt? setter s.call = some g ∧ g.isSafe = true
    · exact .inr ⟨s, hs, hnow, htakes, .inr hsafe⟩
    · refine .inl ⟨s, hs, .now hsite (fun g hg => ?_) htakes⟩
      exact Bool.eq_false_iff.2 fun hg' => hsafe ⟨g, hg, hg'⟩

/-- The route on record is the one to state, up to these exceptions. -/
theorem RecordedRoute.loopRoute (h : b.RecordedRoute sites setter ρ)
    (hfree : b.Unguarded sites setter) :
    b.LoopRoute sites setter ρ := by
  obtain ⟨s, hs, hsite, hguard⟩ := hfree
  obtain ⟨τ, hτ⟩ := reaches_iff_takes.1 hsite.reaches
  refine ⟨h, ⟨s, hs, τ, hsite, hguard, hτ⟩, ?_⟩
  cases h with
  | imported c hfirst =>
    exact hfirst.loopsBy_or.imp_right fun hapart => ⟨by simp, hapart⟩
  | helper name _ hfirst =>
    exact hfirst.loopsBy_or.imp_right fun hapart => ⟨by simp, hapart⟩
  | direct himported hhelper =>
    -- the call that loops takes no other route
    have hdirect : τ = .direct := by
      have hτimported := himported s hs hsite.now τ hτ
      have hτhelper := hhelper s hs hsite.now τ hτ
      cases τ with
      | direct => rfl
      | helper => cases hτhelper
      | imported => cases hτimported
    subst hdirect
    exact .inl ⟨s, hs, hsite, hguard, hτ⟩

/-- And so is the helper on record. -/
theorem RecordedHelper.rerunRoute (h : b.RecordedHelper sites setter ρ)
    (hreruns : ∃ s ∈ sites, ∃ τ, b.RerunsBy setter τ s) :
    b.RerunRoute sites setter ρ := by
  refine ⟨h, hreruns, ?_⟩
  cases h with
  | helper name hfirst =>
    exact hfirst.rerunsBy_or.imp_right fun hapart => .inl ⟨by simp, hapart⟩
  | direct hnone =>
    by_cases hreal : ∃ s ∈ sites, b.RerunsBy setter .direct s
    · exact .inl hreal
    · -- a helper that is called at once would be on record
      refine .inr (.inr ⟨rfl, fun s hs τ hτ => ?_⟩)
      cases τ with
      | direct => exact absurd ⟨s, hs, hτ⟩ hreal
      | imported => exact .inl rfl
      | helper name =>
        refine .inr ⟨rfl, ?_⟩
        cases hτ with
        | now hsite _ htakes => cases hnone s hs hsite.now _ htakes
        | later hleaves => exact hleaves

end Body

end Update

/-! ### What a finding says -/

theorem Finding.code_capConfidence (f : Finding) (reasons : List String) :
    (f.capConfidence reasons).code = f.code := by
  unfold capConfidence
  split
  · rfl
  · rfl

/-- The reasons for less confidence stand behind the explanation. -/
theorem Finding.explanation_capConfidence (f : Finding)
    (reasons : List String) :
    ∃ more, (f.capConfidence reasons).explanation = f.explanation ++ more := by
  unfold capConfidence
  split
  · exact ⟨"", String.append_empty.symm⟩
  · exact ⟨_, by rw [String.append_assoc, String.append_assoc]⟩

theorem Context.code_report (ctx : Context) (f : Finding)
    (doubts : List Doubt) :
    (ctx.report f doubts).code = f.code :=
  Finding.code_capConfidence _ _

/-- What is added to an explanation comes at its end. -/
theorem Context.explanation_report (ctx : Context) (f : Finding)
    (doubts : List Doubt) :
    ∃ more, (ctx.report f doubts).explanation = f.explanation ++ more :=
  Finding.explanation_capConfidence _ _

/-- Any doubt makes the confidence medium. -/
theorem Context.confidence_report (ctx : Context) {f : Finding}
    (hf : f.confidence = .high) (doubts : List Doubt) :
    (ctx.report f doubts).confidence = if doubts.isEmpty then .high
      else .medium := by
  cases doubts with
  | nil => exact hf
  | cons d doubts => simp [report, Finding.capConfidence, hf]

/-- The finding says that an effect loops, by which route, and shows it in its
code and its confidence. -/
structure Finding.StatesLoop (x : Finding) (h : Hook) (state setter : String)
    (ρ : Route) : Prop where
  names : x.setter = some setter
  about : x.dependency = state
  explanation : ∃ more, x.explanation =
    s!"{h.kind.name} depends on '{state}' and unconditionally {ρ.text setter}" ++ more
  code : x.code = if ρ.isImported then .crossFileLoop else Check.loopCode h
  confidence : x.confidence = if ρ.doubts.isEmpty then .high else .medium

/-- The finding says by which route an effect without dependency array gets to
a setter. -/
structure Finding.StatesRerun (x : Finding) (h : Hook) (setter : String)
    (ρ : Route) : Prop where
  names : x.setter = some setter
  code : x.code = .effectWithoutDeps
  explanation : ∃ more, x.explanation =
    s!"{h.kind.name} has no dependency array and {ρ.text setter}" ++ more
  confidence : x.confidence = if ρ.isHelper then .medium else .high

/-- The body of a hook and its calls. -/
structure Hook.Scanned (h : Hook) (ctx : Context) (facts : Facts)
    (helpers : HelperMap) (imported : String → Option SetterTaker) (b : Body)
    (sites : List Site) : Prop where
  callback : h.callback? = some b.callback
  isFunction : b.callback.isFunction = true
  body : b = ⟨ctx, b.callback, facts, helpers, imported⟩
  sites : b.sites = .ok sites

namespace Check

variable {ctx : Context} {h : Hook} {file : String} {facts : Facts}
  {i : Interaction} {x : Finding}

/-- A finding on a loop states the route on record. -/
theorem statesLoop_loopFinding (state setter : String) :
    (loopFinding ctx h file state setter i).StatesLoop h state setter
      (routeTo i setter) where
  names := Context.setter_report ..
  about := Context.dependency_report ..
  explanation := by
    obtain ⟨more, hmore⟩ := Context.explanation_report ctx _ _
    refine ⟨". " ++
      (s!"Every update changes '{state}', which runs the effect again." ++
      more), hmore.trans ?_⟩
    simp only [effectFinding, String.append_assoc]
    rfl
  code := Finding.code_capConfidence ..
  confidence := Context.confidence_report ctx rfl _

theorem Route.text_direct (setter : String) :
    Route.direct.text setter = s!"calls '{setter}'" := rfl

theorem Route.text_helper (name setter : String) :
    (Route.helper name).text setter =
      s!"calls '{name}()', which calls '{setter}'" := rfl

theorem rerunText_opening :
    " has no dependency array and calls '" =
      " has no dependency array and " ++ "calls '" := by
  decide

/-- The explanation without a helper, as the text of a route with what stands
around it. -/
theorem rerunText_direct (hook setter : String) :
    s!"{hook} has no dependency array and calls '{setter}', so it runs after " ++
        "every render and each run schedules another render." =
      s!"{hook} has no dependency array and {Route.direct.text setter}" ++
        ", so it runs after every render and each run schedules another render." := by
  have hquote : "', so it runs after " = "'" ++ ", so it runs after " := by
    decide
  have hclose :
    ", so it runs after every render and each run schedules another render." =
      ", so it runs after " ++
        "every render and each run schedules another render." := by decide
  rw [Route.text_direct, hclose]
  simp only [toString, String.append_assoc, rerunText_opening, hquote]

theorem rerunText_helper (hook name setter : String) :
    s!"{hook} has no dependency array and calls '{name}()', which calls " ++
        s!"'{setter}'. The effect runs after every render and each run schedules another render." =
      s!"{hook} has no dependency array and {(Route.helper name).text setter}" ++
        ". The effect runs after every render and each run schedules another render." := by
  have hwhich : "()', which calls '" = "()', which calls " ++ "'" := by decide
  have hclose :
    "'. The effect runs after every render and each run schedules another render." =
      "'" ++
        ". The effect runs after every render and each run schedules another render." := by decide
  rw [Route.text_helper]
  simp only [toString, String.append_assoc, rerunText_opening, hwhich, hclose]

/-- A finding on an effect without dependency array states the helper on
record, or a direct call. -/
theorem exists_statesRerun (hx : x ∈ effectWithoutDeps ctx h file i) :
    ∃ setter ∈ reachedSetters i,
      x.StatesRerun h setter ((i.helperFor? setter).elim .direct .helper) := by
  unfold effectWithoutDeps at hx
  simp only at hx
  split at hx
  · next setter hfound =>
    have hdirect : i.helperFor? setter = none := by
      simpa using List.find?_some hfound
    obtain rfl := List.mem_singleton.1 hx
    refine ⟨setter, List.mem_of_find?_eq_some hfound, ?_⟩
    rw [hdirect]
    exact ⟨Context.setter_report .., Finding.code_capConfidence ..,
      ⟨_, rerunText_direct _ _⟩, rfl⟩
  · next hnone =>
    split at hx
    · cases hx
    · next setter rest hreached =>
      have hmem : setter ∈ reachedSetters i := by
        rw [hreached]
        exact List.mem_cons_self
      obtain ⟨name, hname⟩ : ∃ name, i.helperFor? setter = some name := by
        have hsome := List.find?_eq_none.1 hnone setter hmem
        exact Option.ne_none_iff_exists'.1 (by simpa using hsome)
      obtain rfl := List.mem_singleton.1 hx
      refine ⟨setter, hmem, ?_⟩
      rw [hname]
      exact ⟨Context.setter_report .., Finding.code_capConfidence ..,
        ⟨_, rerunText_helper _ _ _⟩, rfl⟩

/-- A hook whose record is not empty has been scanned. -/
theorem exists_scanned {helpers : HelperMap}
    {imported : String → Option SetterTaker} {origins : Table (List String)}
    {setter : String}
    (hi : h.interaction ctx facts helpers imported origins = .ok i)
    (hreached : setter ∈ reachedSetters i) :
    ∃ b sites, h.Scanned ctx facts helpers imported b sites ∧
      b.interaction origins = .ok i := by
  have hnothing : setter ∉ reachedSetters {} := by simp [mem_reachedSetters]
  unfold Hook.interaction at hi
  split at hi
  · next callback hcallback =>
    split at hi
    · next hfn =>
      obtain ⟨sites, hsites⟩ := exists_sites hi
      exact ⟨_, sites, ⟨hcallback, hfn, rfl, hsites⟩, hi⟩
    · cases hi
      exact absurd hreached hnothing
  · cases hi
    exact absurd hreached hnothing

/-- The routes that the findings on a hook state. -/
theorem checks_state_routes (ctx : Context) (h : Hook) (file : String)
    (facts : Facts) (helpers : HelperMap)
    (imported : String → Option SetterTaker) (origins : Table (List String))
    {i : Interaction}
    (hi : h.interaction ctx facts helpers imported origins = .ok i) :
    (∀ x ∈ effectWithoutDeps ctx h file i, ∃ b sites setter ρ,
      h.Scanned ctx facts helpers imported b sites ∧ x.StatesRerun h setter ρ ∧
        b.RerunRoute sites setter ρ) ∧
    ∀ x ∈ effectLoops ctx h file facts i, x.kind = .confirmed →
      ∃ b sites state setter ρ, h.Scanned ctx facts helpers imported b sites ∧
        x.StatesLoop h state setter ρ ∧ b.LoopRoute sites setter ρ := by
  constructor
  · intro x hx
    obtain ⟨setter, hreached, hstates⟩ := exists_statesRerun hx
    obtain ⟨b, sites, hscanned, hbody⟩ := exists_scanned hi hreached
    have hroute : b.RecordedHelper sites setter
        ((i.helperFor? setter).elim .direct .helper) := by
      cases hhelper : i.helperFor? setter with
      | some name =>
        exact .helper name
          (Body.helperFor?_eq_some hscanned.sites hbody hhelper)
      | none =>
        exact .direct (Body.helperFor?_eq_none hscanned.sites hbody hhelper)
    exact ⟨b, sites, setter, _, hscanned, hstates,
      hroute.rerunRoute ((Body.mem_reachedSetters_iff_rerunsBy hscanned.sites
        hbody).1 hreached)⟩
  · intro x hx hkind
    obtain ⟨state, -, hx⟩ := List.mem_filterMap.1 hx
    obtain ⟨setter, -, hx⟩ := Option.bind_eq_some_iff.1 hx
    have hmod : setter ∈ i.modifications ∧
        x = loopFinding ctx h file state setter i := by
      -- a verdict of another kind is not confirmed
      have hrecorded := kinds_dependencyVerdict ctx h file i state setter
      rw [hx, Option.toList_some, List.map_singleton, hkind] at hrecorded
      rcases cases_of_dependencyVerdict hx with hloop |
        ⟨hother, -⟩ | ⟨hother, -⟩
      · exact hloop
      all_goals
        rw [hother] at hrecorded
        cases hrecorded
    obtain ⟨hmod, rfl⟩ := hmod
    obtain ⟨b, sites, hscanned, hbody⟩ :=
      exists_scanned hi (mem_reachedSetters.2 (.inl hmod))
    exact ⟨b, sites, state, setter, _, hscanned,
      statesLoop_loopFinding state setter,
      (Body.recordedRoute_routeTo hscanned.sites hbody setter).loopRoute
        ((Body.mem_modifications hscanned.sites hbody).1 hmod)⟩

/-! ### Effects with a helper -/

/-- A component with a helper that sets its state, and an effect with the
given code and further arguments. -/
def errand (path : String) (statements others : List Sketch) : SourceFile :=
  Sketch.file path [.function "Panel" [] [.useState "v" "setV",
  .run (.call "useEffect" (.arrow statements :: others)),
    .const (.name "load") (.arrow [.run (.call "setV" [.number "1"])])]]

/-- The effect runs the helper. -/
def errandNow : SourceFile :=
  errand "Now.tsx" [.run (.call "load" [])] [.array ["v"]]

/-- The effect starts a timer that runs the helper. -/
def errandLater : SourceFile := errand "Later.tsx"
  [.run (.call "setTimeout" [.arrow [.run (.call "load" [])], .number "9"])] []

/-- The effect runs the helper in a conditional, and sets the state in any
case. -/
def errandGuarded : SourceFile := errand "Guarded.tsx"
  [.ifThen (.binary (.name "v") "!==" (.number "1")) [.run (.call "load" [])],
    .run (.call "setV" [.number "2"])] [.array ["v"]]

/-- The finding on an effect that only runs a helper states a route that the
effect takes on every run. -/
theorem checks_state_routes_errandNow : ∃ facts helpers i x,
    Facts.extract .usual errandNow.path errandNow.root = .ok facts ∧
      HelperMap.build .usual facts.setters errandNow.root = .ok helpers ∧
      (hesitant.hook errandNow).interaction .usual facts helpers (fun _ => none)
        errandNow.root.origins = .ok i ∧
      x ∈ effectLoops .usual (hesitant.hook errandNow) errandNow.path facts i ∧
        x.kind = .confirmed ∧
      ∃ b sites state ρ,
        (hesitant.hook errandNow).Scanned .usual facts helpers
          (fun _ => none) b sites ∧
          x.StatesLoop (hesitant.hook errandNow) state "setV" ρ ∧
          ∃ s ∈ sites, b.LoopsBy "setV" ρ s := by
  obtain ⟨facts, helpers, i, sites, _, hfacts, hhelpers, hi, hsites, -, h⟩ :=
    hesitant.exists_of_survey (f := errandNow) (p := fun x =>
      ((effectLoops .usual (hesitant.hook errandNow) errandNow.path x.1
        x.2.2.1).any fun y =>
        y.kind == .confirmed && y.setter == some "setV") &&
        x.2.2.2.1.all fun s =>
          !(hesitant.body errandNow x.1 x.2.1).inCleanup s.call &&
          (hesitant.body errandNow x.1 x.2.1).guardAt? "setV" s.call == none)
            (by decide +kernel)
  simp only [Bool.and_eq_true, List.any_eq_true, List.all_eq_true, beq_iff_eq,
    Bool.not_eq_true'] at h
  obtain ⟨⟨x, hx, hkind, hsetter⟩, hfree⟩ := h
  obtain ⟨b, sites', state, setter, ρ, hscanned, hstates, hroute⟩ :=
    (checks_state_routes .usual (hesitant.hook errandNow) errandNow.path facts
      helpers (fun _ => none) errandNow.root.origins hi).2 x hx hkind
  obtain rfl : "setV" = setter :=
    Option.some.inj (hsetter.symm.trans hstates.names)
  have hbody : b = hesitant.body errandNow facts helpers := by
    rw [hscanned.body, ← Option.some.inj hscanned.callback]
    rfl
  refine ⟨facts, helpers, i, x, hfacts, hhelpers, hi, hx, hkind, b, sites',
    state, ρ, hscanned, hstates, hroute.real.resolve_right ?_⟩
  -- no call stands in the clean-up or under a guard
  rintro ⟨-, s, hs, -, -, hapart⟩
  obtain rfl : sites = sites' := by
    have hsites' := hscanned.sites
    rw [hbody] at hsites'
    exact Except.ok.inj (hsites.symm.trans hsites')
  rw [hbody, (hfree s hs).1, (hfree s hs).2] at hapart
  simp at hapart

/-- A call that neither names a setter nor is given it gets to it by no route
of its own. -/
theorem not_rerunsBy_direct {b : Body} {s : Site} {setter : String}
    (hkey : s.call.calleeKey? ≠ some setter)
    (hargs : ∀ arg ∈ s.call.arguments, arg.bare.text ≠ setter) :
    ¬ b.RerunsBy setter .direct s := by
  have htakes : ¬ b.Takes s.call setter .direct := by
    intro h
    cases h with
    | direct hnamed => exact hkey hnamed
  intro h
  cases h with
  | now _ _ h => exact htakes h
  | later hleaves =>
    cases hleaves with
    | called _ _ _ h => exact htakes h
    | given _ hgives =>
      obtain ⟨-, arg, harg, -, htext⟩ := hgives
      exact hargs arg harg htext

/-- A finding can state a route that no call it rests on takes. Where a helper
runs later only, a direct call is stated, with high confidence; where it runs
under a guard, and the state is set in any case, the helper. -/
theorem checks_misstate_routes :
    (∃ facts helpers i sites x,
      Facts.extract .usual errandLater.path errandLater.root = .ok facts ∧
      HelperMap.build .usual facts.setters errandLater.root = .ok helpers ∧
      (hesitant.hook errandLater).interaction .usual facts helpers
        (fun _ => none) errandLater.root.origins = .ok i ∧
      x ∈ effectWithoutDeps .usual (hesitant.hook errandLater)
        errandLater.path i ∧
      x.StatesRerun (hesitant.hook errandLater) "setV" .direct ∧
        x.confidence = .high ∧
      (hesitant.body errandLater facts helpers).sites = .ok sites ∧
      ∀ s ∈ sites, ¬ (hesitant.body errandLater facts helpers).RerunsBy "setV"
        .direct s) ∧
    ∃ facts helpers i sites x,
      Facts.extract .usual errandGuarded.path errandGuarded.root = .ok facts ∧
      HelperMap.build .usual facts.setters errandGuarded.root = .ok helpers ∧
      (hesitant.hook errandGuarded).interaction .usual facts helpers
        (fun _ => none) errandGuarded.root.origins = .ok i ∧
      x ∈ effectLoops .usual (hesitant.hook errandGuarded)
        errandGuarded.path facts i ∧
      x.kind = .confirmed ∧
        x.StatesLoop (hesitant.hook errandGuarded) "v" "setV" (.helper "load") ∧
      (hesitant.body errandGuarded facts helpers).sites = .ok sites ∧
      ∀ s ∈ sites, ¬ (hesitant.body errandGuarded facts helpers).LoopsBy "setV"
        (.helper "load") s := by
  constructor
  · obtain ⟨facts, helpers, i, sites, _, hfacts, hhelpers, hi, hsites, -, h⟩ :=
      hesitant.exists_of_survey (f := errandLater) (p := fun x =>
        ((effectWithoutDeps .usual (hesitant.hook errandLater) errandLater.path
          x.2.2.1).any fun y =>
          y.setter == some "setV") && x.2.2.1.helperFor? "setV" == none &&
          x.2.2.2.1.all fun s => s.call.calleeKey? != some "setV" &&
            s.call.arguments.all (·.bare.text != "setV")) (by decide +kernel)
    simp only [Bool.and_eq_true, List.any_eq_true, List.all_eq_true, beq_iff_eq,
      bne_iff_ne] at h
    obtain ⟨⟨⟨x, hx, hsetter⟩, hhelper⟩, hother⟩ := h
    obtain ⟨setter, -, hstates⟩ := exists_statesRerun hx
    obtain rfl : "setV" = setter :=
      Option.some.inj (hsetter.symm.trans hstates.names)
    rw [hhelper] at hstates
    exact ⟨facts, helpers, i, sites, x, hfacts, hhelpers, hi, hx, hstates,
      hstates.confidence, hsites, fun s hs =>
      not_rerunsBy_direct (hother s hs).1 (hother s hs).2⟩
  · obtain ⟨facts, helpers, i, sites, _, hfacts, hhelpers, hi, hsites, -, h⟩ :=
      hesitant.exists_of_survey (f := errandGuarded) (p := fun x =>
        x.1.setterOf? "v" == some "setV" &&
          x.2.2.1.modifications.contains "setV" && routeTo x.2.2.1 "setV" ==
          .helper "load" &&
          x.2.2.2.1.all fun s => s.call.calleeKey? != some "load" ||
            (hesitant.body errandGuarded x.1 x.2.1).guardAt? "setV" s.call !=
              none) (by decide +kernel)
    simp only [Bool.and_eq_true, List.all_eq_true, beq_iff_eq, bne_iff_ne,
      Bool.or_eq_true] at h
    obtain ⟨⟨⟨hsetter, hmod⟩, hroute⟩, hguarded⟩ := h
    refine ⟨facts, helpers, i, sites,
      loopFinding .usual (hesitant.hook errandGuarded) errandGuarded.path
      "v" "setV" i, hfacts, hhelpers, hi, ?_, Context.kind_report .., ?_,
        hsites, fun s hs hloops => ?_⟩
    · refine List.mem_filterMap.2 ⟨"v", by decide +kernel, ?_⟩
      rw [hsetter, Option.bind_some, dependencyVerdict, if_pos hmod]
    · rw [← hroute]
      exact statesLoop_loopFinding "v" "setV"
    · obtain ⟨-, hfree, htakes⟩ := hloops
      cases htakes with
      | helper _ hkey =>
        exact (hguarded s hs).elim (fun hother => hother hkey) fun hguard =>
          hguard hfree

end Check

end RenderLoop
