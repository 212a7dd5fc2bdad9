import RenderLoop.Proofs.Anchors
import RenderLoop.Proofs.KeyParts
import RenderLoop.Proofs.RenderUpdates
import RenderLoop.Proofs.Words

/-!
# Explanations on one line

The explanation of a finding is a fixed text with names filled in. Most of the
names are words, but some findings repeat an excerpt as it is written in the
source: the call that makes a key new, the name of a tag and that of
an attribute. Others repeat the name and the path of a function in another file.

> `oneLine_explanation_iff`: in a file whose words are unbroken, the
> explanation of a finding stands on one line iff all the excerpts that the
> finding repeats do.

Every finding is put together from fixed texts and names, so its explanation
is on one line iff the names are, and there is one lemma for each kind of
finding that says which names it repeats. The words of a file are unbroken by
assumption; what is left are the excerpts that `Quotes` lists, and for these
the equivalence runs through the kinds of findings once more.
-/

namespace RenderLoop

/-! ### Confidence -/

theorem Doubt.oneLine_text (d : Doubt) : OneLine d.text := by
  cases d <;> exact .literal (by decide)

/-- The reasons for a lower confidence are added to the explanation, and break
it only if one of them is broken. -/
theorem Finding.oneLine_capConfidence (f : Finding) {reasons : List String}
    (h : ∀ r ∈ reasons, OneLine r) :
    OneLine (f.capConfidence reasons).explanation ↔ OneLine f.explanation := by
  unfold capConfidence
  split
  · exact Iff.rfl
  · have hreasons : OneLine (" and ".intercalate reasons.eraseDups) :=
      .intercalate (.literal (by decide)) fun r hr =>
        h r (List.mem_eraseDups.1 hr)
    simp only [oneLine_append]
    exact ⟨fun h => h.1.1.1,
      fun h => ⟨⟨⟨h, .literal (by decide)⟩, hreasons⟩, .literal (by decide)⟩⟩

/-- What is said about the confidence stands on the line of the explanation. -/
theorem Context.oneLine_report (ctx : Context) (f : Finding)
    (doubts : List Doubt) :
    OneLine (ctx.report f doubts).explanation ↔ OneLine f.explanation := by
  refine Finding.oneLine_capConfidence _ fun r hr => ?_
  obtain ⟨d, -, rfl⟩ := List.mem_map.1 hr
  exact d.oneLine_text

theorem HookKind.oneLine_name (k : HookKind) : OneLine k.name := by
  cases k <;> exact .literal (by decide)

theorem GuardKind.oneLine_name (k : GuardKind) : OneLine k.name := by
  cases k <;> exact .literal (by decide)

/-- A dependency of a hook is part of its call. -/
theorem Hook.mem_walk_of_mem_dependencyNodes {h : Hook} {d : Node}
    (hd : d ∈ h.dependencyNodes) :
    d ∈ h.call.walk := by
  unfold dependencyNodes at hd
  split at hd
  · next first deps rest hargs =>
    split at hd
    · obtain ⟨part, hpart, rfl⟩ := List.mem_map.1 hd
      have hdeps : deps ∈ h.call.walk :=
        Node.mem_walk_of_mem_arguments (by rw [hargs]; simp)
      refine Node.mem_walk_trans part.bare_mem_walk
        (Node.mem_walk_trans ?_ hdeps)
      exact Node.mem_walk_trans
        (Node.mem_walk_of_mem_children (Node.mem_children_of_mem_parts hpart))
        deps.bare_mem_walk
    · cases hd
  · cases hd

/-- A part of a key is part of its value. -/
theorem Keys.Part.mem_walk {value part : Node} (h : Part value part) :
    part ∈ value.walk := by
  induction h with
  | whole => exact value.bare_mem_walk
  | @operand part c _ hc ih =>
    have hbelow : c ∈ part.walk := by
      cases hc with
      | substitution _ hs _ hc =>
        exact Node.mem_walk_trans
          (Node.mem_walk_of_mem_children (Node.mem_children_of_mem_parts hc))
          (Node.mem_walk_of_mem_children
            (Node.mem_children_of_mem_namedChildren hs))
      | left _ hc => exact Node.mem_walk_of_child? hc
      | right _ hc => exact Node.mem_walk_of_child? hc
    exact Node.mem_walk_trans c.bare_mem_walk (Node.mem_walk_trans hbelow ih)

namespace Check

variable {ctx : Context} {file state setter : String} {h : Hook}
  {i : Interaction} {imported : String → Option SetterTaker}

/-! ### Routes -/

/-- What a route repeats from another file. -/
def Route.excerpts : Route → List String
  | .imported call => [call.function, call.file]
  | _ => []

/-- Only the route through an imported function repeats something from another
file. -/
theorem Route.text_imported (call : ImportedCall) (setter : String) :
    (Route.imported call).text setter =
    s!"passes '{setter}' to '{call.function}' in {call.file}, which calls it" :=
  rfl

/-- A route on one line repeats nothing that is broken. -/
theorem Route.oneLine_of_mem_excerpts {ρ : Route} (h : OneLine (ρ.text setter))
    {s : String} (hs : s ∈ ρ.excerpts) : OneLine s := by
  cases ρ with
  | direct => cases hs
  | helper name => cases hs
  | imported call =>
    rw [text_imported] at h
    simp only [oneLine_append] at h
    obtain ⟨⟨⟨⟨-, hfunction⟩, -⟩, hfile⟩, -⟩ := h
    rcases List.mem_pair.1 hs with rfl | rfl
    · exact hfunction
    · exact hfile

/-- The text of a route on record stands on one line if its excerpts do. -/
theorem oneLine_route (hi : i.Worded imported) (hsetter : OneLine setter)
    (h : ∀ s ∈ (routeTo i setter).excerpts, OneLine s) :
    OneLine ((routeTo i setter).text setter) := by
  unfold routeTo at h ⊢
  cases hcall : i.importedCallFor? setter with
  | some call =>
    simp only [hcall, Route.excerpts, List.mem_pair, forall_eq_or_imp,
      forall_eq] at h
    simp only [Route.text_imported, oneLine_append]
    refine ⟨⟨⟨⟨⟨⟨?_, hsetter⟩, ?_⟩, h.1⟩, ?_⟩, h.2⟩, ?_⟩ <;>
      exact .literal (by decide)
  | none =>
    cases hname : i.helperFor? setter with
    | some name =>
      simp only [Route.text_helper, oneLine_append]
      refine ⟨⟨⟨⟨?_, hi.helper setter name hname⟩, ?_⟩, hsetter⟩, ?_⟩ <;>
        exact .literal (by decide)
    | none =>
      simp only [Route.text_direct, oneLine_append]
      refine ⟨⟨?_, hsetter⟩, ?_⟩ <;> exact .literal (by decide)

/-- The excerpts of a route on record are told by an imported function. -/
theorem exists_taker (hi : i.Worded imported) {s : String}
    (hs : s ∈ (routeTo i setter).excerpts) :
    ∃ name taker, imported name = some taker ∧
      (s = taker.name ∨ s = taker.file) := by
  unfold routeTo at hs
  cases hcall : i.importedCallFor? setter with
  | some call =>
    obtain ⟨name, taker, htaker, hfunction, hfile⟩ :=
      hi.imported setter call hcall
    rw [hcall] at hs
    refine ⟨name, taker, htaker, ?_⟩
    rw [← hfunction, ← hfile]
    simpa [Route.excerpts] using hs
  | none =>
    rw [hcall] at hs
    cases hname : i.helperFor? setter <;> rw [hname] at hs <;> cases hs

/-! ### Findings that repeat something -/

/-- The explanation of a loop repeats the state and the route. -/
theorem oneLine_loopFinding :
    OneLine (loopFinding ctx h file state setter i).explanation ↔
    OneLine state ∧ OneLine ((routeTo i setter).text setter) := by
  unfold loopFinding
  rw [Context.oneLine_report]
  simp only [effectFinding, oneLine_append]
  constructor
  · rintro ⟨⟨⟨⟨⟨-, hstate⟩, -⟩, hroute⟩, -⟩, -⟩
    exact ⟨hstate, hroute⟩
  · rintro ⟨hstate, hroute⟩
    refine ⟨⟨⟨⟨⟨⟨?_, ?_⟩, hstate⟩, ?_⟩, hroute⟩, ?_⟩, ⟨?_, hstate⟩, ?_⟩
    · exact h.kind.oneLine_name
    all_goals exact .literal (by decide)

/-- So does that of an unsafe guard, unless the risk is in a spread. -/
theorem oneLine_unsafeFinding {guard : Guard}
    (hkind : guard.kind ≠ .spreadRisk) :
    OneLine (unsafeFinding ctx h file state setter i guard).explanation ↔
      OneLine state ∧ OneLine ((routeTo i setter).text setter) := by
  unfold unsafeFinding
  rw [Context.oneLine_report, if_neg hkind]
  simp only [effectFinding, oneLine_append]
  constructor
  · rintro ⟨⟨⟨⟨⟨-, hstate⟩, -⟩, hroute⟩, -⟩, -⟩
    exact ⟨hstate, hroute⟩
  · rintro ⟨hstate, hroute⟩
    refine ⟨⟨⟨⟨⟨⟨?_, ?_⟩, hstate⟩, ?_⟩, hroute⟩, ?_⟩, ⟨?_, hstate⟩, ?_⟩
    · exact h.kind.oneLine_name
    all_goals exact .literal (by decide)

/-- The explanation of an unstable prop repeats the tag, the value and, but
for providers, the name of the attribute. -/
theorem oneLine_propFinding {element prop what : String} {isProvider : Bool}
    {value : Node} :
    OneLine (propFinding ctx file element prop isProvider value
      what).explanation ↔ OneLine element ∧ OneLine what ∧
      (isProvider = false → OneLine prop) := by
  unfold propFinding
  rw [Context.oneLine_report]
  cases isProvider with
  | true =>
    simp only [oneLine_append, if_true]
    constructor
    · rintro ⟨⟨⟨⟨-, helement⟩, -⟩, hwhat⟩, -⟩
      exact ⟨helement, hwhat, by simp⟩
    · rintro ⟨helement, hwhat, -⟩
      refine ⟨⟨⟨⟨?_, helement⟩, ?_⟩, hwhat⟩, ?_⟩ <;> exact .literal (by decide)
  | false =>
    simp only [oneLine_append, Bool.false_eq_true, if_false]
    constructor
    · rintro ⟨⟨⟨⟨⟨⟨-, helement⟩, -⟩, hprop⟩, -⟩, hwhat⟩, -⟩
      exact ⟨helement, hwhat, fun _ => hprop⟩
    · rintro ⟨helement, hwhat, hprop⟩
      refine ⟨⟨⟨⟨⟨⟨?_, helement⟩, ?_⟩, hprop trivial⟩, ?_⟩, hwhat⟩, ?_⟩ <;>
        exact .literal (by decide)

/-- That of a key repeats only the reason. -/
theorem oneLine_keyFinding {value : Node} {v : Keys.Verdict} :
    OneLine (keyFinding ctx file value v).explanation ↔ OneLine v.reason := by
  unfold keyFinding
  rw [Context.oneLine_report]
  simp only
  split
  · simp only [oneLine_append]
    constructor
    · rintro ⟨⟨⟨-, hreason⟩, -⟩, -⟩
      exact hreason
    · intro hreason
      refine ⟨⟨⟨?_, hreason⟩, ?_⟩, ?_⟩ <;> exact .literal (by decide)
  · simp only [oneLine_append]
    constructor
    · rintro ⟨⟨⟨-, hreason⟩, -⟩, -⟩
      exact hreason
    · intro hreason
      refine ⟨⟨⟨?_, hreason⟩, ?_⟩, ?_⟩ <;> exact .literal (by decide)

/-- And the reason the call, as it is written. -/
theorem oneLine_randomCall {text : String} :
    OneLine (Keys.Verdict.randomCall text).reason ↔ OneLine text := by
  unfold Keys.Verdict.reason
  simp only [oneLine_append]
  constructor
  · rintro ⟨⟨-, htext⟩, -⟩
    exact htext
  · intro htext
    refine ⟨⟨?_, htext⟩, ?_⟩ <;> exact .literal (by decide)

/-- A finding on a file repeats an excerpt as it is written: a piece of the
source, or the name or the path of a function in another file. -/
inductive Quotes (ctx : Context) (f : SourceFile)
    (imported : String → Option SetterTaker) (x : Finding)
    (s : String) : Prop where
  /-- The call that makes a key new on every render. -/
  | key (element value part : Node) (helement : element ∈ f.root.walk)
      (hvalue : ("key", some value) ∈ element.jsxAttributes)
      (hpart : Keys.Part value part)
      (hrandom : Keys.isRandom part = true)
      (hx : x = keyFinding ctx f.path value (.randomCall part.text))
      (hs : s = part.text)
  /-- The name of a tag that is handed a new value. -/
  | tag (element value : Node) (prop what : String) (isProvider : Bool)
      (helement : element ∈ f.root.walk)
      (hprop : (prop, some value) ∈ element.jsxAttributes)
      (hx : x = propFinding ctx f.path element.jsxName prop isProvider value
        what) (hs : s = element.jsxName)
  /-- The name of the attribute, unless the tag is a provider. -/
  | prop (element value : Node) (what : String)
      (helement : element ∈ f.root.walk)
      (hprop : (s, some value) ∈ element.jsxAttributes)
      (hx : x = propFinding ctx f.path element.jsxName s false value what)
  /-- The imported function that an effect hands a setter to, or its file. -/
  | taker (h : Hook) (facts : Facts) (helpers : HelperMap) (i : Interaction)
      (state setter name : String) (taker : SetterTaker) (hh : h ∈ f.hooks)
      (hi : h.interaction ctx facts helpers imported f.root.origins = .ok i)
      (htaker : imported name = some taker)
      (htold : s = taker.name ∨ s = taker.file)
      (hs : s ∈ (routeTo i setter).excerpts)
      (hx : x = loopFinding ctx h f.path state setter i ∨ ∃ guard : Guard,
        guard.kind ≠ .spreadRisk ∧
        x = unsafeFinding ctx h f.path state setter i guard)

variable {f : SourceFile} {x : Finding}

/-- What a finding repeats is part of its explanation. -/
theorem Quotes.oneLine {s : String} (hq : Quotes ctx f imported x s)
    (hx : OneLine x.explanation) :
    OneLine s := by
  cases hq with
  | key _ _ part _ _ _ _ heq hs =>
    rw [heq, oneLine_keyFinding, oneLine_randomCall] at hx
    rwa [hs]
  | tag _ _ _ _ _ _ _ heq hs =>
    rw [heq, oneLine_propFinding] at hx
    rw [hs]
    exact hx.1
  | prop _ _ _ _ _ heq =>
    rw [heq, oneLine_propFinding] at hx
    exact hx.2.2 rfl
  | taker h _ _ i state setter _ _ _ _ _ _ hs heq =>
    rcases heq with heq | ⟨guard, hkind, heq⟩
    · rw [heq, oneLine_loopFinding] at hx
      exact Route.oneLine_of_mem_excerpts hx.2 hs
    · rw [heq, oneLine_unsafeFinding hkind] at hx
      exact Route.oneLine_of_mem_excerpts hx.2 hs

/-! ### Findings on hooks -/

theorem oneLine_safeFinding {why : String} (hstate : OneLine state)
    (hwhy : OneLine why) :
    OneLine (safeFinding ctx h file state setter i why).explanation := by
  unfold safeFinding
  rw [Context.oneLine_report]
  simp only [effectFinding, oneLine_append]
  refine ⟨⟨⟨⟨⟨?_, ?_⟩, hstate⟩, ?_⟩, hwhy⟩, ?_⟩
  · exact h.kind.oneLine_name
  all_goals exact .literal (by decide)

/-- The risk in a spread is explained with the state alone. -/
theorem oneLine_unsafeFinding_of_spreadRisk {guard : Guard}
    (hkind : guard.kind = .spreadRisk) (hstate : OneLine guard.state) :
    OneLine (unsafeFinding ctx h file state setter i guard).explanation := by
  unfold unsafeFinding
  rw [Context.oneLine_report, if_pos hkind]
  simp only [effectFinding, Guard.warning?, hkind, if_true, Option.getD_some,
    oneLine_append]
  refine ⟨⟨⟨⟨?_, hstate⟩, ?_⟩, ?_⟩, ?_⟩ <;> exact .literal (by decide)

/-- An effect without dependency array is explained with words only. -/
theorem oneLine_effectWithoutDeps (hi : i.Worded imported)
    (hx : x ∈ effectWithoutDeps ctx h file i) :
    OneLine x.explanation := by
  unfold effectWithoutDeps at hx
  simp only at hx
  split at hx
  · next setter hfound =>
    rw [List.mem_singleton.1 hx, Context.oneLine_report]
    have hsetter := hi.reached setter (List.mem_of_find?_eq_some hfound)
    simp only [oneLine_append]
    refine ⟨⟨⟨⟨?_, ?_⟩, hsetter⟩, ?_⟩, ?_⟩
    · exact h.kind.oneLine_name
    all_goals exact .literal (by decide)
  · split at hx
    · cases hx
    · next setter rest hreached =>
      rw [List.mem_singleton.1 hx, Context.oneLine_report]
      have hsetter := hi.reached setter
        (by rw [hreached]; exact List.mem_cons_self)
      have hhelper : OneLine ((i.helperFor? setter).getD "") := by
        cases hname : i.helperFor? setter with
        | none => exact .literal (by decide)
        | some name => exact hi.helper setter name hname
      simp only [oneLine_append]
      refine ⟨⟨⟨⟨?_, ?_⟩, hhelper⟩, ?_⟩, ⟨?_, hsetter⟩, ?_⟩
      · exact h.kind.oneLine_name
      all_goals exact .literal (by decide)

section

variable {facts : Facts} {helpers : HelperMap} (hwords : f.root.WordsUnbroken)
  (hfacts : Facts.extract ctx f.path f.root = .ok facts)

include hwords hfacts

theorem oneLine_memoHook (hx : x ∈ memoHook ctx h f.path facts i) :
    OneLine x.explanation := by
  rcases cases_of_mem_memoHook hx with rfl | ⟨state, setter, hs, rfl⟩
  · unfold missingMemoDeps
    rw [Context.oneLine_report]
    exact .append h.kind.oneLine_name (.literal (by decide))
  · obtain ⟨hstate, hsetter⟩ := Facts.oneLine_of_setterOf? hfacts hwords hs
    unfold memoUpdateFinding
    rw [Context.oneLine_report]
    simp only [oneLine_append]
    refine ⟨⟨⟨⟨⟨⟨?_, ?_⟩, hstate⟩, ?_⟩, hsetter⟩, ?_⟩, ⟨?_, hstate⟩, ?_⟩
    · exact h.kind.oneLine_name
    all_goals exact .literal (by decide)

/-- Likewise an unstable dependency, whose names are words of the file. -/
theorem oneLine_unstableFinding (htop : f.root.above = []) (hh : h ∈ f.hooks)
    (hi : i.Worded imported) {v : UnstableVariable}
    (hv : unstableDependency? h facts = some v) :
    OneLine (unstableFinding ctx h f.path facts i v).explanation := by
  obtain ⟨hname, howner⟩ : OneLine v.name ∧ OneLine v.owner.name := by
    unfold unstableDependency? at hv
    split at hv
    · cases hv
    · next component hcomponent =>
      obtain ⟨d, hd, hv⟩ := List.exists_of_findSome?_eq_some hv
      split at hv
      · next hkind =>
        obtain ⟨-, howner, hname⟩ := (Facts.unstable?_eq_some_iff hfacts).1 hv
        rw [hname, howner]
        refine ⟨hwords d ?_ (.inl (by simpa using hkind)),
          Facts.oneLine_of_componentAt? hfacts hwords htop hcomponent⟩
        exact Node.mem_walk_trans (Hook.mem_walk_of_mem_dependencyNodes hd)
          (Node.call_mem_walk hh)
      · cases hv
  have hwhat : OneLine (UnstableKind.text v.kind) := by
    cases v.kind <;> exact .literal (by decide)
  unfold unstableFinding
  simp only
  split
  · next setter rest _ hmodified =>
    have hsetter := hi.reached setter
      (mem_reachedSetters.2
      (.inl (by rw [hmodified]; exact List.mem_cons_self)))
    rw [Context.oneLine_report]
    simp only [oneLine_append]
    refine ⟨⟨⟨⟨⟨⟨⟨⟨⟨?_, hname⟩, ?_⟩, hwhat⟩, ?_⟩, howner⟩, ?_⟩,
      h.kind.oneLine_name⟩, ?_⟩, ⟨?_, hsetter⟩, ?_⟩ <;>
      exact .literal (by decide)
  · rw [Context.oneLine_report]
    simp only [oneLine_append]
    refine ⟨⟨⟨⟨⟨⟨⟨⟨⟨?_, hname⟩, ?_⟩, hwhat⟩, ?_⟩, howner⟩, ?_⟩,
      h.kind.oneLine_name⟩, ?_⟩, ?_⟩ <;>
      exact .literal (by decide)

/-- A verdict is on one line when what it quotes is; only the route can
quote. -/
theorem oneLine_dependencyVerdict
    (hhelpers : HelperMap.build ctx facts.setters f.root = .ok helpers)
    (hh : h ∈ f.hooks)
    (hi : h.interaction ctx facts helpers imported f.root.origins = .ok i)
    (hs : facts.setterOf? state = some setter)
    (hx : dependencyVerdict ctx h f.path i state setter = some x)
    (hq : ∀ s, Quotes ctx f imported x s → OneLine s) :
    OneLine x.explanation := by
  have hworded := Hook.worded_interaction hwords hfacts hhelpers hh hi
  obtain ⟨hstate, hsetter⟩ := Facts.oneLine_of_setterOf? hfacts hwords hs
  have hroute (hx : x = loopFinding ctx h f.path state setter i ∨
      ∃ guard : Guard, guard.kind ≠ .spreadRisk ∧
      x = unsafeFinding ctx h f.path state setter i guard) :
      OneLine ((routeTo i setter).text setter) := by
    refine oneLine_route hworded hsetter fun s hs => ?_
    obtain ⟨name, taker, htaker, htold⟩ := exists_taker hworded hs
    exact hq s (.taker h facts helpers i state setter name taker hh hi htaker
      htold hs hx)
  unfold dependencyVerdict at hx
  split at hx
  · have hx := Option.some.inj hx
    rw [← hx]
    exact oneLine_loopFinding.2 ⟨hstate, hroute (.inl hx.symm)⟩
  · split at hx
    · next guard hguard =>
      split at hx
      · cases hx
        exact oneLine_safeFinding hstate
          (.append (.literal (by decide)) guard.kind.oneLine_name)
      · have hx := Option.some.inj hx
        rw [← hx]
        by_cases hkind : guard.kind = .spreadRisk
        · have hmem := (Interaction.guardFor?_eq_some hguard).1.1
          exact oneLine_unsafeFinding_of_spreadRisk hkind
            (hworded.guard guard hmem)
        · exact (oneLine_unsafeFinding hkind).2 ⟨hstate,
            hroute (.inr ⟨guard, hkind, hx.symm⟩)⟩
    · split at hx
      · cases hx
        exact oneLine_safeFinding hstate (.literal (by decide))
      · split at hx
        · cases hx
          exact oneLine_safeFinding hstate (.literal (by decide))
        · cases hx

/-- A finding on a hook has its explanation on one line if all that it repeats
is. -/
theorem oneLine_hookFindings (htop : f.root.above = [])
    (hhelpers : HelperMap.build ctx facts.setters f.root = .ok helpers)
    (hh : h ∈ f.hooks)
    (hi : h.interaction ctx facts helpers imported f.root.origins = .ok i)
    (hx : x ∈ hookFindings ctx f.path facts h i)
    (hq : ∀ s, Quotes ctx f imported x s → OneLine s) :
    OneLine x.explanation := by
  have hworded := Hook.worded_interaction hwords hfacts hhelpers hh hi
  cases foundOnHook hx with
  | withoutArray _ _ hx => exact oneLine_effectWithoutDeps hworded hx
  | unstable _ v hv hx =>
    rw [hx]
    exact oneLine_unstableFinding hwords hfacts htop hh hworded hv
  | dependency _ _ _ state setter hs hx =>
    exact oneLine_dependencyVerdict hwords hfacts hhelpers hh hi hs hx hq
  | memo _ hx => exact oneLine_memoHook hwords hfacts hx

/-! ### Findings on components -/

omit hwords hfacts in
/-- Whatever way a call takes, it ends at a setter. -/
theorem Invokes.isSetter {root call : Node} {helper : Option String}
    (hhelpers : HelperMap.build ctx facts.setters root = .ok helpers)
    (hinvokes : Invokes facts helpers call setter helper) :
    facts.isSetter setter = true := by
  cases hinvokes with
  | direct _ _ _ hsetter => exact hsetter
  | helper _ _ _ _ hreach =>
    exact List.contains_iff_mem.2 (HelperMap.mem_setters hhelpers (.inl hreach))

omit hwords hfacts in
/-- An update while rendering is explained with the names of the component,
the setter and the helper. -/
theorem oneLine_renderFinding {u : RenderUpdate}
    (hname : OneLine u.component.name) (hsetter : OneLine u.setter)
    (hhelper : ∀ helper ∈ u.helper, OneLine helper) (guard : Option Guard) :
    OneLine (renderFinding ctx file facts u guard).explanation := by
  obtain ⟨call, component, setter, helper⟩ := u
  unfold renderFinding
  cases helper with
  | none =>
    cases guard <;> rw [Context.oneLine_report] <;>
      simp only [oneLine_append] <;>
      refine ⟨⟨⟨⟨hname, ?_⟩, .append (.append ?_ hsetter) ?_⟩, ?_⟩, ?_⟩ <;>
        exact .literal (by decide)
  | some helper =>
    have hhelper := hhelper helper rfl
    cases guard <;> rw [Context.oneLine_report] <;>
      simp only [oneLine_append] <;>
      refine ⟨⟨⟨⟨hname, ?_⟩,
        .append (.append (.append (.append ?_ hhelper) ?_) hsetter) ?_⟩, ?_⟩,
        ?_⟩ <;>
      exact .literal (by decide)

omit hwords hfacts in
/-- The name of a ref that is written to stands in the source as an
identifier. -/
theorem exists_of_refWrite? {n right : Node} {ref : String}
    (h : Update.refWrite? facts n = some (ref, right)) :
    ∃ o ∈ n.walk, o.kind = .identifier ∧ o.text = ref := by
  unfold Update.refWrite? at h
  split at h
  · next left _ _ hleft _ =>
    split at h
    · split at h
      · next object hobject =>
        split at h
        · next hid =>
          obtain ⟨rfl, rfl⟩ := Prod.mk.inj (Option.some.inj h)
          obtain ⟨outer, houter, rfl⟩ := Option.map_eq_some_iff.1 hleft
          obtain ⟨inner, hinner, rfl⟩ := Option.map_eq_some_iff.1 hobject
          rw [Bool.and_eq_true, beq_iff_eq] at hid
          refine ⟨_, ?_, hid.1, rfl⟩
          have hleft := Node.mem_walk_trans outer.bare_mem_walk
            (Node.mem_walk_of_child? houter)
          exact Node.mem_walk_trans
            (Node.mem_walk_trans inner.bare_mem_walk
            (Node.mem_walk_of_child? hinner)) hleft
        · cases h
      · cases h
    · cases h
  · cases h

/-- So what is found while rendering is explained with words only. -/
theorem oneLine_renderPhase (htop : f.root.above = [])
    (hhelpers : HelperMap.build ctx facts.setters f.root = .ok helpers)
    {origins : Table (List String)}
    (hx : x ∈ renderPhase ⟨ctx, f.path, facts, helpers, origins⟩ f.root) :
    OneLine x.explanation := by
  obtain ⟨fn, hfn, component, hcomponent, n, hn, hx⟩ := exists_renderNode hx
  have hname := hwords.of_ofFunction? htop hfn hcomponent
  rcases cases_of_mem_renderNode hx with ⟨u, hu, guard, rfl⟩ | hwrites
  · obtain ⟨rfl, rfl, -, hinvokes⟩ := mem_renderUpdates.1 hu
    -- the setter is known to the file, and a helper is named by the callee
    refine oneLine_renderFinding hname ?_ (fun helper hhelper => ?_) guard
    · exact Facts.oneLine_of_isSetter hfacts hwords (hinvokes.isSetter hhelpers)
    · rw [hhelper] at hinvokes
      cases hinvokes with
      | helper hcallee hid htext _ _ =>
        rw [← htext]
        exact hwords _ (Node.mem_walk_trans (Node.mem_walk_of_callee? hcallee)
          hn) (.inl hid)
  · unfold refWriteFinding? at hwrites
    split at hwrites
    · cases hwrites
    · next ref right hwrite =>
      split at hwrites
      · cases hwrites
        obtain ⟨o, ho, hkind, rfl⟩ := exists_of_refWrite? hwrite
        have href := hwords o (Node.mem_walk_trans ho hn) (.inl hkind)
        rw [Context.oneLine_report]
        simp only [oneLine_append]
        refine ⟨⟨⟨⟨hname, ?_⟩, href⟩, ?_⟩, ?_⟩ <;> exact .literal (by decide)
      · cases hwrites

/-! ### Findings on elements -/

/-- What makes a prop unstable is described by fixed texts and by names of the
file. -/
theorem oneLine_unstableProp? {element value : Node}
    (hvalue : value ∈ f.root.walk) {what : String}
    (hwhat : unstableProp? facts element value = some what) : OneLine what := by
  unfold unstableProp? at hwhat
  split at hwhat
  · cases hwhat
    exact .literal (by decide)
  · cases hwhat
    exact .literal (by decide)
  · next hkind =>
    split at hwhat
    · obtain ⟨v, hv, rfl⟩ := Option.map_eq_some_iff.1 hwhat
      obtain ⟨-, -, hname⟩ := (Facts.unstable?_eq_some_iff hfacts).1 hv
      rw [hname]
      exact .append (.append (.literal (by decide))
        (hwords value hvalue (.inl hkind))) (.literal (by decide))
    · cases hwhat
  · split at hwhat
    · cases hwhat
      exact .literal (by decide)
    · cases hwhat

/-- The explanation of an unstable prop can be broken only by its tag and
its attribute. -/
theorem oneLine_unstableProps (hx : x ∈ unstableProps ctx f.path facts f.root)
    (hq : ∀ s, Quotes ctx f imported x s → OneLine s) :
    OneLine x.explanation := by
  obtain ⟨element, helement, prop, value, what, isProvider, hattribute, hwhat,
    heq⟩ := exists_propFinding hx
  have hvalue := Node.mem_walk_trans
    (Node.mem_walk_of_mem_jsxAttributes hattribute) helement
  rw [heq, oneLine_propFinding]
  refine ⟨?_, oneLine_unstableProp? hwords hfacts hvalue hwhat,
    fun hother => ?_⟩
  · exact hq _ (.tag element value prop what isProvider helement
      hattribute heq rfl)
  · rw [hother] at heq
    exact hq _ (.prop element value what helement hattribute heq)

omit hwords hfacts in
theorem oneLine_snapshotFinding (call snapshot : Node) :
    OneLine (snapshotFinding ctx file call snapshot).explanation := by
  unfold snapshotFinding
  rw [Context.oneLine_report]
  exact .append (.literal (by decide)) (.literal (by decide))

omit hwords hfacts in
/-- The reason given for a key is a fixed text, or repeats an identifier or
the call. -/
theorem oneLine_reason {random : List String} {index : Option String}
    {part : Node} {v : Keys.Verdict}
    (hv : Keys.verdictOn? random index part = some v)
    (hword : part.kind = .identifier → OneLine part.text)
    (hcall : v = .randomCall part.text → Keys.isRandom part = true →
      OneLine part.text) : OneLine v.reason := by
  unfold Keys.verdictOn? at hv
  split at hv
  · cases hv
    exact .literal (by decide)
  · cases hv
    exact .literal (by decide)
  · next hkind =>
    split at hv
    · cases hv
      exact .append (.append (.literal (by decide)) (hword hkind))
        (.literal (by decide))
    · split at hv
      · cases hv
        exact .append (.append (.literal (by decide)) (hword hkind))
          (.literal (by decide))
      · cases hv
  · split at hv
    · next hrandom =>
      cases hv
      exact oneLine_randomCall.2 (hcall rfl hrandom)
    · cases hv

omit hfacts in
/-- That of a key only by the call that it repeats. -/
theorem oneLine_unstableKeys (hx : x ∈ unstableKeys ctx f.path f.root)
    (hq : ∀ s, Quotes ctx f imported x s → OneLine s) :
    OneLine x.explanation := by
  obtain ⟨element, helement, value, index, verdict, hattribute, hverdict,
    heq⟩ := exists_keyFinding hx
  obtain ⟨part, hpart, hon⟩ :=
    Keys.mem_verdicts.1 (Keys.mem_verdicts_of_classify? hverdict)
  have hvalue := Node.mem_walk_trans
    (Node.mem_walk_of_mem_jsxAttributes hattribute) helement
  rw [heq, oneLine_keyFinding]
  refine oneLine_reason hon (fun hkind => ?_) fun hcall hrandom => ?_
  · exact hwords part (Node.mem_walk_trans hpart.mem_walk hvalue) (.inl hkind)
  · exact hq _ (.key element value part helement hattribute hpart hrandom
      (hcall ▸ heq) rfl)

end

/-- In a file whose words are unbroken, the explanation of a finding stands on
one line iff all the excerpts that the finding repeats do. -/
theorem oneLine_explanation_iff (hwords : f.root.WordsUnbroken)
    (htop : f.root.above = [])
    (hx : x ∈ (allFindings ctx f imported).findings) :
    OneLine x.explanation ↔ ∀ s, Quotes ctx f imported x s → OneLine s := by
  refine ⟨fun honeLine s hs => hs.oneLine honeLine, fun hq => ?_⟩
  cases foundInFile hx with
  | render facts helpers hfacts hhelpers hx =>
    exact oneLine_renderPhase hwords hfacts htop hhelpers hx
  | hook facts helpers hfacts hhelpers h i hh hi hx =>
    exact oneLine_hookFindings hwords hfacts htop hhelpers hh hi hx hq
  | props facts hfacts hx => exact oneLine_unstableProps hwords hfacts hx hq
  | snapshots hx =>
    obtain ⟨call, -, snapshot, rfl⟩ := exists_snapshotFinding hx
    exact oneLine_snapshotFinding call snapshot
  | keys hx => exact oneLine_unstableKeys hwords hx hq

end Check

end RenderLoop
