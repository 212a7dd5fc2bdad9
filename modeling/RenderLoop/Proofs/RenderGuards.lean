import RenderLoop.Proofs.GuardLevels
import RenderLoop.Proofs.GuardShapes
import RenderLoop.Proofs.SameCode
import RenderLoop.Proofs.Sketch

/-!
# Which updates while rendering are guarded

While rendering every test around an update is looked at, and one that is safe
is enough. So an update that is guarded stays so when more is put around it
(`Guard.Wrapped`): the tests that were there are still there, and a test is
judged by its code alone.

> `inRender?_isSafe_iff_anyLevel`: the guard is safe iff some test at any
> level has a safe conjunct, there is none at all iff the call is in no
> conditional, and a safe guard stays safe under wrapping.

An effect is different: there the nearest telling test decides, and an unsafe
one hides the safe ones around it. Here the kinds of all tests are collected
and the best is taken (`isSafe_best`), so the question is only whether a safe
one is among them.

For the second half, being safe has to be carried from one program to another.
Every condition on the list of safe shapes is about code and not about places,
so it holds of a test with the same code (`SafeInRender.same`); and the tests
around the call are still there, in their order, when steps are put in between
(`Wrapped.exists_test`).
-/

namespace RenderLoop

namespace Guard

/-! ### Any level -/

/-- Of all kinds found, a safe one is preferred. -/
theorem isSafe_best (kinds : List GuardKind) :
    (((kinds.find? (·.isSafe)).or kinds.head?).getD .unknown).isSafe = true ↔
      ∃ kind ∈ kinds, kind.isSafe = true := by
  cases hfind : kinds.find? (·.isSafe) with
  | some kind =>
    have hsafe : kind.isSafe = true := List.find?_some hfind
    exact iff_of_true hsafe ⟨kind, List.mem_of_find?_eq_some hfind, hsafe⟩
  | none =>
    rw [List.find?_eq_none] at hfind
    refine iff_of_false ?_ fun ⟨kind, hkind, hsafe⟩ => hfind kind hkind hsafe
    cases kinds with
    | nil => exact nofun
    | cons kind kinds => exact hfind kind List.mem_cons_self

section

variable {call : Node} {setter : String} {state : Option String}
  {stop : Option Key}

/-- All the tests around a call are judged, each by itself. -/
theorem renderKinds_eq (name : String) :
    renderKinds (enclosingConditions call stop) call setter name =
      (testsAround call stop).filterMap fun c =>
        matchCondition? c call setter name true := by
  unfold renderKinds
  rw [← filterMap_enclosingConditions, List.filterMap_filterMap]
  rfl

/-- One of them is safe iff it has a safe conjunct. -/
theorem isSafe_renderKinds (name : String) :
    (∃ kind ∈ renderKinds (enclosingConditions call stop) call setter name,
      kind.isSafe = true) ↔
      ∃ c ∈ testsAround call stop, ∃ q, Conjunct c q ∧
      SafeInRender call name q := by
  simp only [renderKinds_eq, List.mem_filterMap]
  constructor
  · intro hex
    obtain ⟨kind, ⟨c, hc, hkind⟩, hsafe⟩ := hex
    refine ⟨c, hc, (isSafe_testInRender setter c).1 ?_⟩
    rw [hkind]
    exact hsafe
  · intro hex
    obtain ⟨c, hc, hq⟩ := hex
    have hany := (isSafe_testInRender setter c).2 hq
    rw [Option.any_eq_true] at hany
    obtain ⟨kind, hkind, hsafe⟩ := hany
    exact ⟨kind, ⟨c, hc, hkind⟩, hsafe⟩

/-- There is no guard iff there is no conditional. -/
theorem inRender?_eq_none_iff :
    inRender? call setter state stop = none ↔
      enclosingConditions call stop = [] := by
  unfold inRender?
  by_cases hno : enclosingConditions call stop = []
  · simp [hno]
  · simp [hno]

/-- The guard is safe iff there is a state with a name and a safe test about
it. -/
theorem isSafe_inRender?_iff :
    (inRender? call setter state stop).any (·.isSafe) = true ↔
      ∃ name, state = some name ∧ name ≠ "" ∧
        ∃ kind ∈ renderKinds (enclosingConditions call stop) call setter name,
          kind.isSafe = true := by
  unfold inRender?
  simp only
  split
  · next hno =>
    -- without a condition there is no kind either
    rw [List.isEmpty_iff] at hno
    simp [hno, renderKinds]
  · next hno =>
    show GuardKind.isSafe _ = true ↔ _
    rw [isSafe_best]
    cases state with
    | none => simp
    | some name =>
      by_cases hname : name = ""
      · simp [hname]
      · simp [hname]

end

/-! ### More around an update -/

/-- Steps up to parents of the same kind, with the same test, from the same
side of it. -/
structure SameStep (s s' : Node × Node) : Prop where
  kind : s.2.kind = s'.2.kind
  test : Option.Rel Node.SameCode (s.2.child? .condition)
    (s'.2.child? .condition)
  side : InPart .consequence s.1 s.2 ↔ InPart .consequence s'.1 s'.2

/-- The second call is the first one with more around it: the steps up to the
boundary are still there, in their order, and any number of others has come in
between, inside or outside of them. -/
structure Wrapped (call : Node) (stop : Option Key) (call' : Node)
    (stop' : Option Key) : Prop where
  same : call.SameCode call'
  steps : List.SublistForall₂ SameStep (call.stepsBelow stop)
    (call'.stepsBelow stop')

/-- Steps of the same kind bring along the same test. -/
theorem SameStep.rel_testAt? {s s' : Node × Node} (h : SameStep s s') :
    Option.Rel Node.SameCode (testAt? s) (testAt? s') := by
  unfold testAt?
  rw [h.kind]
  simp only [h.side]
  split
  · exact h.test
  · exact .none

/-- Every step that was there is still there. -/
theorem exists_step {steps steps' : List (Node × Node)}
    (h : List.SublistForall₂ SameStep steps steps')
    {s : Node × Node} (hs : s ∈ steps) : ∃ s' ∈ steps', SameStep s s' := by
  induction h with
  | nil => cases hs
  | cons hstep _ ih =>
    rcases List.mem_cons.1 hs with rfl | hs
    · exact ⟨_, List.mem_cons_self, hstep⟩
    · obtain ⟨s', hs', hsame⟩ := ih hs
      exact ⟨s', List.mem_cons_of_mem _ hs', hsame⟩
  | cons_right _ ih =>
    obtain ⟨s', hs', hsame⟩ := ih hs
    exact ⟨s', List.mem_cons_of_mem _ hs', hsame⟩

/-- A test that was around the call is still there when more is put around
it. -/
theorem Wrapped.exists_test {call call' : Node} {stop stop' : Option Key}
    (h : Wrapped call stop call' stop') {c : Node}
    (hc : c ∈ testsAround call stop) :
    ∃ c' ∈ testsAround call' stop', c.SameCode c' := by
  obtain ⟨s, hs, htest⟩ := List.mem_filterMap.1 hc
  obtain ⟨s', hs', hstep⟩ := exists_step h.steps hs
  obtain ⟨c', hc', hsame⟩ := Node.exists_of_rel hstep.rel_testAt? htest
  exact ⟨c', List.mem_filterMap.2 ⟨s', hs', hc'⟩, hsame⟩

section

variable {c c' q q' call call' : Node} {state : String}

theorem isConjunction_congr (h : q.SameCode q') :
    IsConjunction q ↔ IsConjunction q' := by
  unfold IsConjunction
  rw [h.kind, h.operator]

/-- Tests with the same code have conjuncts with the same code. -/
theorem Conjunct.exists_same (hq : Conjunct c q) (h : c.SameCode c') :
    ∃ q', Conjunct c' q' ∧ q.SameCode q' := by
  induction hq generalizing c' with
  | whole hno =>
    exact ⟨c'.bare, .whole fun hc =>
      hno ((isConjunction_congr h.bare).2 hc), h.bare⟩
  | left hc hl _ ih =>
    obtain ⟨l', hl', hsame⟩ := Node.exists_of_rel (h.bare.child? .left) hl
    obtain ⟨q', hq', hqq⟩ := ih hsame
    exact ⟨q', .left ((isConjunction_congr h.bare).1 hc) hl' hq', hqq⟩
  | right hc hr _ ih =>
    obtain ⟨r', hr', hsame⟩ := Node.exists_of_rel (h.bare.child? .right) hr
    obtain ⟨q', hq', hqq⟩ := ih hsame
    exact ⟨q', .right ((isConjunction_congr h.bare).1 hc) hr' hq', hqq⟩

theorem IsInequality.same (hq : IsInequality q) (h : q.SameCode q') :
    IsInequality q' := by
  unfold IsInequality at hq ⊢
  rw [← h.kind, ← h.operator]
  exact hq

theorem IsNegationOf.same (hq : IsNegationOf q state) (h : q.SameCode q') :
    IsNegationOf q' state := by
  obtain ⟨hkind, hop, a, ha, hvariable⟩ := hq
  obtain ⟨a', ha', hsame⟩ := Node.exists_of_rel (h.child? .argument) ha
  exact ⟨h.kind ▸ hkind, h.operator ▸ hop, a', ha',
    hsame.isVariable state ▸ hvariable⟩

/-- An operand is recognised by its code. -/
theorem HasOperand.same {p : Node → Bool} (hq : HasOperand q p)
    (h : q.SameCode q') (hp : ∀ a b, a.SameCode b → p a = p b) :
    HasOperand q' p := by
  obtain ⟨a, ha | ha, hpa⟩ := hq
  · obtain ⟨a', ha', hsame⟩ := Node.exists_of_rel (h.child? .left) ha
    exact ⟨a', .inl ha', hp _ _ hsame ▸ hpa⟩
  · obtain ⟨a', ha', hsame⟩ := Node.exists_of_rel (h.child? .right) ha
    exact ⟨a', .inr ha', hp _ _ hsame ▸ hpa⟩

theorem ComparesAccesses.same (hq : ComparesAccesses q) (h : q.SameCode q') :
    ComparesAccesses q' := by
  obtain ⟨a, b, ha, hb, hsimple, hsimple'⟩ := hq
  obtain ⟨a', ha', hsame⟩ := Node.exists_of_rel (h.bareChild? .left) ha
  obtain ⟨b', hb', hsame'⟩ := Node.exists_of_rel (h.bareChild? .right) hb
  exact ⟨a', b', ha', hb', hsame.kind ▸ hsimple, hsame'.kind ▸ hsimple'⟩

/-- A conjunct is judged by its code and that of the call. -/
theorem SafeInRender.same (hsafe : SafeInRender call state q)
    (hcall : call.SameCode call') (h : q.SameCode q') :
    SafeInRender call' state q' := by
  cases hsafe with
  | compared hq hop =>
    exact .compared (hq.same h) (hop.same h fun _ _ hab => hab.isVariable state)
  | reset hq hops ha hreset =>
    obtain ⟨a', ha', hsame⟩ := Node.exists_of_rel hcall.firstArgument? ha
    exact .reset (hq.same h) (hops.same h) ha' (hsame.isReset ▸ hreset)
  | partCompared hq hop hcopy =>
    refine .partCompared (hq.same h)
      (hop.same h fun _ _ hab => hab.isPartOf state) ?_
    rw [← Node.SameCode.spreadsState hcall.firstArgument?]
    exact hcopy
  | negated hq ha htruthy =>
    obtain ⟨a', ha', hsame⟩ := Node.exists_of_rel hcall.firstArgument? ha
    exact .negated (hq.same h) ha' (hsame.isFalsy ▸ htruthy)
  | tested hq ha hfalsy =>
    obtain ⟨a', ha', hsame⟩ := Node.exists_of_rel hcall.firstArgument? ha
    exact .tested (h.isVariable state ▸ hq) ha' (hsame.isFalsy ▸ hfalsy)

end

/-- A guard while rendering is safe iff the state has a name and some test
around the call, at any level, has a conjunct on the list. There is no guard
at all iff no step up to the boundary is a conditional. Whatever comes in
around the call, a safe guard stays safe. -/
theorem inRender?_isSafe_iff_anyLevel (call : Node) (setter : String)
    (state : Option String) (stop : Option Key) :
    (inRender? call setter state stop = none ↔
      ∀ s ∈ call.stepsBelow stop, ¬ Conditional s.1 s.2) ∧
    ((inRender? call setter state stop).any (·.isSafe) = true ↔
      ∃ name, state = some name ∧ name ≠ "" ∧
        ∃ c ∈ testsAround call stop, ∃ q, Conjunct c q ∧
          SafeInRender call name q) ∧
    ∀ call' stop', Wrapped call stop call' stop' →
      (inRender? call setter state stop).any (·.isSafe) = true →
        (inRender? call' setter state stop').any (·.isSafe) = true := by
  refine ⟨?_, ?_, fun call' stop' hwrapped hsafe => ?_⟩
  · rw [inRender?_eq_none_iff, enclosingConditions_eq_nil]
  · rw [isSafe_inRender?_iff]
    simp only [isSafe_renderKinds]
  · rw [isSafe_inRender?_iff] at hsafe ⊢
    simp only [isSafe_renderKinds] at hsafe ⊢
    -- the test that was safe is still around the call, and so is its safe
    -- conjunct
    obtain ⟨name, hname, hne, c, hc, q, hq, hq'⟩ := hsafe
    obtain ⟨c', hc', hsame⟩ := hwrapped.exists_test hc
    obtain ⟨q', hconjunct, hqq⟩ := hq.exists_same hsame
    exact ⟨name, hname, hne, c', hc', q', hconjunct, hq'.same hwrapped.same hqq⟩

/-! ### Checking that a call is wrapped -/

instance : DecidableRel (Option.Rel Node.SameCode)
  | none, none => .isTrue .none
  | some a, some b =>
    decidable_of_iff (a.SameCode b) ⟨.some, fun h => by cases h; assumption⟩
  | none, some _ => .isFalse nofun
  | some _, none => .isFalse nofun

instance : DecidableRel SameStep := fun s s' =>
  decidable_of_iff (s.2.kind = s'.2.kind ∧
      Option.Rel Node.SameCode (s.2.child? .condition)
        (s'.2.child? .condition) ∧
      (InPart .consequence s.1 s.2 ↔ InPart .consequence s'.1 s'.2))
    ⟨fun h => ⟨h.1, h.2.1, h.2.2⟩, fun h => ⟨h.kind, h.test, h.side⟩⟩

instance decidableSublist : ∀ steps steps' : List (Node × Node),
    Decidable (List.SublistForall₂ SameStep steps steps')
  | [], _ => .isTrue .nil
  | _ :: _, [] => .isFalse nofun
  | s :: steps, s' :: steps' =>
    -- the first step is kept here, or it comes later
    have := decidableSublist steps steps'
    have := decidableSublist (s :: steps) steps'
    decidable_of_iff ((SameStep s s' ∧
        List.SublistForall₂ SameStep steps steps') ∨
        List.SublistForall₂ SameStep (s :: steps) steps')
      ⟨fun h => h.elim (fun h => .cons h.1 h.2) .cons_right, fun h => by
        cases h with
        | cons hstep h => exact .inl ⟨hstep, h⟩
        | cons_right h => exact .inr h⟩

instance (call : Node) (stop : Option Key) (call' : Node) (stop' : Option Key) :
    Decidable (Wrapped call stop call' stop') :=
  decidable_of_iff (call.SameCode call' ∧
      List.SublistForall₂ SameStep (call.stepsBelow stop)
        (call'.stepsBelow stop'))
    ⟨fun h => ⟨h.1, h.2⟩, fun h => ⟨h.same, h.steps⟩⟩

namespace following

/-- A component that runs one statement while rendering. -/
def component (statement : Sketch) : Node :=
  (Sketch.program [.function "Panel" ["p", "open"] [.useState "v" "setV",
    statement]]).at [0]

/-- An `if` that lets the state follow a value. -/
def ifChanged (statement : Sketch) : Sketch :=
  .ifThen (.binary (.name "v") "!==" (.name "p")) [statement]

def update : Sketch := .run (.call "setV" [.name "p"])

def plain : Node := component (ifChanged update)

/-- The same update with one `if` outside of the test and one inside. -/
def wrapped : Node :=
  component (.ifThen (.name "open") [ifChanged (.ifThen (.name "p") [update])])

def plainCall : Node := plain.at [2, 1, 1, 0, 0]

def wrappedCall : Node := wrapped.at [2, 1, 1, 0, 1, 0, 1, 0, 0]

end following

/-- One `if` outside of the test and one inside of it change nothing. -/
theorem isSafe_wrapped_following :
    Wrapped following.plainCall (some following.plain.key) following.wrappedCall
        (some following.wrapped.key) ∧
      (inRender? following.wrappedCall "setV" (some "v")
        (some following.wrapped.key)).any (·.isSafe) =
        true := by
  have hwrapped : Wrapped following.plainCall (some following.plain.key)
      following.wrappedCall (some following.wrapped.key) := by decide +kernel
  obtain ⟨-, -, hstays⟩ :=
    inRender?_isSafe_iff_anyLevel following.plainCall "setV" (some "v")
      (some following.plain.key)
  exact ⟨hwrapped, hstays _ _ hwrapped (by decide +kernel)⟩

end Guard

end RenderLoop
