import RenderLoop.Proofs.GuardLevels
import RenderLoop.Proofs.GuardShapes
import RenderLoop.Proofs.Sketch
import Mathlib.Data.List.TakeWhile

/-!
# Which updates in an effect are guarded

In an effect the nearest test that says anything about the state decides
(`Guard.NearestIsSafe`), whether what it says is good or bad. Only where no
test says anything is an early return looked for (`Guard.ReturnsEarlier`).

> `inEffect?_isSafe_iff_nearest`: the guard is safe iff one of the two holds,
> and there is none at all iff the call is in no conditional and behind no
> early return.

The proof takes the search apart along the way up. A test is split into its
conjuncts, and each conjunct is safe, risky or silent; a test tells something
if one of its conjuncts does (`Guard.Telling`). The search takes the first
telling test (`firstMatch?_eq`), and inside a test a safe conjunct outweighs a
risky one, so what decides is the nearest telling test and whether it has a
safe conjunct.

An early return is a weaker guard. It is looked for only if no test tells
anything, and then in every block up to the callback (`returnsEarly_iff`): it
is enough that its test mentions the state.
-/

namespace RenderLoop

namespace Guard

/-! ### Early returns -/

/-- A body that does nothing but return. -/
inductive OnlyReturns (body : Node) : Prop where
  | alone (h : body.kind = .returnStatement)
  | inBlock {s : Node} (h : body.kind = .block) (hs : body.parts = [s])
      (hreturn : s.kind = .returnStatement)

/-- An `if` without `else` that only returns, and whose test mentions the
state. -/
structure EarlyReturn (state : String) (s : Node) : Prop where
  isIf : s.kind = .ifStatement
  noElse : s.child? .alternative = none
  onlyReturns : ∃ body, s.child? .consequence = some body ∧ OnlyReturns body
  mentions : ∃ c, s.child? .condition = some c ∧ state ∈ c.identifiers

/-- A block that returns early before a child: up to the early return all its
statements start before the child does. -/
def ReturnsEarlier (state : String) (child block : Node) : Prop :=
  block.kind = .block ∧ ∃ before s after, block.namedChildren = before ++
    s :: after ∧ (∀ x ∈ before ++ [s], x.start < child.start) ∧
    EarlyReturn state s

/-- The test for a bare return recognises the bodies that only return. -/
theorem isBareReturn_iff (body : Node) :
    isBareReturn body = true ↔ OnlyReturns body := by
  constructor
  · intro h
    unfold isBareReturn at h
    split at h
    · next hkind => exact .alone hkind
    · next hkind =>
      split at h
      · next s hs => exact .inBlock hkind hs (beq_iff_eq.1 h)
      · cases h
    · cases h
  · intro h
    cases h with
    | alone hkind => simp [isBareReturn, hkind]
    | inBlock hkind hs hreturn => simp [isBareReturn, hkind, hs, hreturn]

/-- And the test for an early return the statements that return early. -/
theorem isEarlyReturn_iff (state : String) (s : Node) :
    isEarlyReturn state s = true ↔ EarlyReturn state s := by
  unfold isEarlyReturn
  rw [Bool.and_eq_true, Bool.and_eq_true, Bool.and_eq_true, beq_iff_eq,
    Option.isNone_iff_eq_none, Option.any_eq_true, Option.any_eq_true]
  simp only [isBareReturn_iff, List.contains_iff_mem]
  constructor
  · intro hex
    obtain ⟨⟨⟨hif, helse⟩, hreturns⟩, hmentions⟩ := hex
    exact ⟨hif, helse, hreturns, hmentions⟩
  · intro hex
    obtain ⟨hif, helse, hreturns, hmentions⟩ := hex
    exact ⟨⟨⟨hif, helse⟩, hreturns⟩, hmentions⟩

/-- The statements before a child are taken from the front, as long as they
start before it does. -/
theorem mem_statementsBefore {block child s : Node} :
    s ∈ statementsBefore block child ↔
      ∃ before after, block.namedChildren = before ++ s :: after ∧
      ∀ x ∈ before ++ [s], x.start < child.start := by
  unfold statementsBefore
  constructor
  · intro hs
    obtain ⟨before, after, hsplit⟩ := List.append_of_mem hs
    refine ⟨before, after ++ block.namedChildren.dropWhile fun s =>
      s.start < child.start, ?_, ?_⟩
    · rw [← List.cons_append, ← List.append_assoc, ← hsplit,
        List.takeWhile_append_dropWhile]
    · intro x hx
      have hx : x ∈ block.namedChildren.takeWhile fun s =>
        s.start < child.start := by
        rw [hsplit, ← List.singleton_append, ← List.append_assoc]
        exact List.mem_append_left _ hx
      simpa using List.mem_takeWhile_imp hx
  · intro hex
    obtain ⟨before, after, hsplit, hstart⟩ := hex
    rw [hsplit, ← List.singleton_append, ← List.append_assoc,
      List.takeWhile_append_of_pos fun x hx => decide_eq_true (hstart x hx)]
    exact List.mem_append_left _
      (List.mem_append_right _ (List.mem_singleton.2 rfl))

/-- An early return counts in any block on the way up to the callback. -/
theorem returnsEarly_iff (n : Node) (stop : Option Key) (state : String) :
    returnsEarly n stop state = true ↔
      ∃ s ∈ n.stepsBelow stop, ReturnsEarlier state s.1 s.2 := by
  unfold returnsEarly ReturnsEarlier
  rw [List.any_eq_true]
  refine exists_congr fun s => and_congr_right fun _ => ?_
  rw [Bool.and_eq_true, beq_iff_eq, List.any_eq_true]
  refine and_congr_right fun _ => ?_
  simp only [mem_statementsBefore, isEarlyReturn_iff]
  constructor
  · intro hex
    obtain ⟨t, ⟨before, after, hsplit, hstart⟩, hreturn⟩ := hex
    exact ⟨before, t, after, hsplit, hstart, hreturn⟩
  · intro hex
    obtain ⟨before, t, after, hsplit, hstart, hreturn⟩ := hex
    exact ⟨t, ⟨before, after, hsplit, hstart⟩, hreturn⟩

/-! ### The nearest test -/

/-- A test with a conjunct that says something about the state, good or bad. -/
def Telling (call : Node) (setter state : String) (c : Node) : Prop :=
  ∃ q, Conjunct c q ∧ (SafeInEffect call setter state q ∨ Risky call state q)

/-- The nearest telling test has a safe conjunct. -/
def NearestIsSafe (call : Node) (setter state : String) (stop : Option Key) :
    Prop :=
  ∃ before c after, testsAround call stop = before ++ c :: after ∧
    (∀ b ∈ before, ¬ Telling call setter state b) ∧
    ∃ q, Conjunct c q ∧ SafeInEffect call setter state q

section

variable {call : Node} {setter state : String} {stop : Option Key}

/-- A test matches nothing iff it does not tell anything about the state. -/
theorem matchCondition?_eq_none (c : Node) :
    matchCondition? c call setter state false = none ↔
      ¬ Telling call setter state c := by
  rw [← not_ne_iff, matchCondition?_ne_none]
  simp only [recognised_inEffect]
  rfl

theorem firstMatch?_eq :
    firstMatch? (enclosingConditions call stop) call setter state =
    (testsAround call stop).findSome? fun c =>
      matchCondition? c call setter state false := by
  unfold firstMatch?
  rw [← filterMap_enclosingConditions, ← List.head?_filterMap,
    ← List.head?_filterMap, List.filterMap_filterMap]
  rfl

/-- No test matches iff none of them tells anything. -/
theorem firstMatch?_eq_none :
    firstMatch? (enclosingConditions call stop) call setter state = none ↔
    ∀ c ∈ testsAround call stop, ¬ Telling call setter state c := by
  rw [firstMatch?_eq, List.findSome?_eq_none_iff]
  simp only [matchCondition?_eq_none]

/-- The first match is safe iff the nearest telling test has a safe
conjunct. -/
theorem isSafe_firstMatch? :
    (firstMatch? (enclosingConditions call stop) call setter state).any
      (·.isSafe) = true ↔ NearestIsSafe call setter state stop := by
  rw [firstMatch?_eq, Option.any_eq_true]
  unfold NearestIsSafe
  simp only [List.findSome?_eq_some_iff,
    matchCondition?_eq_none, ← isSafe_testInEffect,
    Option.any_eq_true]
  constructor
  · intro hex
    obtain ⟨kind, ⟨before, c, after, hsplit, hkind, hbefore⟩, hsafe⟩ := hex
    exact ⟨before, c, after, hsplit, hbefore, kind, hkind, hsafe⟩
  · intro hex
    obtain ⟨before, c, after, hsplit, hbefore, kind, hkind, hsafe⟩ := hex
    exact ⟨kind, ⟨before, c, after, hsplit, hkind, hbefore⟩, hsafe⟩

/-! ### The verdict -/

/-- The guard is safe by a test, or by an early return where no test says
anything. -/
theorem isSafe_inEffect?_iff (hstate : state ≠ "") :
    (inEffect? call setter (some state) stop).any (·.isSafe) = true ↔
      (firstMatch? (enclosingConditions call stop) call setter state).any
        (·.isSafe) = true ∨
        firstMatch? (enclosingConditions call stop) call setter state = none ∧
          returnsEarly call stop state = true := by
  unfold inEffect?
  simp only [beq_iff_eq, if_neg hstate]
  cases firstMatch? (enclosingConditions call stop) call setter state with
  | some kind => simp [isSafe]
  | none =>
    by_cases hearly : returnsEarly call stop state = true
    · simp [hearly, isSafe, GuardKind.isSafe]
    · by_cases hno : (enclosingConditions call stop).isEmpty
      · simp [hearly, hno]
      · simp [hearly, hno, isSafe, GuardKind.isSafe]

/-- There is no guard iff there is neither a condition nor an early return. -/
theorem inEffect?_eq_none_iff (hstate : state ≠ "") :
    inEffect? call setter (some state) stop = none ↔
      enclosingConditions call stop = [] ∧
        ¬ returnsEarly call stop state = true := by
  unfold inEffect?
  simp only [beq_iff_eq, if_neg hstate]
  cases hmatch : firstMatch? (enclosingConditions call stop) call
    setter state with
  | some kind =>
    -- something was matched, so there was a condition to match
    refine iff_of_false nofun fun h => ?_
    rw [h.1] at hmatch
    cases hmatch
  | none =>
    by_cases hearly : returnsEarly call stop state = true
    · simp [hearly]
    · by_cases hno : enclosingConditions call stop = []
      · simp [hearly, hno]
      · simp [hearly, hno]

end

/-- A guard in an effect is safe iff the nearest telling test has a safe
conjunct, or no test tells anything and an early return on the state comes
first. There is no guard at all iff no step up to the boundary is a
conditional and no block on the way returns early. -/
theorem inEffect?_isSafe_iff_nearest (call : Node) (setter state : String)
    (stop : Option Key) (hstate : state ≠ "") :
    ((inEffect? call setter (some state) stop).any (·.isSafe) = true ↔
      NearestIsSafe call setter state stop ∨
        (∀ c ∈ testsAround call stop, ¬ Telling call setter state c) ∧
          ∃ s ∈ call.stepsBelow stop, ReturnsEarlier state s.1 s.2) ∧
    (inEffect? call setter (some state) stop = none ↔
      (∀ s ∈ call.stepsBelow stop, ¬ Conditional s.1 s.2) ∧
        ¬ ∃ s ∈ call.stepsBelow stop, ReturnsEarlier state s.1 s.2) := by
  constructor
  · rw [isSafe_inEffect?_iff hstate, isSafe_firstMatch?, firstMatch?_eq_none,
      returnsEarly_iff]
  · rw [inEffect?_eq_none_iff hstate, enclosingConditions_eq_nil,
      returnsEarly_iff]

/-- An update in an effect inside two `if`s. The nearer test tells nothing
about the state; the other one does, in one of its two conjuncts. -/
def layered : Node := Sketch.program
  [.function "Panel" ["p", "open", "ready"] [.useState "v" "setV",
    .run (.call "useEffect" [
      .arrow [.ifThen (.binary (.binary (.name "v") "!==" (.name "p")) "&&"
        (.name "open")) [.ifThen (.name "ready")
        [.run (.call "setV" [.name "p"])]]],
      .array ["p", "open", "ready"]])]]

namespace layered

def callback : Node := layered.at [0, 2, 1, 0, 1, 0]

def update : Node := callback.at [1, 0, 1, 0, 1, 0, 0]

end layered

/-- The nearer test tells nothing, so the one around it decides. -/
theorem nearestIsSafe_layered :
    "v" ≠ "" ∧ NearestIsSafe layered.update "setV" "v"
      (some layered.callback.key) := by
  refine ⟨by decide, ?_⟩
  obtain ⟨hsafe, -⟩ := inEffect?_isSafe_iff_nearest layered.update "setV" "v"
    (some layered.callback.key) (by decide)
  refine (hsafe.1 (by decide +kernel)).resolve_right fun h => ?_
  exact absurd ((returnsEarly_iff _ _ _).2 h.2) (by decide +kernel)

end Guard

end RenderLoop
