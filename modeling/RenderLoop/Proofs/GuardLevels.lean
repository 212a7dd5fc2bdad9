import RenderLoop.Guard.Enclosing
import Mathlib.Tactic.Common

/-!
# The conditionals around a call

On the way up from a call to a boundary every step leads from a child to its
parent. A step may be a conditional (`Guard.Conditional`), and one into the
consequence of an `if` brings its test along (`Guard.testAt?`). The tests met
on the way, nearest first, are `Guard.testsAround`.

> `enclosingConditions_eq_nil`: there is nothing to judge iff no step is a
> conditional.

> `filterMap_enclosingConditions`: what is judged are the tests around the
> call, all of them and in order.

A child is taken to lie in a part of its parent when its bytes do.

The steps of the way up are looked at one by one, so each statement about the
whole way reduces to one about a single step, a child and its parent:
`conditionAt?_ne_none` for whether the step counts, and `testAt?_eq` for what
it brings along. The parts of an `if`, of a ternary and of a short circuit are
listed in `Guard.Conditional` once, and all that follows refers to the list.

Only the consequence of an `if` brings a test along. On the other branch the
test is known to fail, which says nothing that a guard could use.
-/

namespace RenderLoop

namespace Guard

/-- The bytes of the child lie within the part of the parent that has the
given role. -/
def InPart (field : Field) (child parent : Node) : Prop :=
  ∃ p, parent.child? field = some p ∧ p.encloses child = true

theorem inPart_iff {field : Field} {child parent : Node} :
    (parent.child? field).any (·.encloses child) = true ↔
      InPart field child parent :=
  Option.any_eq_true _ _

instance (field : Field) (child parent : Node) :
    Decidable (InPart field child parent) :=
  decidable_of_iff _ inPart_iff

/-- The steps up from a child that need not run when its parent does. -/
inductive Conditional (child parent : Node) : Prop where
  | consequence (h : parent.kind = .ifStatement)
      (hin : InPart .consequence child parent)
  /-- Another part of an `if` than its test. -/
  | alternative (h : parent.kind = .ifStatement)
      (hout : ¬ InPart .condition child parent)
  | arm (h : parent.kind = .ternary) (hout : ¬ InPart .condition child parent)
  /-- The right operand of a short circuit. -/
  | operand (h : parent.kind = .binary)
      (hop : isShortCircuit parent.operator = true)
      (hin : InPart .right child parent)
  | clause (h : parent.kind = .switchCase)
  | handler (h : parent.kind = .catchClause)

/-- The test that a step up brings along: that of an `if` whose consequence
holds the child. -/
def testAt? (s : Node × Node) : Option Node :=
  if s.2.kind = .ifStatement ∧ InPart .consequence s.1 s.2 then
    s.2.child? .condition else none

/-- The tests of the `if`s that hold a node in their consequence below a
boundary, nearest first. -/
def testsAround (n : Node) (stop : Option Key) : List Node :=
  (n.stepsBelow stop).filterMap testAt?

/-! ### One step -/

/-- A step is judged iff it is a conditional. -/
theorem conditionAt?_ne_none (child parent : Node) :
    conditionAt? child parent ≠ none ↔ Conditional child parent := by
  unfold conditionAt?
  constructor
  · intro h
    split at h
    · next hkind =>
      simp only [inPart_iff] at h
      by_cases hin : InPart .consequence child parent
      · exact .consequence hkind hin
      · by_cases hcond : InPart .condition child parent
        · simp [hin, hcond] at h
        · exact .alternative hkind hcond
    · next hkind =>
      simp only [inPart_iff] at h
      by_cases hcond : InPart .condition child parent
      · simp [hcond] at h
      · exact .arm hkind hcond
    · next hkind =>
      by_cases hright : isShortCircuit parent.operator &&
        (parent.child? .right).any (·.encloses child)
      · rw [Bool.and_eq_true, inPart_iff] at hright
        exact .operand hkind hright.1 hright.2
      · simp [hright] at h
    · next hkind => exact .clause hkind
    · next hkind => exact .handler hkind
    · exact absurd rfl h
  · intro h
    cases h with
    | consequence hkind hin => simp [hkind, inPart_iff.2 hin]
    | alternative hkind hout =>
      simp only [hkind, inPart_iff, if_neg hout]
      split <;> simp
    | arm hkind hout => simp [hkind, inPart_iff, hout]
    | operand hkind hop hin => simp [hkind, hop, inPart_iff.2 hin]
    | clause hkind => simp [hkind]
    | handler hkind => simp [hkind]

/-- The test that a step brings along is what there is to judge at it. -/
theorem testAt?_eq (child parent : Node) :
    testAt? (child, parent) = (conditionAt? child parent).bind id := by
  unfold testAt? conditionAt?
  split
  · next h => simp [h.1, inPart_iff.2 h.2]
  · next h =>
    split
    · next hkind =>
      -- the other parts of an `if` are conditionals without a test
      have hout : ¬ InPart .consequence child parent :=
        fun hin => h ⟨hkind, hin⟩
      simp only [inPart_iff]
      rw [if_neg hout]
      split <;> rfl
    · split <;> rfl
    · split <;> rfl
    · rfl
    · rfl
    · rfl

/-! ### All steps -/

/-- Nothing is judged iff no step on the way up is a conditional. -/
theorem enclosingConditions_eq_nil (n : Node) (stop : Option Key) :
    enclosingConditions n stop = [] ↔
      ∀ s ∈ n.stepsBelow stop, ¬ Conditional s.1 s.2 := by
  unfold enclosingConditions
  rw [List.filterMap_eq_nil_iff]
  refine forall₂_congr fun s _ => ?_
  rw [← conditionAt?_ne_none, not_ne_iff]

/-- What is judged are the tests around the node, nearest first. -/
theorem filterMap_enclosingConditions (n : Node) (stop : Option Key) :
    (enclosingConditions n stop).filterMap id = testsAround n stop := by
  unfold enclosingConditions testsAround
  rw [List.filterMap_filterMap]
  exact congrArg (List.filterMap · _)
    (funext fun s => (testAt?_eq s.1 s.2).symm)

end Guard

end RenderLoop
