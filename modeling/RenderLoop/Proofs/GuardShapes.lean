import RenderLoop.Guard.Enclosing
import Mathlib.Tactic.Common

/-!
# The shapes of a test that protect an update

A test is split along `&&` into conjuncts (`Guard.Conjunct`), and each
conjunct is judged by its shape. The shapes that count are listed twice, for
an update in an effect (`Guard.SafeInEffect`) and for one while rendering
(`Guard.SafeInRender`), and one shape is recognised as a risk (`Guard.Risky`).

> `Guard.isSafe_testInEffect`, `Guard.isSafe_testInRender`: a test is safe iff
> one of its conjuncts is on the list.

`Guard.isSafe_matchCondition?` is the induction over the test that this takes;
the lists of shapes come in through `Guard.shape?`, which judges a single
conjunct. A shape that is on none of the lists is therefore never taken for
safe.

The lists are written for a reader and the code for a single pass, so they do
not have the same form: the code asks for the kind of the expression first and
then for its operands. The proof follows that first question. For each of the
three kinds of conjunct, negations, inequalities and all others, one lemma
says what the code makes of it, and another what the lists have to say about
it (`shape?_of_negation` and `safeInEffect_of_negation`, and so on). The two
are then compared.

Nothing is assumed about the tree. A conjunct may miss an operand, and it is
then on no list.
-/

namespace RenderLoop

namespace Tree

mutual

theorem bare_bare (above : List Tree) : ∀ t : Tree,
    (t.bare above).tree.bare (t.bare above).above = t.bare above
  | node l cs => by
    by_cases hwrapper : l.kind.isWrapper = true
    · by_cases hlast : l.kind = .typeAssertion
      · rw [bare, if_pos hwrapper, if_pos hlast]
        cases h : lastBare? (node l cs :: above) cs with
        | none =>
          show bare above (node l cs) = _
          rw [bare, if_pos hwrapper, if_pos hlast, h]
        | some n => exact bare_of_lastBare? _ cs n h
      · rw [bare, if_pos hwrapper, if_neg hlast]
        cases h : firstBare? (node l cs :: above) cs with
        | none =>
          show bare above (node l cs) = _
          rw [bare, if_pos hwrapper, if_neg hlast, h]
        | some n => exact bare_of_firstBare? _ cs n h
    · rw [bare, if_neg hwrapper]
      show bare above (node l cs) = _
      rw [bare, if_neg hwrapper]

theorem bare_of_firstBare? (above : List Tree) :
    ∀ (ts : List Tree) (n : Node), firstBare? above ts = some n →
      n.tree.bare n.above = n
  | [], n, h => by simp [firstBare?] at h
  | t :: ts, n, h => by
    rw [firstBare?] at h
    split at h
    · cases h
      exact bare_bare above t
    · exact bare_of_firstBare? above ts n h

theorem bare_of_lastBare? (above : List Tree) :
    ∀ (ts : List Tree) (n : Node), lastBare? above ts = some n →
      n.tree.bare n.above = n
  | [], n, h => by simp [lastBare?] at h
  | t :: ts, n, h => by
    rw [lastBare?] at h
    split at h
    · next hm =>
      cases h
      exact bare_of_lastBare? above ts n hm
    · split at h
      · cases h
        exact bare_bare above t
      · cases h

end

end Tree

namespace Node

/-- Stripping wrappers twice is stripping them once. -/
theorem bare_bare (n : Node) : n.bare.bare = n.bare := n.tree.bare_bare n.above

/-- What is not wrapped is bare already. -/
theorem bare_of_kind {n : Node} (h : n.kind.isWrapper = false) :
    n.bare = n := by
  obtain ⟨⟨l, cs⟩, above⟩ := n
  have hno : ¬ l.kind.isWrapper = true := by
    rw [Bool.not_eq_true]
    exact h
  unfold bare
  rw [Tree.bare, if_neg hno]

/-- Being a variable is a matter of the expression inside. -/
theorem isVariable_bare (n : Node) (name : String) :
    n.bare.isVariable name = n.isVariable name := by
  unfold isVariable
  rw [bare_bare]

end Node

namespace Guard

/-! ### Conjuncts -/

/-- An expression of the form `a && b`. -/
def IsConjunction (n : Node) : Prop := n.kind = .binary ∧ n.operator = "&&"

/-- The parts of a test that all have to hold for it to hold: what is left
when the test and its sides are split along `&&`, wherever wrappers stand in
between. -/
inductive Conjunct : Node → Node → Prop where
  | whole {c : Node} (h : ¬ IsConjunction c.bare) : Conjunct c c.bare
  | left {c l q : Node} (h : IsConjunction c.bare)
      (hl : c.bare.child? .left = some l) (hq : Conjunct l q) : Conjunct c q
  | right {c r q : Node} (h : IsConjunction c.bare)
      (hr : c.bare.child? .right = some r) (hq : Conjunct r q) : Conjunct c q

/-- A test that is no conjunction is its own conjunct. -/
theorem conjunct_of_single {c q : Node} (h : ¬ IsConjunction c.bare) :
    Conjunct c q ↔ q = c.bare := by
  constructor
  · intro hq
    cases hq with
    | whole _ => rfl
    | left hc _ _ => exact absurd hc h
    | right hc _ _ => exact absurd hc h
  · rintro rfl
    exact .whole h

/-- The conjuncts of a conjunction are those of its two sides. -/
theorem conjunct_of_conjunction {c q : Node} (h : IsConjunction c.bare) :
    Conjunct c q ↔ (∃ l, c.bare.child? .left = some l ∧ Conjunct l q) ∨
      ∃ r, c.bare.child? .right = some r ∧ Conjunct r q := by
  constructor
  · intro hq
    cases hq with
    | whole hc => exact absurd h hc
    | left _ hl hq => exact .inl ⟨_, hl, hq⟩
    | right _ hr hq => exact .inr ⟨_, hr, hq⟩
  · intro hcases
    rcases hcases with ⟨l, hl, hq⟩ | ⟨r, hr, hq⟩
    · exact .left h hl hq
    · exact .right h hr hq

/-! ### The lists of shapes -/

/-- `!name` -/
def IsNegationOf (q : Node) (name : String) : Prop :=
  q.kind = .unary ∧ q.operator = "!" ∧ ∃ a, q.child? .argument = some a ∧
    a.isVariable name = true

/-- A comparison by `!==` or `!=`. -/
def IsInequality (q : Node) : Prop :=
  q.kind = .binary ∧ (q.operator = "!==" ∨ q.operator = "!=")

/-- One of the two operands is as described. -/
def HasOperand (q : Node) (p : Node → Bool) : Prop :=
  ∃ a, (q.child? .left = some a ∨ q.child? .right = some a) ∧ p a = true

/-- Both operands are identifiers or accesses to a part of a value. -/
def ComparesAccesses (q : Node) : Prop :=
  ∃ a b, q.bareChild? .left = some a ∧ q.bareChild? .right = some b ∧
    isSimple a.kind = true ∧ isSimple b.kind = true

/-- The conjuncts that keep an update in an effect from repeating. -/
inductive SafeInEffect (call : Node) (setter state : String) (q : Node) :
    Prop where
  /-- `!state`, and the new value is not the state. -/
  | negated {a : Node} (hq : IsNegationOf q state)
      (ha : call.firstArgument? = some a) (hother : a.isVariable state = false)
  /-- `!state`, and a call without a value that is not one of the setter. -/
  | negatedForHelper (hq : IsNegationOf q state)
      (ha : call.firstArgument? = none) (hcallee : call.calleeText ≠ setter)
  /-- The state, and the new value is falsy. -/
  | tested {a : Node} (hq : q.isVariable state = true)
      (ha : call.firstArgument? = some a) (hfalsy : a.isFalsy = true)
  /-- The state is compared. -/
  | compared (hq : IsInequality q) (hop : HasOperand q (·.isVariable state))
  /-- A part of the state is compared, and the new value is not made by copying
  the state. -/
  | partCompared (hq : IsInequality q) (hop : HasOperand q (·.isPartOf state))
      (hcopy : spreadsState call.firstArgument? state = false)

/-- A part of the state is compared, but the new value is made by copying the
state. -/
def Risky (call : Node) (state : String) (q : Node) : Prop :=
  IsInequality q ∧ HasOperand q (·.isPartOf state) ∧
    spreadsState call.firstArgument? state = true

/-- The conjuncts that keep an update while rendering from repeating. -/
inductive SafeInRender (call : Node) (state : String) (q : Node) : Prop where
  /-- The state is compared. -/
  | compared (hq : IsInequality q) (hop : HasOperand q (·.isVariable state))
  /-- Two values are compared, and the state is reset. -/
  | reset {a : Node} (hq : IsInequality q) (hops : ComparesAccesses q)
      (ha : call.firstArgument? = some a) (hreset : a.isReset = true)
  /-- A part of the state is compared, and the new value is not made by copying
  the state. -/
  | partCompared (hq : IsInequality q) (hop : HasOperand q (·.isPartOf state))
      (hcopy : spreadsState call.firstArgument? state = false)
  /-- `!state`, and the new value is not falsy. -/
  | negated {a : Node} (hq : IsNegationOf q state)
      (ha : call.firstArgument? = some a) (htruthy : a.isFalsy = false)
  /-- The state, and the new value is falsy. -/
  | tested {a : Node} (hq : q.isVariable state = true)
      (ha : call.firstArgument? = some a) (hfalsy : a.isFalsy = true)

/-! ### A single conjunct -/

/-- The kind of guard that a single conjunct is. -/
def shape? (q call : Node) (setter state : String) (rendering : Bool) :
    Option GuardKind :=
  let arg := call.firstArgument?
  if rendering && q.kind == .binary && isInequality q.operator &&
    derivesState q arg state then
    some .derivedState
  else if q.kind == .unary && q.operator == "!" then
    if (q.child? .argument).any (·.isVariable state) &&
      togglesOn call arg setter state rendering then
      some .toggle
    else none
  else if q.isVariable state && arg.any (·.isFalsy) then some .toggle
  else if q.kind == .binary && isInequality q.operator then
    comparison? q arg state
  else none

section

variable {c q call : Node} {setter state : String} {rendering : Bool}

/-- A test that is no conjunction is judged by its shape. -/
theorem matchCondition?_of_single (h : ¬ IsConjunction c.bare) :
    matchCondition? c call setter state rendering = shape? c.bare call setter
      state rendering := by
  rw [matchCondition?, shape?]
  split
  · rfl
  · split
    · rfl
    · split
      · rfl
      · by_cases hbinary : c.bare.kind = .binary
        · have hop : ¬ c.bare.operator = "&&" := fun hop => h ⟨hbinary, hop⟩
          simp [hbinary, hop]
        · simp [hbinary]

/-- The sides of a conjunction are judged by themselves. -/
theorem matchCondition?_of_conjunction (h : IsConjunction c.bare) :
    matchCondition? c call setter state rendering = preferSafe
      ((c.bare.child? .left).bind fun l =>
        matchCondition? l call setter state rendering)
      ((c.bare.child? .right).bind fun r =>
        matchCondition? r call setter state rendering) := by
  obtain ⟨hbinary, hop⟩ := h
  have hvariable : c.bare.isVariable state = false := by
    unfold Node.isVariable
    rw [Node.bare_bare, hbinary]
    rfl
  have hcompares : isInequality c.bare.operator = false := by
    rw [hop]
    rfl
  rw [matchCondition?, if_neg (by simp [hcompares]), if_neg (by simp [hbinary]),
    if_neg (by simp [hvariable]), if_pos (by simp [hbinary]),
      if_neg (by simp [hcompares]),
    if_pos (by simp [hop])]
  congr 1
  · split
    · next l hl =>
      rw [hl]
      rfl
    · next hl =>
      rw [hl]
      rfl
  · split
    · next r hr =>
      rw [hr]
      rfl
    · next hr =>
      rw [hr]
      rfl

/-! ### Conjunctions -/

/-- Of two judgements the safe one is preferred. -/
theorem isSafe_preferSafe (a b : Option GuardKind) :
    (preferSafe a b).any (·.isSafe) = true ↔ a.any (·.isSafe) = true ∨
      b.any (·.isSafe) = true := by
  unfold preferSafe
  split
  · next ha => exact iff_of_true ha (.inl ha)
  · next ha =>
    split
    · next hb => exact iff_of_true hb (.inr hb)
    · next hb =>
      refine iff_of_false (fun h => ?_) (not_or.2 ⟨ha, hb⟩)
      cases a with
      | none => exact hb h
      | some kind => exact ha h

/-- And a risk is preferred to nothing. -/
theorem preferSafe_eq_none (a b : Option GuardKind) :
    preferSafe a b = none ↔ a = none ∧ b = none := by
  unfold preferSafe
  cases a with
  | none =>
    cases b with
    | none => simp
    | some kind => simp
  | some kind =>
    cases b with
    | none => simp
    | some other =>
      by_cases h : kind.isSafe <;> by_cases h' : other.isSafe <;> simp [h, h']

/-- Whatever a conjunction has iff one of its sides has it, a test has iff one
of its conjuncts has it. -/
theorem matchCondition?_iff {P : Option GuardKind → Prop} (hnone : ¬ P none)
    (hboth : ∀ a b, P (preferSafe a b) ↔ P a ∨ P b) (c : Node) :
    P (matchCondition? c call setter state rendering) ↔
      ∃ q, Conjunct c q ∧ P (shape? q call setter state rendering) := by
  -- the induction is on the size of the test, whose sides are smaller
  induction hsize : c.size using Nat.strongRecOn generalizing c with
  | ind k ih =>
    by_cases h : IsConjunction c.bare
    · have hside : ∀ field, P ((c.bare.child? field).bind fun l =>
          matchCondition? l call setter state rendering) ↔
          ∃ l, c.bare.child? field = some l ∧ ∃ q, Conjunct l q ∧
            P (shape? q call setter state rendering) := by
        intro field
        cases hl : c.bare.child? field with
        | none => simpa using hnone
        | some l =>
          have hlt : l.size < k := hsize ▸ Node.size_lt_of_bare_child? hl
          simpa using ih l.size hlt l rfl
      rw [matchCondition?_of_conjunction h, hboth, hside, hside]
      simp only [conjunct_of_conjunction h]
      constructor
      · intro hcases
        rcases hcases with ⟨l, hl, q, hq, hP⟩ | ⟨r, hr, q, hq, hP⟩
        · exact ⟨q, .inl ⟨l, hl, hq⟩, hP⟩
        · exact ⟨q, .inr ⟨r, hr, hq⟩, hP⟩
      · intro hcases
        rcases hcases with ⟨q, ⟨l, hl, hq⟩ | ⟨r, hr, hq⟩, hP⟩
        · exact .inl ⟨l, hl, q, hq, hP⟩
        · exact .inr ⟨r, hr, q, hq, hP⟩
    · rw [matchCondition?_of_single h]
      simp only [conjunct_of_single h, exists_eq_left]

/-- A test is as safe as its safest conjunct. -/
theorem isSafe_matchCondition? (c : Node) :
    (matchCondition? c call setter state rendering).any (·.isSafe) = true ↔
      ∃ q, Conjunct c q ∧
        (shape? q call setter state rendering).any (·.isSafe) = true :=
  matchCondition?_iff (P := fun kind => kind.any (·.isSafe) = true) nofun
    isSafe_preferSafe c

/-- A test is recognised iff one of its conjuncts is. -/
theorem matchCondition?_ne_none (c : Node) :
    matchCondition? c call setter state rendering ≠ none ↔
      ∃ q, Conjunct c q ∧ shape? q call setter state rendering ≠ none := by
  refine matchCondition?_iff (P := (· ≠ none)) (fun h => h rfl)
    (fun a b => ?_) c
  rw [ne_eq, preferSafe_eq_none, not_and_or]

/-! ### The kind of a single conjunct -/

theorem isInequality_iff {operator : String} :
    isInequality operator = true ↔ operator = "!==" ∨ operator = "!=" := by
  unfold isInequality
  rw [Bool.or_eq_true, beq_iff_eq, beq_iff_eq]

theorem hasOperand_iff {p : Node → Bool} :
    ((q.child? .left).any p || (q.child? .right).any p) = true ↔
      HasOperand q p := by
  unfold HasOperand
  rw [Bool.or_eq_true, Option.any_eq_true, Option.any_eq_true]
  constructor
  · intro hcases
    rcases hcases with ⟨a, ha, hp⟩ | ⟨a, ha, hp⟩
    · exact ⟨a, .inl ha, hp⟩
    · exact ⟨a, .inr ha, hp⟩
  · intro hcases
    rcases hcases with ⟨a, ha | ha, hp⟩
    · exact .inl ⟨a, ha, hp⟩
    · exact .inr ⟨a, ha, hp⟩

theorem isVariable_of_kind (h : q.kind.isWrapper = false)
    (hkind : q.kind ≠ .identifier) :
    q.isVariable state = false := by
  unfold Node.isVariable
  rw [Node.bare_of_kind h]
  simp [hkind]

theorem not_isVariable_of_inequality (h : IsInequality q) :
    q.isVariable state = false := by
  apply isVariable_of_kind
  · rw [h.1]
    rfl
  · rw [h.1]
    decide

/-- How `!a` is judged. -/
theorem shape?_of_negation (hkind : q.kind = .unary) (hop : q.operator = "!") :
    shape? q call setter state rendering =
      if (q.child? .argument).any (·.isVariable state) &&
        togglesOn call call.firstArgument? setter state rendering then
          some .toggle else none := by
  unfold shape?
  rw [if_neg (by simp [hkind]), if_pos (by simp [hkind, hop])]

/-- How `a !== b` is judged. While rendering a derived state comes first. -/
theorem shape?_of_inequality (h : IsInequality q) :
    shape? q call setter state rendering =
      if rendering && derivesState q call.firstArgument? state then
        some .derivedState
      else comparison? q call.firstArgument? state := by
  unfold shape?
  simp only [h.1, isInequality_iff.2 h.2, not_isVariable_of_inequality h]
  simp

/-- How everything else is judged: only the state itself counts, and only if
it is set to something falsy. -/
theorem shape?_of_other (hneg : ¬ (q.kind = .unary ∧ q.operator = "!"))
    (hin : ¬ IsInequality q) :
    shape? q call setter state rendering =
      if q.isVariable state && call.firstArgument?.any (·.isFalsy) then
        some .toggle else none := by
  have hcompares : (q.kind == .binary && isInequality q.operator) = false := by
    rw [← Bool.not_eq_true, Bool.and_eq_true, beq_iff_eq, isInequality_iff]
    exact hin
  unfold shape?
  simp only [Bool.and_assoc]
  rw [if_neg, if_neg, hcompares]
  · rfl
  · simpa using hneg
  · rw [← Bool.and_assoc (q.kind == .binary), hcompares]
    simp

/-- A comparison of the state is safe, and so is one of a part of it unless
the new value is made by copying. -/
theorem isSafe_comparison? (q : Node) (arg : Option Node) (state : String) :
    (comparison? q arg state).any (·.isSafe) = true ↔
      HasOperand q (·.isVariable state) ∨
        HasOperand q (·.isPartOf state) ∧ spreadsState arg state = false := by
  rw [← hasOperand_iff, ← hasOperand_iff]
  unfold comparison?
  simp only
  split
  · next hop => simp [hop, GuardKind.isSafe]
  · next hop =>
    split
    · next hpart =>
      cases hcopy : spreadsState arg state with
      | true => simp [hop, GuardKind.isSafe]
      | false => simp [hpart, GuardKind.isSafe]
    · next hpart => simp [hop, hpart]

/-- Comparisons that involve the state at all are recognised. -/
theorem comparison?_ne_none (q : Node) (arg : Option Node) (state : String) :
    comparison? q arg state ≠ none ↔
      HasOperand q (·.isVariable state) ∨ HasOperand q (·.isPartOf state) := by
  rw [← hasOperand_iff, ← hasOperand_iff]
  unfold comparison?
  simp only
  split
  · next hop => simp [hop]
  · next hop =>
    split
    · next hpart => simp [hpart]
    · next hpart => simp [hop, hpart]

theorem isNegationOf_iff (hkind : q.kind = .unary) (hop : q.operator = "!") :
    (q.child? .argument).any (·.isVariable state) = true ↔
      IsNegationOf q state := by
  rw [Option.any_eq_true]
  exact ⟨fun h => ⟨hkind, hop, h⟩, fun h => h.2.2⟩

/-- A negation is none of the other shapes. -/
theorem not_isVariable_of_unary (hkind : q.kind = .unary) :
    q.isVariable state = false := by
  apply isVariable_of_kind
  · rw [hkind]
    rfl
  · rw [hkind]
    decide

theorem not_isInequality_of_unary (hkind : q.kind = .unary) :
    ¬ IsInequality q := by
  intro h
  rw [h.1] at hkind
  cases hkind

end

section

variable {q call : Node} {setter state : String}

theorem isSafe_toggleIf (b : Bool) :
    (if b then some GuardKind.toggle else none).any (·.isSafe) = true ↔
      b = true := by
  cases b <;> decide

theorem toggleIf_ne_none (b : Bool) :
    (if b then some GuardKind.toggle else none) ≠ none ↔ b = true := by
  cases b <;> decide

/-- On a negation the list of safe shapes agrees with the test for a
toggle. -/
theorem safeInEffect_of_negation (hkind : q.kind = .unary) :
    SafeInEffect call setter state q ↔
      IsNegationOf q state ∧
        togglesOn call call.firstArgument? setter state false = true := by
  constructor
  · intro h
    cases h with
    | negated hq ha hother => exact ⟨hq, by simp [togglesOn, ha, hother]⟩
    | negatedForHelper hq ha hcallee =>
      exact ⟨hq, by simpa [togglesOn, ha] using hcallee⟩
    | tested hq _ _ => simp [not_isVariable_of_unary hkind] at hq
    | compared hq _ => exact absurd hq (not_isInequality_of_unary hkind)
    | partCompared hq _ _ => exact absurd hq (not_isInequality_of_unary hkind)
  · intro hex
    obtain ⟨hq, htoggle⟩ := hex
    cases ha : call.firstArgument? with
    | none =>
      exact .negatedForHelper hq ha (by simpa [togglesOn, ha] using htoggle)
    | some a => exact .negated hq ha (by simpa [togglesOn, ha] using htoggle)

/-- On an inequality it agrees with the judgement of comparisons. -/
theorem safeInEffect_of_inequality (h : IsInequality q) :
    SafeInEffect call setter state q ↔
      HasOperand q (·.isVariable state) ∨
        HasOperand q (·.isPartOf state) ∧
          spreadsState call.firstArgument? state = false := by
  constructor
  · intro hsafe
    cases hsafe with
    | negated hq _ _ => exact absurd h (not_isInequality_of_unary hq.1)
    | negatedForHelper hq _ _ => exact absurd h (not_isInequality_of_unary hq.1)
    | tested hq _ _ => simp [not_isVariable_of_inequality h] at hq
    | compared _ hop => exact .inl hop
    | partCompared _ hop hcopy => exact .inr ⟨hop, hcopy⟩
  · intro hcases
    rcases hcases with hop | ⟨hop, hcopy⟩
    · exact .compared h hop
    · exact .partCompared h hop hcopy

/-- And on everything else only the toggle off is left. -/
theorem safeInEffect_of_other (hneg : ¬ (q.kind = .unary ∧ q.operator = "!"))
    (hin : ¬ IsInequality q) :
    SafeInEffect call setter state q ↔
      q.isVariable state = true ∧
        call.firstArgument?.any (·.isFalsy) = true := by
  rw [Option.any_eq_true]
  constructor
  · intro hsafe
    cases hsafe with
    | negated hq _ _ => exact absurd ⟨hq.1, hq.2.1⟩ hneg
    | negatedForHelper hq _ _ => exact absurd ⟨hq.1, hq.2.1⟩ hneg
    | tested hq ha hfalsy => exact ⟨hq, _, ha, hfalsy⟩
    | compared hq _ => exact absurd hq hin
    | partCompared hq _ _ => exact absurd hq hin
  · intro hex
    obtain ⟨hq, a, ha, hfalsy⟩ := hex
    exact .tested hq ha hfalsy

/-- In an effect a conjunct is safe iff it is on the list. -/
theorem isSafe_inEffect :
    (shape? q call setter state false).any (·.isSafe) = true ↔
      SafeInEffect call setter state q := by
  by_cases hneg : q.kind = .unary ∧ q.operator = "!"
  · rw [shape?_of_negation hneg.1 hneg.2, safeInEffect_of_negation hneg.1,
      ← isNegationOf_iff hneg.1 hneg.2, ← Bool.and_eq_true, isSafe_toggleIf]
  · by_cases hin : IsInequality q
    · rw [shape?_of_inequality hin,
        safeInEffect_of_inequality hin, ← isSafe_comparison?]
      simp
    · rw [shape?_of_other hneg hin,
        safeInEffect_of_other hneg hin, ← Bool.and_eq_true, isSafe_toggleIf]

/-- In an effect a conjunct is recognised iff it is on one of the two lists. -/
theorem recognised_inEffect :
    shape? q call setter state false ≠ none ↔
      SafeInEffect call setter state q ∨ Risky call state q := by
  by_cases hin : IsInequality q
  · rw [shape?_of_inequality hin, safeInEffect_of_inequality hin,
      Bool.false_and, if_neg nofun, comparison?_ne_none, or_assoc]
    unfold Risky
    -- whether the state is copied tells the two lists apart
    cases spreadsState call.firstArgument? state with
    | false => simp
    | true => simp [hin]
  · rw [or_iff_left fun h : Risky call state q => hin h.1]
    by_cases hneg : q.kind = .unary ∧ q.operator = "!"
    · rw [shape?_of_negation hneg.1 hneg.2, safeInEffect_of_negation hneg.1,
        ← isNegationOf_iff hneg.1 hneg.2, ← Bool.and_eq_true, toggleIf_ne_none]
    · rw [shape?_of_other hneg hin,
        safeInEffect_of_other hneg hin, ← Bool.and_eq_true, toggleIf_ne_none]

/-- While rendering, a negation is on the list iff the new value is not
falsy. -/
theorem safeInRender_of_negation (hkind : q.kind = .unary) :
    SafeInRender call state q ↔
      IsNegationOf q state ∧
        togglesOn call call.firstArgument? setter state true = true := by
  constructor
  · intro h
    cases h with
    | negated hq ha htruthy => exact ⟨hq, by simp [togglesOn, ha, htruthy]⟩
    | tested hq _ _ => simp [not_isVariable_of_unary hkind] at hq
    | compared hq _ => exact absurd hq (not_isInequality_of_unary hkind)
    | reset hq _ _ _ => exact absurd hq (not_isInequality_of_unary hkind)
    | partCompared hq _ _ => exact absurd hq (not_isInequality_of_unary hkind)
  · intro hex
    obtain ⟨hq, htoggle⟩ := hex
    cases ha : call.firstArgument? with
    | none => simp [togglesOn, ha] at htoggle
    | some a => exact .negated hq ha (by simpa [togglesOn, ha] using htoggle)

/-- What is neither a negation nor an inequality is judged as in an effect. -/
theorem safeInRender_of_other (hneg : ¬ (q.kind = .unary ∧ q.operator = "!"))
    (hin : ¬ IsInequality q) :
    SafeInRender call state q ↔
      q.isVariable state = true ∧
        call.firstArgument?.any (·.isFalsy) = true := by
  rw [Option.any_eq_true]
  constructor
  · intro hsafe
    cases hsafe with
    | negated hq _ _ => exact absurd ⟨hq.1, hq.2.1⟩ hneg
    | tested hq ha hfalsy => exact ⟨hq, _, ha, hfalsy⟩
    | compared hq _ => exact absurd hq hin
    | reset hq _ _ _ => exact absurd hq hin
    | partCompared hq _ _ => exact absurd hq hin
  · intro hex
    obtain ⟨hq, a, ha, hfalsy⟩ := hex
    exact .tested hq ha hfalsy

theorem comparesAccesses_iff :
    ((q.bareChild? .left).any (fun l => isSimple l.kind) &&
      (q.bareChild? .right).any fun r => isSimple r.kind) = true ↔
        ComparesAccesses q := by
  rw [Bool.and_eq_true, Option.any_eq_true, Option.any_eq_true]
  constructor
  · intro hex
    obtain ⟨⟨a, ha, hsimple⟩, b, hb, hsimple'⟩ := hex
    exact ⟨a, b, ha, hb, hsimple, hsimple'⟩
  · intro hex
    obtain ⟨a, b, ha, hb, hsimple, hsimple'⟩ := hex
    exact ⟨⟨a, ha, hsimple⟩, b, hb, hsimple'⟩

theorem any_bareChild? (field : Field) :
    (q.bareChild? field).any (·.isVariable state) =
      (q.child? field).any (·.isVariable state) := by
  unfold Node.bareChild?
  cases q.child? field with
  | none => rfl
  | some a => exact a.isVariable_bare state

/-- A state that follows a value is compared; otherwise two accesses are, and
the state is reset. -/
theorem safeInRender_of_derivesState (hin : IsInequality q)
    (h : derivesState q call.firstArgument? state = true) :
    SafeInRender call state q := by
  unfold derivesState at h
  simp only [Bool.or_eq_true] at h
  obtain (hfollows | hfollows) | hreset := h
  · rw [Bool.and_eq_true, any_bareChild?] at hfollows
    exact .compared hin
      (hasOperand_iff.1 (Bool.or_eq_true _ _ ▸ .inl hfollows.1))
  · rw [Bool.and_eq_true, any_bareChild?] at hfollows
    exact .compared hin
      (hasOperand_iff.1 (Bool.or_eq_true _ _ ▸ .inr hfollows.1))
  · rw [Bool.and_eq_true, comparesAccesses_iff, Option.any_eq_true] at hreset
    obtain ⟨hops, a, ha, hreset⟩ := hreset
    exact .reset hin hops ha hreset

/-- Comparing two values and then resetting the state derives it. -/
theorem derivesState_of_reset {a : Node} (hops : ComparesAccesses q)
    (ha : call.firstArgument? = some a) (hreset : a.isReset = true) :
    derivesState q call.firstArgument? state = true := by
  have hops := comparesAccesses_iff.2 hops
  unfold derivesState
  simp only [Bool.or_eq_true]
  right
  rw [hops, ha]
  exact hreset

/-- An inequality is on the list for rendering iff it derives the state or
compares it. -/
theorem safeInRender_of_inequality (h : IsInequality q) :
    SafeInRender call state q ↔
      derivesState q call.firstArgument? state = true ∨
        (comparison? q call.firstArgument? state).any (·.isSafe) = true := by
  rw [isSafe_comparison?]
  constructor
  · intro hsafe
    cases hsafe with
    | negated hq _ _ => exact absurd h (not_isInequality_of_unary hq.1)
    | tested hq _ _ => simp [not_isVariable_of_inequality h] at hq
    | compared _ hop => exact .inr (.inl hop)
    | reset _ hops ha hreset =>
      exact .inl (derivesState_of_reset hops ha hreset)
    | partCompared _ hop hcopy => exact .inr (.inr ⟨hop, hcopy⟩)
  · intro hcases
    rcases hcases with hderives | hop | ⟨hop, hcopy⟩
    · exact safeInRender_of_derivesState h hderives
    · exact .compared h hop
    · exact .partCompared h hop hcopy

/-- While rendering a conjunct is safe iff it is on the list. -/
theorem isSafe_inRender :
    (shape? q call setter state true).any (·.isSafe) = true ↔
      SafeInRender call state q := by
  by_cases hneg : q.kind = .unary ∧ q.operator = "!"
  · rw [shape?_of_negation hneg.1 hneg.2, safeInRender_of_negation hneg.1,
      ← isNegationOf_iff hneg.1 hneg.2, ← Bool.and_eq_true, isSafe_toggleIf]
  · by_cases hin : IsInequality q
    · rw [shape?_of_inequality hin, safeInRender_of_inequality hin,
        Bool.true_and]
      split
      · next h => exact iff_of_true rfl (.inl h)
      · next h => rw [or_iff_right h]
    · rw [shape?_of_other hneg hin,
        safeInRender_of_other hneg hin, ← Bool.and_eq_true, isSafe_toggleIf]

/-! ### A whole test -/

/-- In an effect a test is safe iff one of its conjuncts is on the list. -/
theorem isSafe_testInEffect (c : Node) :
    (matchCondition? c call setter state false).any (·.isSafe) = true ↔
      ∃ q, Conjunct c q ∧ SafeInEffect call setter state q := by
  rw [isSafe_matchCondition?]
  simp only [isSafe_inEffect]

/-- And so it is while rendering, with the list for rendering. -/
theorem isSafe_testInRender (setter : String) (c : Node) :
    (matchCondition? c call setter state true).any (·.isSafe) = true ↔
      ∃ q, Conjunct c q ∧ SafeInRender call state q := by
  rw [isSafe_matchCondition?]
  simp only [isSafe_inRender]

end

end Guard

end RenderLoop
