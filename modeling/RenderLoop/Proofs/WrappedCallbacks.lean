import RenderLoop.Update.Scan
import RenderLoop.Proofs.Outcome
import RenderLoop.Proofs.Sketch
import Mathlib.Data.List.TakeWhile

/-!
# Callbacks in wrappers

A callback can be handed over in parentheses or with a type annotation.
Stripping the wrappers of an argument leads down to the callback
(`Node.bare`), and the climb from a callback leads up to the call it is handed
to (`Update.receivingCall?`). The climb passes fewer kinds of wrappers than
the descent.

> `Update.receivingCall?_argument`: the climb from what an argument holds
> arrives at the call iff all wrappers on the way are parentheses or `as`;
> otherwise it arrives nowhere, and a scan takes the callback for a function
> that is handed to nothing.

`Node.ancestors_bare` is the descent seen from below: the wrappers, and above
them what was above the argument.

Between an argument and what it holds there are only wrappers
(`Node.ancestors_bare`), so the ancestors of a callback are its wrappers, the
list of arguments and the call, in this order. The climb takes them one by
one: it goes on at parentheses and at an annotation, and gives up at the first
wrapper of another kind.
-/

namespace RenderLoop

namespace Tree

mutual

/-- Between an expression and what it holds there are only wrappers. -/
theorem ancestors_bare (above : List Tree) : ∀ t : Tree, ∃ ws : List Node,
    (t.bare above).ancestors = ws ++ Node.chain above ∧
      ∀ w ∈ ws, w.kind.isWrapper = true
  | node l cs => by
    -- the wrapper itself is the last one that a climb from inside meets
    have hinside : l.kind.isWrapper = true → ∀ {n : Node} {ws : List Node},
        n.ancestors = ws ++ Node.chain (node l cs :: above) →
          (∀ w ∈ ws, w.kind.isWrapper = true) →
        ∃ ws : List Node, n.ancestors = ws ++ Node.chain above ∧
          ∀ w ∈ ws, w.kind.isWrapper = true := by
      intro hwrapper n ws hn hws
      refine ⟨ws ++ [⟨node l cs, above⟩], by simpa [Node.chain] using hn,
        fun w hw => ?_⟩
      rcases List.mem_append.1 hw with hw | hw
      · exact hws w hw
      · obtain rfl := List.mem_singleton.1 hw
        exact hwrapper
    rw [bare]
    split
    · next hwrapper =>
      split
      · cases h : lastBare? (node l cs :: above) cs with
        | none => exact ⟨[], rfl, by simp⟩
        | some n =>
          obtain ⟨ws, hn, hws⟩ := ancestors_lastBare? _ cs n h
          exact hinside hwrapper hn hws
      · cases h : firstBare? (node l cs :: above) cs with
        | none => exact ⟨[], rfl, by simp⟩
        | some n =>
          obtain ⟨ws, hn, hws⟩ := ancestors_firstBare? _ cs n h
          exact hinside hwrapper hn hws
    · exact ⟨[], rfl, by simp⟩

theorem ancestors_firstBare? (above : List Tree) :
    ∀ (ts : List Tree) (n : Node), firstBare? above ts = some n →
      ∃ ws : List Node, n.ancestors = ws ++ Node.chain above ∧
      ∀ w ∈ ws, w.kind.isWrapper = true
  | [], n, h => by simp [firstBare?] at h
  | t :: ts, n, h => by
    rw [firstBare?] at h
    split at h
    · cases h
      exact ancestors_bare above t
    · exact ancestors_firstBare? above ts n h

theorem ancestors_lastBare? (above : List Tree) : ∀ (ts : List Tree) (n : Node),
    lastBare? above ts = some n → ∃ ws : List Node,
      n.ancestors = ws ++ Node.chain above ∧ ∀ w ∈ ws, w.kind.isWrapper = true
  | [], n, h => by simp [lastBare?] at h
  | t :: ts, n, h => by
    rw [lastBare?] at h
    split at h
    · next hm =>
      cases h
      exact ancestors_lastBare? above ts n hm
    · split at h
      · cases h
        exact ancestors_bare above t
      · cases h

end

end Tree

namespace Node

/-- Above an expression without its wrappers stand the wrappers, then what
stands above the whole. -/
theorem ancestors_bare (n : Node) : ∃ ws : List Node,
    n.bare.ancestors = ws ++ n.ancestors ∧ ∀ w ∈ ws, w.kind.isWrapper = true :=
  n.tree.ancestors_bare n.above

/-- The wrappers directly around a node, nearest first. -/
def wrappers (n : Node) : List Node := n.ancestors.takeWhile (·.kind.isWrapper)

/-- The nodes that are climbed first are wrappers. -/
theorem isWrapper_of_mem_wrappers {n w : Node} (h : w ∈ n.wrappers) :
    w.kind.isWrapper = true :=
  List.mem_takeWhile_imp (p := fun w : Node => w.kind.isWrapper) h

theorem parent?_of_mem_children {n c : Node} (h : c ∈ n.children) :
    c.parent? = some n := by
  obtain ⟨t, -, rfl⟩ := List.mem_map.1 h
  rfl

/-- An argument stands in the argument list of its call. -/
theorem exists_list_of_mem_arguments {call a : Node} (h : a ∈ call.arguments) :
    ∃ list ∈ call.children, list.kind = .arguments ∧ a ∈ list.children := by
  unfold arguments at h
  split at h
  · next list hlist =>
    split at h
    · next hkind =>
      exact ⟨list, mem_children_of_child? hlist, beq_iff_eq.1 hkind,
        mem_children_of_mem_parts h⟩
    · cases h
  · cases h

/-- Above what an argument holds stand its wrappers, the argument list and the
call. -/
theorem ancestors_bare_argument {call a : Node} (h : a ∈ call.arguments) :
    ∃ list : Node, list.kind = .arguments ∧ list.parent? = some call ∧
      a.bare.ancestors = a.bare.wrappers ++ list :: call :: call.ancestors := by
  obtain ⟨list, hlist, hkind, ha⟩ := exists_list_of_mem_arguments h
  obtain ⟨ws, hbare, hws⟩ := a.ancestors_bare
  rw [ancestors_of_mem_children ha, ancestors_of_mem_children hlist] at hbare
  have hwrappers : a.bare.wrappers = ws := by
    unfold wrappers
    rw [hbare, List.takeWhile_append_of_pos hws,
      List.takeWhile_cons_of_neg (by simp [hkind, Kind.isWrapper]),
      List.append_nil]
  exact ⟨list, hkind, parent?_of_mem_children hlist, by rw [hwrappers, hbare]⟩

end Node

namespace Update

/-- The wrappers that a climb passes. -/
theorem isArgumentWrapper_iff {k : Kind} :
    isArgumentWrapper k = true ↔ k = .parenthesized ∨ k = .asExpression := by
  unfold isArgumentWrapper
  split <;> simp_all

/-- The wrappers that stop it. -/
theorem isArgumentWrapper_eq_false_iff {k : Kind} (h : k.isWrapper = true) :
    isArgumentWrapper k = false ↔ k = .satisfiesExpression ∨ k = .nonNull ∨
      k = .typeAssertion := by
  unfold Kind.isWrapper at h
  split at h <;> simp_all [isArgumentWrapper]

section

variable {call a : Node}

/-- If the climb passes all wrappers, it arrives at the call. -/
theorem receivingCall?_of_passed (hcall : call.kind.isCall = true)
    (ha : a ∈ call.arguments)
    (hpassed : ∀ w ∈ a.bare.wrappers, isArgumentWrapper w.kind = true) :
    receivingCall? a.bare = some call := by
  obtain ⟨list, hkind, hparent, hup⟩ := Node.ancestors_bare_argument ha
  have hnone : a.bare.wrappers.find? (fun w => !isArgumentWrapper w.kind) =
      none :=
    List.find?_eq_none.2 fun w hw => by simp [hpassed w hw]
  have hbeyond : a.bare.parentBeyond? isArgumentWrapper = some list := by
    unfold Node.parentBeyond?
    rw [hup, List.find?_append, hnone, Option.none_or,
      List.find?_cons_of_pos (by simp [hkind, isArgumentWrapper])]
  unfold receivingCall?
  simp [hbeyond, hkind, hparent, hcall]

/-- If one of them stops it, it arrives nowhere. -/
theorem receivingCall?_of_stopped (ha : a ∈ call.arguments)
    (hstopped : ∃ w ∈ a.bare.wrappers, isArgumentWrapper w.kind = false) :
    receivingCall? a.bare = none := by
  obtain ⟨list, -, -, hup⟩ := Node.ancestors_bare_argument ha
  obtain ⟨w, hw⟩ : ∃ w,
      a.bare.wrappers.find? (fun w => !isArgumentWrapper w.kind) = some w := by
    refine Option.isSome_iff_exists.1 (List.find?_isSome.2 ?_)
    simpa using hstopped
  have hbeyond : a.bare.parentBeyond? isArgumentWrapper = some w := by
    unfold Node.parentBeyond?
    rw [hup, List.find?_append, hw, Option.some_or]
  -- the climb stops at a wrapper, which is no list of arguments
  have hkind : w.kind ≠ .arguments := by
    intro hkind
    have := Node.isWrapper_of_mem_wrappers (List.mem_of_find?_eq_some hw)
    rw [hkind] at this
    cases this
  unfold receivingCall?
  simp [hbeyond, hkind]

/-- So it arrives iff all of them are parentheses or type annotations. -/
theorem receivingCall?_bare (hcall : call.kind.isCall = true)
    (ha : a ∈ call.arguments) :
    receivingCall? a.bare = some call ↔
      ∀ w ∈ a.bare.wrappers, w.kind = .parenthesized ∨
        w.kind = .asExpression := by
  constructor
  · intro h w hw
    refine isArgumentWrapper_iff.1 (eq_true_of_ne_false fun hstops => ?_)
    rw [receivingCall?_of_stopped ha ⟨w, hw, hstops⟩] at h
    cases h
  · intro h
    exact receivingCall?_of_passed hcall ha fun w hw =>
      isArgumentWrapper_iff.2 (h w hw)

/-! ### What a scan makes of it -/

/-- A scan heeds that a function is handed to a call: it does not enter the
callback of a hook, and it defers what a function does that is called back
later. -/
structure Heeded (ctx : Context) (call fn : Node) : Prop where
  hook : call.kind = .call → isHookCall ctx call = true →
    ∀ (skip : List Key) (scope : Scope), scope.enter? ctx skip fn = .ok none
  later : (call.kind = .call → isHookCall ctx call = false) →
    callsBackLater ctx call = .ok true → ∀ (skip : List Key) (scope : Scope),
      skip.contains fn.key = false →
      ∃ inner, scope.enter? ctx skip fn = .ok (some inner) ∧
      inner.deferred = true

/-- A scan enters a function as one that is handed to nothing. -/
def Unheeded (ctx : Context) (fn : Node) : Prop :=
  ∀ (skip : List Key) (scope : Scope), skip.contains fn.key = false →
    ∃ inner, scope.enter? ctx skip fn = .ok (some inner) ∧
      inner.deferred = scope.deferred

/-- A function from which the climb arrives is heeded. -/
theorem heeded_of_receivingCall? {fn : Node} (ctx : Context)
    (h : receivingCall? fn = some call) :
    Heeded ctx call fn where
  hook := by
    intro hkind hhook skip scope
    unfold Scope.enter?
    simp only [h, hkind, hhook]
    split <;> rfl
  later := by
    intro hhook hlater skip scope hskip
    have hno : (call.kind == .call && isHookCall ctx call) = false := by
      by_cases hkind : call.kind = .call
      · simp [hhook hkind]
      · simp [hkind]
    unfold Scope.enter?
    simp only [h, hskip, hno, hlater]
    exact ⟨_, rfl, Bool.or_true _⟩

/-- One from which it does not is entered like any other. -/
theorem unheeded_of_receivingCall? {fn : Node} (ctx : Context)
    (h : receivingCall? fn = none) :
    Unheeded ctx fn := by
  intro skip scope hskip
  unfold Scope.enter?
  simp only [h, hskip]
  exact ⟨_, rfl, rfl⟩

/-- From what an argument holds one arrives at the call iff all wrappers on
the way are parentheses or `as`, and then a scan heeds the call. Any other
wrapper hides it. -/
theorem receivingCall?_argument (hcall : call.kind.isCall = true)
    (ha : a ∈ call.arguments) :
    (receivingCall? a.bare = some call ↔
      ∀ w ∈ a.bare.wrappers, w.kind = .parenthesized ∨ w.kind = .asExpression) ∧
    (receivingCall? a.bare = none ↔
      ∃ w ∈ a.bare.wrappers, w.kind = .satisfiesExpression ∨ w.kind = .nonNull ∨
        w.kind = .typeAssertion) ∧
    ∀ ctx, (receivingCall? a.bare = some call → Heeded ctx call a.bare) ∧
      (receivingCall? a.bare = none → Unheeded ctx a.bare) := by
  have hstopped : (∃ w ∈ a.bare.wrappers,
        w.kind = .satisfiesExpression ∨ w.kind = .nonNull ∨
          w.kind = .typeAssertion) ↔
      ∃ w ∈ a.bare.wrappers, isArgumentWrapper w.kind = false :=
    exists_congr fun w => and_congr_right fun hw =>
      (isArgumentWrapper_eq_false_iff (Node.isWrapper_of_mem_wrappers hw)).symm
  rw [hstopped]
  refine ⟨receivingCall?_bare hcall ha,
    ⟨fun h => ?_, receivingCall?_of_stopped ha⟩, fun ctx =>
    ⟨heeded_of_receivingCall? ctx, unheeded_of_receivingCall? ctx⟩⟩
  by_contra hno
  have hall : ∀ w ∈ a.bare.wrappers, isArgumentWrapper w.kind = true :=
    fun w hw =>
    eq_true_of_ne_false fun hfalse => hno ⟨w, hw, hfalse⟩
  rw [receivingCall?_of_passed hcall ha hall] at h
  cases h

end

/-- An effect that sets one state by a callback with a type and another one by
a callback that is said to be there. -/
def postponing : Node := Sketch.program
  [.function "Panel" [] [.useState "v" "setV", .useState "w" "setW",
    .run (.call "useEffect" [.arrow
      [.run (.call "setTimeout"
        [.typed (.parenthesized (.arrow [.run (.call "setV" [.number "1"])]))
          "Run", .number "9"]),
      .run (.call "setTimeout"
        [.nonNull (.parenthesized (.arrow [.run (.call "setW" [.number "1"])])),
          .number "9"])],
      .array ["v"]])]]

namespace postponing

def callback : Node := postponing.at [0, 2, 2, 0, 1, 0]

/-- The call that is given the callback with a type. -/
def first : Node := callback.at [1, 0, 0]

/-- The call that is given the other callback. -/
def second : Node := callback.at [1, 1, 0]

end postponing

open postponing in
/-- Parentheses and a type do not hide the callback. -/
theorem receivingCall?_postponing :
    first.kind.isCall = true ∧ first.at [1, 0] ∈ first.arguments ∧
      receivingCall? (first.at [1, 0]).bare = some first ∧
        Heeded .usual first (first.at [1, 0]).bare := by
  have hargument : first.at [1, 0] ∈ first.arguments :=
    List.mem_of_getElem? (i := 0) rfl
  obtain ⟨hcall, -, hscan⟩ := receivingCall?_argument rfl hargument
  have hreceived := hcall.2 (by decide +kernel)
  exact ⟨rfl, hargument, hreceived, (hscan .usual).1 hreceived⟩

open postponing in
/-- The other callback is not seen to be handed over, and what it does is not
found to be done later. -/
theorem receivingCall?_overlooks_wrapper :
    second.kind.isCall = true ∧ callsBackLater .usual second = .ok true ∧
      second.at [1, 0] ∈ second.arguments ∧
        (second.at [1, 0]).bare.isFunction = true ∧
      receivingCall? (second.at [1, 0]).bare ≠ some second ∧
      ∃ sites s, scanCalls .usual [] callback = .ok sites ∧ s ∈ sites ∧
        s.call.calleeKey? = some "setW" ∧ s.deferred = false := by
  have hargument : second.at [1, 0] ∈ second.arguments :=
    List.mem_of_getElem? (i := 0) rfl
  have hwrapper : ((second.at [1, 0]).bare.wrappers.any fun w =>
      isArgumentWrapper w.kind == false) = true := by
    decide +kernel
  obtain ⟨w, hw, hstops⟩ := List.any_eq_true.1 hwrapper
  have hstopped := receivingCall?_of_stopped hargument
    ⟨w, hw, beq_iff_eq.1 hstops⟩
  refine ⟨rfl, rfl, hargument, rfl, by simp [hstopped], ?_⟩
  obtain ⟨sites, hsites, hfound⟩ :=
    exists_of_any_toOption (x := scanCalls .usual [] callback)
      (p := fun sites => sites.any fun s => s.call.calleeKey? == some "setW" &&
        !s.deferred) (by decide +kernel)
  obtain ⟨s, hs, hfound⟩ := List.any_eq_true.1 hfound
  simp only [Bool.and_eq_true, beq_iff_eq, Bool.not_eq_true'] at hfound
  exact ⟨sites, s, hsites, hs, hfound.1, hfound.2⟩

end Update

end RenderLoop
