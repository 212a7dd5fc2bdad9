import RenderLoop.Guard.Condition

/-!
# Guards around a call

Which conditionals enclose a call, and what they amount to. Inside an effect
the nearest recognised condition decides; while rendering any safe one does. A
call inside a conditional of unknown shape is never taken for safe, and a call
that no conditional encloses has no guard.
-/

namespace RenderLoop

namespace Guard

/-- The operators whose right side may be left out. -/
def isShortCircuit (operator : String) : Bool :=
  operator == "&&" || operator == "||" || operator == "??"

/-- What one step up from `child` to `parent` says about when the child runs:
nothing, that it runs under a recognisable test, or that it runs under some
other condition. -/
def conditionAt? (child parent : Node) : Option (Option Node) :=
  match parent.kind with
  | .ifStatement =>
    let condition := parent.child? .condition
    if (parent.child? .consequence).any (·.encloses child) then some condition
    else if condition.any (·.encloses child) then none
    else some none
  | .ternary =>
    if (parent.child? .condition).any (·.encloses child) then none
    else some none
  | .binary =>
    if isShortCircuit parent.operator && (parent.child? .right).any
      (·.encloses child) then some none
    else none
  | .switchCase | .catchClause => some none
  | _ => none

/-- The conditionals around a node below a boundary, nearest first: the test
of an `if` whose consequence holds the node, nothing for any other
conditional. -/
def enclosingConditions (n : Node) (stop : Option Key) : List (Option Node) :=
  (n.stepsBelow stop).filterMap fun (child, parent) => conditionAt? child parent

/-- A return statement, alone or as the only statement of a block. -/
def isBareReturn (n : Node) : Bool :=
  match n.kind with
  | .returnStatement => true
  | .block =>
    match n.parts with
    | [s] => s.kind == .returnStatement
    | _ => false
  | _ => false

/-- An `if` without `else` that only returns, under a test that mentions the
state. -/
def isEarlyReturn (state : String) (s : Node) : Bool :=
  s.kind == .ifStatement && (s.child? .alternative).isNone &&
    (s.child? .consequence).any isBareReturn &&
    (s.child? .condition).any fun c => c.identifiers.contains state

/-- The statements of a block that come before a node. -/
def statementsBefore (block n : Node) : List Node :=
  block.namedChildren.takeWhile fun s => s.start < n.start

/-- Some block around the node, below the boundary, returns early on a test of
the state before it. -/
def returnsEarly (n : Node) (stop : Option Key) (state : String) : Bool :=
  (n.stepsBelow stop).any fun (child, parent) =>
    parent.kind == .block && (statementsBefore parent child).any
      (isEarlyReturn state)

/-- The first recognised condition, nearest first. -/
def firstMatch? (conditions : List (Option Node)) (call : Node)
    (setter state : String) :
    Option GuardKind :=
  conditions.findSome? fun c =>
    c.bind fun c => matchCondition? c call setter state false

/-- The guard around an update inside an effect. Without a state to compare
with there is none. -/
def inEffect? (call : Node) (setter : String) (state : Option String)
    (stop : Option Key) :
    Option Guard :=
  match state with
  | none => none
  | some state =>
    if state == "" then none
    else
      let conditions := enclosingConditions call stop
      match firstMatch? conditions call setter state with
      | some kind => some ⟨setter, state, kind⟩
      | none =>
        if returnsEarly call stop state then some ⟨setter, state, .earlyReturn⟩
        else if conditions.isEmpty then none
        else some ⟨setter, state, .unknown⟩

/-- The kinds of the recognised conditions around an update while rendering,
nearest first. -/
def renderKinds (conditions : List (Option Node)) (call : Node)
    (setter state : String) :
    List GuardKind :=
  conditions.filterMap fun c =>
    c.bind fun c => matchCondition? c call setter state true

/-- The guard around an update while rendering: the nearest safe one, or else
the nearest recognised, or else an unknown one. -/
def inRender? (call : Node) (setter : String) (state : Option String)
    (stop : Option Key) :
    Option Guard :=
  let conditions := enclosingConditions call stop
  let name := state.getD ""
  if conditions.isEmpty then none
  else
    let kinds := if name == "" then []
      else renderKinds conditions call setter name
    some ⟨setter, name, ((kinds.find? (·.isSafe)).or kinds.head?).getD .unknown⟩

end Guard

end RenderLoop
