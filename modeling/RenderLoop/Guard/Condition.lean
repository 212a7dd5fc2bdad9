import RenderLoop.Guard.Basic
import RenderLoop.Expr.Literal
import RenderLoop.Expr.Call
import RenderLoop.Expr.Function

/-!
# Conditions that protect an update

Which shapes of an `if` test keep an update of a state from repeating. A test
that is none of the recognised shapes is never taken for one:
`matchCondition?` then has no answer.

A test met while rendering is checked again at once, so there the rules are
stricter for toggles and admit state that is derived from another value.
-/

namespace RenderLoop

namespace Node

/-- The text of the operator, empty without one. -/
def operator (n : Node) : String := n.childText .operator

/-- The identifier of that name, wrapped or not. -/
def isVariable (n : Node) (name : String) : Bool :=
  n.bare.kind == .identifier && n.bare.text == name

/-- An access to a part of a state. -/
def isPartOf (n : Node) (state : String) : Bool :=
  n.bare.kind.isAccess && n.bare.rootName? == some state

end Node

namespace Guard

/-- The comparisons that hold as long as two values differ. -/
def isInequality (operator : String) : Bool :=
  operator == "!==" || operator == "!="

/-- The first part of a spread element. -/
def spreadRoot? (n : Node) : Option String := n.parts.head?.bind Node.rootName?

/-- A node that copies one of the named values into a new one. -/
def copies (names : List String) (n : Node) : Bool :=
  match n.kind with
  | .spread => (spreadRoot? n).any names.contains
  | .call =>
    n.calleeText == "Object.assign" && n.arguments.any fun a =>
      a.rootName?.any names.contains
  | _ => false

/-- A new object or array is made outside nested functions by copying one of
the named values. -/
def spreads (n : Node) (names : List String) : Bool :=
  n.walkShallow.any (copies names)

/-- The new value of an update copies the state, directly or as the previous
value handed to an updater function. -/
def spreadsState (arg : Option Node) (state : String) : Bool :=
  match arg with
  | none => false
  | some a =>
    if a.kind.isFunctionLiteral then
      let params := a.functionParams.flatMap (·.boundNames)
      !params.isEmpty && a.functionBody?.any fun body =>
        spreads body (params ++ [state])
    else spreads a [state]

/-- Two accesses that may be compared to notice a change. -/
def isSimple : Kind → Bool
  | .identifier | .member | .subscript => true
  | _ => false

/-- While rendering: the state differs from the very value it is set to, or
two values differ and the state is reset. -/
def derivesState (cond : Node) (arg : Option Node) (state : String) : Bool :=
  let left := cond.bareChild? .left
  let right := cond.bareChild? .right
  let follows (mine other : Option Node) : Bool :=
    mine.any (·.isVariable state) &&
      match arg, other with
      | some a, some o => a.equivalent o
      | _, _ => false
  follows left right || follows right left ||
    (left.any (fun l => isSimple l.kind) &&
      right.any (fun r => isSimple r.kind) && arg.any (·.isReset))

/-- The negated state guards an update to something else. While rendering the
new value must not be falsy; otherwise it must not be the state itself, and a
call without a value must be that of a helper, since the setter alone would
write nothing. -/
def togglesOn (call : Node) (arg : Option Node) (setter state : String)
    (rendering : Bool) : Bool :=
  match arg with
  | some a => if rendering then !a.isFalsy else !a.isVariable state
  | none => !rendering && call.calleeText != setter

/-- The kind of guard a comparison for inequality is. -/
def comparison? (cond : Node) (arg : Option Node) (state : String) :
    Option GuardKind :=
  let left := cond.child? .left
  let right := cond.child? .right
  if left.any (·.isVariable state) || right.any (·.isVariable state) then
    some .equality
  else if left.any (·.isPartOf state) || right.any (·.isPartOf state) then
    some (if spreadsState arg state then .spreadRisk else .equality)
  else none

/-- Of two answers the first that is safe, or else the first there is. -/
def preferSafe (a b : Option GuardKind) : Option GuardKind :=
  if a.any (·.isSafe) then a
  else if b.any (·.isSafe) then b
  else a.or b

/-- The kind of guard a test is for an update by `call`, if its shape is
recognised. A conjunction is as good as its best half. -/
def matchCondition? (condition call : Node) (setter state : String)
    (rendering : Bool) :
    Option GuardKind :=
  let cond := condition.bare
  let arg := call.firstArgument?
  if rendering && cond.kind == .binary && isInequality cond.operator &&
    derivesState cond arg state then
    some .derivedState
  else if cond.kind == .unary && cond.operator == "!" then
    if (cond.child? .argument).any (·.isVariable state) &&
      togglesOn call arg setter state rendering then
      some .toggle
    else none
  else if cond.isVariable state && arg.any (·.isFalsy) then some .toggle
  else if cond.kind == .binary then
    if isInequality cond.operator then comparison? cond arg state
    else if cond.operator == "&&" then
      preferSafe
        (match _h : condition.bare.child? .left with
          | some l => matchCondition? l call setter state rendering
          | none => none)
        (match _h : condition.bare.child? .right with
          | some r => matchCondition? r call setter state rendering
          | none => none)
    else none
  else none
termination_by condition.size
decreasing_by
  all_goals exact Node.size_lt_of_bare_child? _h

end Guard

end RenderLoop
