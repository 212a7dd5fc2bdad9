import RenderLoop.Options.Context
import RenderLoop.Source.Hook

/-!
# The calls a function makes

`scanCalls` lists the calls evaluated as part of a function, in preorder, each
with the question of whether it runs later: inside a callback handed to
something that calls back later, or behind an `await`. Functions that are
analysed on their own and callbacks handed to hooks are not entered.
-/

namespace RenderLoop

namespace Update

/-- Methods that register a callback for events. -/
def eventListeners : List String :=
  ["addEventListener", "addListener", "on", "once", "subscribe", "listen",
    "onSnapshot", "onAuthStateChanged", "onIdTokenChanged", "onValue",
    "onChildAdded", "onMessage", "watch",
    "observe"]

/-- Functions and methods that call back later. -/
def laterCallers : List String :=
  eventListeners ++
    ["setTimeout", "setInterval", "setImmediate", "requestAnimationFrame",
      "requestIdleCallback", "queueMicrotask", "nextTick", "then",
      "catch", "finally"]

/-- Constructors of observers, which call back later. -/
def observers : List String :=
  ["MutationObserver", "ResizeObserver", "IntersectionObserver",
    "PerformanceObserver"]

/-- Whether a call or construction runs the callbacks it is given later. The
configured functions are only consulted for calls that the fixed lists
leave open. -/
def callsBackLater (ctx : Context) (call : Node) : Except Fault Bool :=
  if call.kind == .new then
    .ok (call.callee?.any fun f => observers.contains f.text)
  else if call.calleeName?.any laterCallers.contains then .ok true
  else do
    let configured ← ctx.options.deferredFunctions
    return call.calleeName?.any configured.contains ||
      call.calleeKey?.any configured.contains

/-- A call of a tracked hook or of a custom one. -/
def isHookCall (ctx : Context) (call : Node) : Bool :=
  call.isCallOf hookNames || call.calleeName?.any ctx.isCustomHookName

/-- The wrappers between an argument and the list of arguments it stands in. -/
def isArgumentWrapper : Kind → Bool
  | .parenthesized | .asExpression => true
  | _ => false

/-- The call or construction a function literal is an argument of. -/
def receivingCall? (fn : Node) : Option Node :=
  match fn.parentBeyond? isArgumentWrapper with
  | some p =>
    if p.kind == .arguments then
      match p.parent? with
      | some call => if call.kind.isCall then some call else none
      | none => none
    else none
  | none => none

/-- Some `await` of a function's own body is over before the call is. -/
def isAfterAwait (call fn : Node) : Bool :=
  fn.functionBody?.any fun body => body.walkShallow.any fun n =>
    n.kind == .await && n.stop ≤ call.stop && !n.encloses call

/-- A call, and whether it runs later. -/
structure Site where
  call : Node
  deferred : Bool
  deriving Inhabited

/-- What a scan carries down the tree. -/
structure Scope where
  /-- Inside a callback that runs later. -/
  deferred : Bool
  /-- The innermost function, if it is asynchronous. -/
  asyncFn : Option Node
  deriving Inhabited

/-- Whether a call met in a scope runs later. -/
def Scope.defers (s : Scope) (call : Node) : Bool :=
  s.deferred || s.asyncFn.any (isAfterAwait call)

/-- The scope inside a nested function, or nothing if the scan does not enter
it. -/
def Scope.enter? (ctx : Context) (skip : List Key) (s : Scope) (fn : Node) :
    Except Fault (Option Scope) := do
  let asyncFn := if fn.isAsync then some fn else none
  if skip.contains fn.key then return none
  else
    match receivingCall? fn with
    | none => return some ⟨s.deferred, asyncFn⟩
    | some receiver =>
      if receiver.kind == .call && isHookCall ctx receiver then return none
      else return some ⟨s.deferred || (← callsBackLater ctx receiver), asyncFn⟩

mutual

/-- The sites of a tree met in a scope. The function with key `own` is the one
being scanned. -/
def scanTree (ctx : Context) (skip : List Key) (own : Key) (above : List Tree)
    (s : Scope) :
    Tree → Except Fault (List Site)
  | .node l cs => do
    let n : Node := ⟨.node l cs, above⟩
    if l.kind.isFunction && n.key != own then
      match ← s.enter? ctx skip n with
      | none => return []
      | some inner => scanTrees ctx skip own (.node l cs :: above) inner cs
    else
      let below ← scanTrees ctx skip own (.node l cs :: above) s cs
      return if l.kind.isCall then ⟨n, s.defers n⟩ :: below else below

/-- The sites of sibling trees met in a scope. -/
def scanTrees (ctx : Context) (skip : List Key) (own : Key) (above : List Tree)
    (s : Scope) :
    List Tree → Except Fault (List Site)
  | [] => .ok []
  | t :: ts => do
    let first ← scanTree ctx skip own above s t
    let rest ← scanTrees ctx skip own above s ts
    return first ++ rest

end

/-- The calls evaluated as part of a function, in preorder. -/
def scanCalls (ctx : Context) (skip : List Key) (fn : Node) :
    Except Fault (List Site) :=
  scanTree ctx skip fn.key fn.above ⟨false, if fn.isAsync then some fn
    else none⟩ fn.tree

end Update

end RenderLoop
