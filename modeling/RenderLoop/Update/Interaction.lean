import RenderLoop.Update.Helper
import RenderLoop.Update.Derivation
import RenderLoop.Guard.Enclosing
import RenderLoop.Stability.Facts

/-!
# What a hook body does with state

A hook's callback is scanned call by call, and each call gives rise to events:
an update that always happens, one under a guard, one that happens later or
only during clean-up, and the routes by which setters are reached. An
`Interaction` is the record of these events.
-/

namespace RenderLoop

/-- A function handed over by reference instead of being called. -/
structure FunctionReference where
  function : String
  /-- Handed to an event listener, as opposed to another deferred receiver. -/
  toListener : Bool
  receiver : String
  deriving DecidableEq, Repr, Inhabited

def FunctionReference.context (r : FunctionReference) : String :=
  if r.toListener then "event-listener" else "callback-arg"

/-- A setter handed to an imported function that is known to call it. -/
structure ImportedCall where
  setter : String
  function : String
  file : String
  /-- How many functions the setter passes through until it is called. -/
  depth : Nat
  line : Nat
  deriving DecidableEq, Repr, Inhabited

/-- A write to the current value of a ref. -/
structure RefMutation where
  ref : String
  value : String
  usesState : Bool
  line : Nat
  deriving DecidableEq, Repr, Inhabited

/-- An imported function that calls setters handed to it: at which positions,
and through how many functions. -/
structure SetterTaker where
  file : String
  name : String
  positions : List (Nat × Nat)
  deriving DecidableEq, Repr, Inhabited

def SetterTaker.depthAt? (t : SetterTaker) (position : Nat) : Option Nat :=
  (t.positions.find? (·.1 == position)).map (·.2)

/-- Everything a hook body does with state. -/
structure Interaction where
  reads : List String := []
  /-- Setters called on every run. -/
  modifications : List String := []
  /-- Setters called under a guard that is not safe. -/
  conditional : List String := []
  guarded : List Guard := []
  /-- Setters called with an updater function. -/
  functional : List String := []
  /-- Setters called after the body has run. -/
  deferred : List String := []
  /-- Setters called by the closure the body returns. -/
  cleanup : List String := []
  refMutations : List RefMutation := []
  references : List FunctionReference := []
  importedCalls : List ImportedCall := []
  /-- Helpers with the setters they were called for. -/
  indirect : List (String × String) := []
  deriving Inhabited

namespace Interaction

/-- The guard recorded first for a setter, one that is not safe before all
others. -/
def guardFor? (i : Interaction) (setter : String) : Option Guard :=
  let candidates := i.guarded.filter (·.setter == setter)
  (candidates.find? fun g => !g.isSafe).or candidates.head?

def importedCallFor? (i : Interaction) (setter : String) :
    Option ImportedCall :=
  i.importedCalls.find? (·.setter == setter)

/-- The helper through which a setter is reached. -/
def helperFor? (i : Interaction) (setter : String) : Option String :=
  (i.indirect.find? (·.2 == setter)).map (·.1)

end Interaction

namespace Update

/-- What a call in a hook body amounts to. -/
inductive Event where
  | modified (setter : String)
  | guarded (guard : Guard)
  | functional (setter : String)
  | deferred (setter : String)
  | cleanup (setter : String)
  | reference (r : FunctionReference)
  | imported (call : ImportedCall)
  | indirect (helper setter : String)
  deriving DecidableEq, Repr, Inhabited

/-- A hook body and what is known around it. -/
structure Body where
  ctx : Context
  callback : Node
  facts : Facts
  helpers : HelperMap
  /-- The imported function a call in this file names, if it takes setters. -/
  imported : String → Option SetterTaker := fun _ => none
  deriving Inhabited

namespace Body

/-- The value a return statement gives back. -/
def returned? (n : Node) : Option Node :=
  if n.kind == .returnStatement then n.parts.head?.map Node.bare else none

/-- The closures a callback returns: function literals, and helpers by name. -/
def cleanups (b : Body) : List Node :=
  match b.callback.functionBody? with
  | none => []
  | some body =>
    if body.kind != .block then []
    else
      (body.walkShallow.filterMap returned?).flatMap fun value =>
        if value.kind.isFunctionLiteral then [value]
        else if value.kind == .identifier then
          (b.helpers.definitions.get? value.text).getD []
        else []

/-- The update of a setter by a call that runs with the body. -/
def update (b : Body) (call : Node) (setter : String) (inCleanup : Bool) :
    Event :=
  if inCleanup then .cleanup setter
  else
    match Guard.inEffect? call setter (b.facts.stateOf? setter)
      (some b.callback.key) with
    | none => .modified setter
    | some g => .guarded g

/-- The name of what is called, the whole callee for a construction. -/
def receiverName (call : Node) : String :=
  if call.kind == .new then (call.callee?.map (·.text)).getD ""
  else call.calleeName?.getD ""

/-- The events of one argument handed to something that calls back later. -/
def referenceEvents (b : Body) (toListener : Bool) (receiver : String)
    (inCleanup : Bool) (arg : Node) : List Event :=
  let a := arg.bare
  if a.kind == .identifier || a.kind == .member then
    let name := a.text
    if b.facts.isSetter name || b.helpers.isHelper name then
      let reached :=
        if inCleanup then []
        else if b.facts.isSetter name then [name]
        else b.helpers.settersNow name ++ b.helpers.settersLater name
      .reference ⟨name, toListener, receiver⟩ :: reached.map .deferred
    else []
  else []

/-- The events of functions handed over by reference. -/
def references (b : Body) (call : Node) (inCleanup : Bool) :
    Except Fault (List Event) := do
  let receiver := receiverName call
  if eventListeners.contains receiver then
    return call.arguments.flatMap (b.referenceEvents true receiver inCleanup)
  else if ← callsBackLater b.ctx call then
    return call.arguments.flatMap (b.referenceEvents false receiver inCleanup)
  else return []

/-- The events of a call of a setter. -/
def setterCall (b : Body) (s : Site) (setter : String) (inCleanup : Bool) :
    List Event :=
  if s.deferred then [.deferred setter]
  else
    let functional := s.call.firstArgument?.any fun a =>
      a.kind.isFunctionLiteral
    (if functional then [.functional setter] else []) ++
      [b.update s.call setter inCleanup]

/-- The events of a call of a helper. -/
def helperCall (b : Body) (s : Site) (helper : String) (inCleanup : Bool) :
    List Event :=
  (sortedUnique (b.helpers.settersNow helper)).flatMap (fun setter =>
    if s.deferred then [.deferred setter]
    else [.indirect helper setter, b.update s.call setter inCleanup]) ++
  (b.helpers.settersLater helper).map .deferred

/-- The events of a setter handed to an imported function at a position. -/
def handedEvents (b : Body) (taker : SetterTaker) (call : Node)
    (inCleanup : Bool) (arg : Node) (position : Nat) : List Event :=
  let a := arg.bare
  if a.kind == .identifier && b.facts.isSetter a.text then
    match taker.depthAt? position with
    | some depth =>
      [.imported ⟨a.text, taker.name, taker.file, depth, call.line⟩,
        b.update call a.text inCleanup]
    | none => []
  else []

/-- The events of a call of an imported function. -/
def importedCall (b : Body) (call : Node) (name : String) (inCleanup : Bool) :
    List Event :=
  match b.imported name with
  | none => []
  | some taker =>
    call.arguments.zipIdx.flatMap fun (arg, i) =>
      b.handedEvents taker call inCleanup arg i

/-- The events of the called name. -/
def calleeEvents (b : Body) (s : Site) (inCleanup : Bool) : List Event :=
  match s.call.calleeKey? with
  | none => []
  | some name =>
    if b.facts.isSetter name then b.setterCall s name inCleanup
    else if b.helpers.isHelper name then b.helperCall s name inCleanup
    else if s.deferred then []
    else b.importedCall s.call name inCleanup

/-- The events of one call. -/
def siteEvents (b : Body) (cleanups : List Node) (s : Site) :
    Except Fault (List Event) := do
  let inCleanup := cleanups.any (·.encloses s.call)
  return (← b.references s.call inCleanup) ++ b.calleeEvents s inCleanup

/-- The definitions the scan of a body leaves to their own analysis. -/
def skipped (b : Body) : List Key :=
  (definitionKeys b.helpers.definitions).filter (· != b.callback.key)

/-- The calls of a body. -/
def sites (b : Body) : Except Fault (List Site) :=
  scanCalls b.ctx b.skipped b.callback

/-- The events of a body, in order. -/
def events (b : Body) : Except Fault (List Event) := do
  let parts ← (← b.sites).mapM (b.siteEvents b.cleanups)
  return parts.flatten

/-- A mention of a state that is not the target of an assignment. -/
def isRead (b : Body) (n : Node) : Bool :=
  n.kind == .identifier && b.facts.isState n.text &&
    match n.parent? with
    | some p =>
      !(p.kind == .assignment && (p.child? .left).any fun l => l.key == n.key)
    | none => true

end Body

/-- The ref whose current value an assignment sets, with the node assigned. -/
def refWrite? (facts : Facts) (n : Node) : Option (String × Node) :=
  match n.kind, n.bareChild? .left, n.child? .right with
  | .assignment, some left, some right =>
    if left.kind == .member && left.childText .property == "current" then
      match left.bareChild? .object with
      | some o =>
        if o.kind == .identifier && facts.refs.contains o.text then
          some (o.text, right) else none
      | none => none
    else none
  | _, _, _ => none

/-- The record of a write to a ref. -/
def refMutation? (facts : Facts) (origins : Table (List String)) (n : Node) :
    Option RefMutation :=
  (refWrite? facts n).map fun (ref, right) =>
    ⟨ref, right.text, right.dependsOn facts.isState origins, n.line⟩

namespace Event

def modified? : Event → Option String
  | modified setter => some setter
  | _ => none

def guarded? : Event → Option Guard
  | guarded g => some g
  | _ => none

def functional? : Event → Option String
  | functional setter => some setter
  | _ => none

def deferred? : Event → Option String
  | deferred setter => some setter
  | _ => none

def cleanup? : Event → Option String
  | cleanup setter => some setter
  | _ => none

def reference? : Event → Option FunctionReference
  | reference r => some r
  | _ => none

def imported? : Event → Option ImportedCall
  | imported c => some c
  | _ => none

def indirect? : Event → Option (String × String)
  | indirect helper setter => some (helper, setter)
  | _ => none

end Event

/-- The record of a list of events. Setters are listed in order of name,
everything else in the order of the source; nothing is listed twice. -/
def Body.record (b : Body) (origins : Table (List String)) (es : List Event) :
    Interaction :=
  let guards := (es.filterMap Event.guarded?).eraseDups
  let nodes := b.callback.walk
  { reads := sortedUnique ((nodes.filter b.isRead).map (·.text))
    modifications := sortedUnique (es.filterMap Event.modified?)
    conditional :=
      sortedUnique ((guards.filter fun g => !g.isSafe).map (·.setter))
    guarded := guards
    functional := sortedUnique (es.filterMap Event.functional?)
    deferred := sortedUnique (es.filterMap Event.deferred?)
    cleanup := sortedUnique (es.filterMap Event.cleanup?)
    refMutations := nodes.filterMap (refMutation? b.facts origins)
    references := (es.filterMap Event.reference?).eraseDups
    importedCalls := (es.filterMap Event.imported?).eraseDups
    indirect := (es.filterMap Event.indirect?).eraseDups }

/-- What a body does with state. -/
def Body.interaction (b : Body) (origins : Table (List String)) :
    Except Fault Interaction := do
  return b.record origins (← b.events)

end Update

open Update in
/-- What a hook's callback does with state; nothing if it is not a function
written in place. -/
def Hook.interaction (h : Hook) (ctx : Context) (facts : Facts)
    (helpers : HelperMap) (imported : String → Option SetterTaker)
    (origins : Table (List String)) :
    Except Fault Interaction :=
  match h.callback? with
  | some callback =>
    if callback.isFunction then Body.interaction ⟨ctx, callback, facts, helpers,
      imported⟩ origins
    else .ok {}
  | none => .ok {}

end RenderLoop
