import RenderLoop.Update.Scan
import RenderLoop.Data.Table

/-!
# Local functions and the setters they reach

A file's own functions call setters and one another. `HelperMap.build` records
the call graph, each edge marked as deferred or not, and the setters each
function calls itself, now or later. Propagation along the edges then gives
the setters that each function reaches: a setter stays immediate along edges
that are not deferred, and is deferred from the first deferred edge on.
-/

namespace RenderLoop

namespace Update

/-- What follows the last point of a name. -/
def lastSegment (name : String) : String :=
  String.ofList (name.toList.reverse.takeWhile (· != '.')).reverse

/-- Components and custom hooks are not helpers. -/
def isHelperName (ctx : Context) (name : String) : Bool :=
  name != "" && !isPascalCase (lastSegment name) && !ctx.isCustomHookName name

/-- The functions among the members of an object literal, under the name of
the object. -/
def memberFunctions (name : String) (object : Node) : List (String × Node) :=
  object.namedChildren.filterMap fun m =>
    match m.kind with
    | .methodDefinition => some (name ++ "." ++ m.childText .name, m)
    | .pair =>
      match m.bareChild? .value with
      | some fn =>
        if fn.kind.isFunctionLiteral then some (name ++ "." ++ m.childText .key,
          fn) else none
      | none => none
    | _ => none

/-- The functions a node defines, with their names. -/
def functionsDefinedBy (n : Node) : List (String × Node) :=
  if n.kind.isFunctionDeclaration then [(n.childText .name, n)]
  else if n.kind == .declarator then
    match n.declaredName?, n.bareChild? .value with
    | some name, some value =>
      if value.kind.isFunctionLiteral then [(name, value)]
      else if value.kind == .object then memberFunctions name value
      else []
    | _, _ => []
  else []

/-- The helpers below a node: every definition of each name, in order. -/
def definitions (ctx : Context) (root : Node) : Table (List Node) :=
  ((root.walk.flatMap functionsDefinedBy).filter fun (name, _) =>
    isHelperName ctx name).foldl (fun t (name, fn) =>
    t.modify name [] (· ++ [fn])) []

/-- The keys of all definitions. -/
def definitionKeys (defs : Table (List Node)) : List Key :=
  defs.flatMap fun (_, fns) => fns.map (·.key)

/-- What one call inside a helper contributes to the call graph. -/
inductive Contribution where
  /-- A setter is called or handed over. -/
  | update (setter : String) (deferred : Bool)
  /-- Another helper is called. -/
  | invoke (target : String) (deferred : Bool)
  /-- Another helper is handed to something that calls it later. -/
  | handOver (target : String)
  deriving DecidableEq, Repr, Inhabited

/-- The contribution of the called name. -/
def ofCallee (setters : List String) (defs : Table (List Node)) (name : String)
    (s : Site) :
    List Contribution :=
  match s.call.calleeKey? with
  | none => []
  | some key =>
    if setters.contains key then [.update key s.deferred]
    else if defs.contains key && key != name then [.invoke key s.deferred]
    else []

/-- The contribution of an argument of a call that calls back later. -/
def ofReference (setters : List String) (defs : Table (List Node))
    (name : String) (arg : Node) :
    List Contribution :=
  if arg.bare.kind == .identifier then
    let ref := arg.bare.text
    if setters.contains ref then [.update ref true]
    else if defs.contains ref && ref != name then [.handOver ref]
    else []
  else []

/-- The contributions of one call inside the helper `name`. -/
def ofSite (ctx : Context) (setters : List String) (defs : Table (List Node))
    (name : String) (s : Site) : Except Fault (List Contribution) := do
  let called := ofCallee setters defs name s
  if ← callsBackLater ctx s.call then
    return called ++ s.call.arguments.flatMap (ofReference setters defs name)
  else return called

/-- The contributions of all definitions of a helper, in order. -/
def contributions (ctx : Context) (setters : List String)
    (defs : Table (List Node)) (name : String) (fns : List Node) :
    Except Fault (List Contribution) := do
  let sites ← fns.mapM (scanCalls ctx (definitionKeys defs))
  let parts ← sites.flatten.mapM (ofSite ctx setters defs name)
  return parts.flatten

/-- An edge of the call graph. -/
structure CallEdge where
  source : String
  target : String
  /-- Every call of the target runs later. -/
  deferred : Bool
  deriving DecidableEq, Repr, Inhabited

def CallEdge.joins (e : CallEdge) (source target : String) : Bool :=
  e.source == source && e.target == target

/-- Sets the mark of an edge, which is added at the end if it is new. -/
def setEdge (edges : List CallEdge) (source target : String)
    (mark : Option Bool → Bool) :
    List CallEdge :=
  if edges.any (·.joins source target) then
    edges.map fun e =>
      if e.joins source target then
      { e with deferred := mark (some e.deferred) } else e
  else edges ++ [⟨source, target, mark none⟩]

/-- Adds a contribution to the edges: a call that does not run later makes its
edge immediate, and handing a helper over makes its edge deferred. -/
def addEdge (source : String) (edges : List CallEdge) :
    Contribution → List CallEdge
  | .update _ _ => edges
  | .invoke target deferred =>
    setEdge edges source target fun old => deferred && old.getD true
  | .handOver target => setEdge edges source target fun _ => true

/-- The setters a contribution reaches now, or later. -/
def updatesOf (deferred : Bool) : Contribution → Option String
  | .update setter d => if d == deferred then some setter else none
  | _ => none

/-- The edges in the order in which propagation visits them: by source, a
source coming where its name first comes up. -/
def inVisitingOrder (names : List String) (edges : List CallEdge) :
    List CallEdge :=
  let order := (names.flatMap fun name =>
    name :: ((edges.filter (·.source == name)).map (·.target))).eraseDups
  order.flatMap fun name => edges.filter (·.source == name)

/-- The setters reached by each helper, immediately and later. -/
structure Reach where
  now : Table (List String)
  later : Table (List String)
  deriving DecidableEq, Repr, Inhabited

/-- The setters under a name. -/
def settersIn (t : Table (List String)) (name : String) : List String :=
  (t.get? name).getD []

/-- Adds to a name the setters it does not have yet. -/
def gain (t : Table (List String)) (name : String) (setters : List String) :
    Table (List String) :=
  let new := setters.eraseDups.filter fun s => !(settersIn t name).contains s
  if new.isEmpty then t else t.modify name [] (· ++ new)

/-- Lets the source of an edge reach what the target reaches. -/
def Reach.relax (r : Reach) (e : CallEdge) : Reach :=
  let now := settersIn r.now e.target
  let later := settersIn r.later e.target
  if e.deferred then { r with later := gain r.later e.source (now ++ later) }
  else ⟨gain r.now e.source now, gain r.later e.source later⟩

/-- Visits the edges again and again until a round changes nothing, at most
`rounds` times. -/
def Reach.propagate (edges : List CallEdge) : Nat → Reach → Reach
  | 0, r => r
  | rounds + 1, r =>
    let r' := edges.foldl relax r
    if r' = r then r else propagate edges rounds r'

/-- The most rounds of propagation. -/
def maxRounds : Nat := 100

end Update

open Update

/-- The helpers of a file. -/
structure HelperMap where
  definitions : Table (List Node) := []
  edges : List CallEdge := []
  reaches : Table (List String) := []
  deferred : Table (List String) := []
  deriving Inhabited

namespace HelperMap

/-- The helpers below a node and the setters they reach. -/
def build (ctx : Context) (setters : List String) (root : Node) :
    Except Fault HelperMap := do
  let defs := Update.definitions ctx root
  let contributed ← defs.mapM fun (name, fns) => do
    return (name, ← contributions ctx setters defs name fns)
  let edges := contributed.foldl
    (fun es (name, cs) => cs.foldl (addEdge name) es) []
  let direct (deferred : Bool) : Table (List String) :=
    contributed.map fun (name, cs) =>
      (name, (cs.filterMap (updatesOf deferred)).eraseDups)
  let reach :=
    Reach.propagate (inVisitingOrder (defs.map (·.1)) edges) maxRounds
    ⟨direct false, direct true⟩
  return {
    definitions := defs
    edges
    reaches := reach.now.filter fun (_, found) => !found.isEmpty
    deferred := reach.later.filter fun (_, found) => !found.isEmpty }

def isHelper (m : HelperMap) (name : String) : Bool :=
  m.definitions.contains name

/-- The setters a helper reaches while it runs. -/
def settersNow (m : HelperMap) (name : String) : List String :=
  settersIn m.reaches name

/-- The setters a helper reaches later. -/
def settersLater (m : HelperMap) (name : String) : List String :=
  settersIn m.deferred name

end HelperMap

end RenderLoop
