import RenderLoop.Check.Report
import RenderLoop.Stability.Facts
import RenderLoop.Expr.Jsx
import RenderLoop.Source.File

/-!
# Props and snapshots

A context provider or a memoized component that is handed a new value on every
render makes its consumers render every time. A snapshot function that makes a
new value on every call never lets an external store come to rest.
-/

namespace RenderLoop

namespace Check

/-- Props that React takes for itself. -/
def reservedProps : List String := ["key", "ref", "children"]

/-- How to describe a prop's value that is new on every render. -/
def unstableProp? (facts : Facts) (element value : Node) : Option String :=
  match value.kind with
  | .object => some "an inline object"
  | .array => some "an inline array"
  | .identifier =>
    match facts.componentAt? element with
    | some c =>
      (facts.unstable? c.name value.text).map fun v =>
        "'" ++ v.name ++ "', which is recreated on every render"
    | none => none
  | kind => if kind.isFunctionLiteral then some "an inline function" else none

/-- The finding on one prop. -/
def propFinding (ctx : Context) (file element prop : String) (isProvider : Bool)
    (value : Node) (what : String) : Finding :=
  ctx.report
    { kind := .potential
      code := if isProvider then .providerValue else .memoProp
      category := .performance
      severity := .low
      confidence := .high
      file := file
      line := value.line
      column := some value.column
      hook := "jsx-prop"
      dependency := prop
      explanation :=
        if isProvider then
          s!"<{element}> receives {what} as value. Every render of the provider re-renders all consumers."
        else
          s!"<{element}> is memoized but prop '{prop}' is {what}, so memo never skips a render."
      suggestion := some
        (if isProvider then "Memoize the context value with useMemo."
          else
            s!"Memoize '{prop}' with useMemo or useCallback before passing it.")
      debug := some
        { reason := "unstable JSX prop", dependencyAnalysis :=
          [("element", .text element)] } }
    []

/-- The findings on the props of one element. -/
def elementProps (ctx : Context) (file : String) (facts : Facts)
    (memoized : List String) (element : Node) : List Finding :=
  let name := element.jsxName
  let isProvider := name.endsWith ".Provider"
  if !isProvider && !memoized.contains name then []
  else
    element.jsxAttributes.filterMap fun (prop, value) =>
      match value with
      | none => none
      | some v =>
        if reservedProps.contains prop ||
          (isProvider && prop != "value") then none
        else (unstableProp? facts element v).map
          (propFinding ctx file name prop isProvider v)

/-- The findings on the props of providers and of components memoized in this
file. -/
def unstableProps (ctx : Context) (file : String) (facts : Facts)
    (root : Node) : List Finding :=
  let memoized := root.memoizedComponents
  (root.walk.filter (·.kind.isJsxTag)).flatMap
    (elementProps ctx file facts memoized)

/-! ### Snapshots -/

/-- An object or array literal. -/
def isFreshLiteral (n : Node) : Bool := n.kind == .object || n.kind == .array

/-- A function whose result is a new object or array, on some way out of it. -/
def returnsFreshLiteral (fn : Node) : Bool :=
  match fn.functionBody? with
  | none => false
  | some body =>
    let body := body.bare
    if body.kind != .block then isFreshLiteral body
    else
      body.walkShallow.any fun n =>
        n.kind == .returnStatement && (n.parts.head?.map Node.bare).any
          isFreshLiteral

/-- The finding on a snapshot function written in place. -/
def snapshotFinding (ctx : Context) (file : String) (call snapshot : Node) :
    Finding :=
  ctx.report
    { kind := .confirmed
      code := .freshSnapshot
      category := .critical
      severity := .high
      confidence := .high
      file := file
      line := call.line
      column := some call.column
      hook := "useSyncExternalStore"
      dependency := "getSnapshot"
      explanation :=
        "getSnapshot returns a new object or array on every call. React compares " ++
          "snapshots by identity, sees a change every time and re-renders forever."
      suggestion :=
        some "Return a cached value from getSnapshot, or select a primitive."
      debug := some
        { reason := "getSnapshot returns a fresh literal"
          dependencyAnalysis :=
            [("getSnapshot", .text
              (String.ofList (snapshot.text.toList.take 80)))] } }
    []

/-- The findings on external stores. -/
def freshSnapshots (ctx : Context) (file : String) (root : Node) :
    List Finding :=
  (root.walk.filter (·.isCallOf ["useSyncExternalStore"])).filterMap fun call =>
    match call.arguments with
    | _ :: snapshot :: _ =>
      let fn := snapshot.bare
      if fn.kind.isFunctionLiteral && returnsFreshLiteral fn then
        some (snapshotFinding ctx file call fn)
      else none
    | _ => none

end Check

end RenderLoop
