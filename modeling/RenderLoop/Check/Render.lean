import RenderLoop.Check.Effect

/-!
# Updates while rendering

State must not be updated while a component renders, except under a condition
that the update itself makes false. Refs must not be written then either, at
least not with values derived from state.
-/

namespace RenderLoop

namespace Check

/-- What a check of a file's components looks at. -/
structure RenderInput where
  ctx : Context
  file : String
  facts : Facts
  helpers : HelperMap
  origins : Table (List String)
  deriving Inhabited

/-- A setter reached while rendering: by which call, in which component and
through which helper. -/
structure RenderUpdate where
  call : Node
  component : Component
  setter : String
  helper : Option String
  deriving Inhabited

/-- The setters a call in a component reaches, each with the helper in
between. -/
def renderUpdates (facts : Facts) (helpers : HelperMap) (component : Component)
    (n : Node) :
    List RenderUpdate :=
  match n.kind, n.callee? with
  | .call, some target =>
    if target.kind != .identifier then []
    else if facts.isSetter target.text then [⟨n, component, target.text, none⟩]
    else
      (sortedUnique (helpers.settersNow target.text)).map fun setter =>
        ⟨n, component, setter, some target.text⟩
  | _, _ => []

/-- The finding on an update while rendering that is not protected. -/
def renderFinding (ctx : Context) (file : String) (facts : Facts)
    (u : RenderUpdate) (guard : Option Guard) : Finding :=
  let setter := u.setter
  let state := facts.stateOf? setter
  let name := u.component.name
  let action :=
    match u.helper with
    | some helper => s!"calls '{helper}()', which calls '{setter}',"
    | none => s!"calls '{setter}'"
  let finding : Finding :=
    { kind := .confirmed
      code := if u.helper.isSome then .renderUpdateVia else .renderUpdate
      category := .critical
      severity := .high
      confidence := if u.helper.isSome then .medium else .high
      file := file
      line := u.call.line
      column := some u.call.column
      hook := "render"
      dependency := state.getD setter
      state := state
      setter := some setter
      explanation :=
        s!"{name} {action} while rendering. Updating state during render " ++
          "schedules another render, which updates state again."
      suggestion :=
        some
          "Move the update into an event handler or a useEffect, or derive the value during render."
      modifications := [setter]
      debug := some
        { reason := "unconditional setter call in render body"
          stateTracking := [("via", .ofOption .text u.helper)] } }
  match guard with
  | none => ctx.report finding []
  | some g =>
    ctx.report
      { finding with
        kind := .potential
        category := .warning
        severity := .medium
        confidence := .high
        explanation :=
          s!"{name} {action} during render inside a condition that is not " ++
            "recognised as converging. If the condition stays true after the update, rendering never settles."
        suggestion :=
          some
            "Guard the update with a comparison against the value being set, or move it into a useEffect."
        debug := some
          { reason := "guarded setter call in render body"
            guardInfo := guardInfo (some g) } }
      [.conditional]

/-- The finding on an update while rendering, unless a safe guard protects
it. -/
def renderVerdict (ctx : Context) (file : String) (facts : Facts) (fn : Node)
    (u : RenderUpdate) :
    Option Finding :=
  let guard := Guard.inRender? u.call u.setter (facts.stateOf? u.setter)
    (some fn.key)
  if guard.any (·.isSafe) then none
  else some (renderFinding ctx file facts u guard)

/-- The finding on a write of a state-derived value to a ref while rendering. -/
def refWriteFinding? (input : RenderInput) (component : Component) (n : Node) :
    Option Finding :=
  match Update.refWrite? input.facts n with
  | none => none
  | some (ref, right) =>
    if right.dependsOn input.facts.isState input.origins then
      let name := component.name
      some <| input.ctx.report
        { kind := .potential
          code := .refWrite
          category := .warning
          severity := .medium
          confidence := .medium
          file := input.file
          line := n.line
          column := some n.column
          hook := "render"
          dependency := ref
          explanation :=
            s!"{name} writes a state-derived value to '{ref}.current' during render. " ++
              "Render may run more than once per commit, so the ref can hold a value that was never committed."
          suggestion :=
            some
            s!"Update '{ref}.current' inside a useEffect or an event handler."
          debug :=
            some { reason := "ref mutation with state value during render" } }
        []
    else none

/-- The findings on one node that runs when a component renders. -/
def renderNode (input : RenderInput) (fn : Node) (component : Component)
    (n : Node) : List Finding :=
  (renderUpdates input.facts input.helpers component n).filterMap
      (renderVerdict input.ctx input.file input.facts fn) ++
    (refWriteFinding? input component n).toList

/-- The functions that are components, in preorder. -/
def componentFunctions (root : Node) : List (Node × Component) :=
  (root.walk.filter (·.isFunction)).filterMap fun fn =>
    (Component.ofFunction? fn).map fun c => (fn, c)

/-- The findings on all components below a node. -/
def renderPhase (input : RenderInput) (root : Node) : List Finding :=
  (componentFunctions root).flatMap fun (fn, component) =>
    fn.walkShallow.flatMap (renderNode input fn component)

end Check

end RenderLoop
