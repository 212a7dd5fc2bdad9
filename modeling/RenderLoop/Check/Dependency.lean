import RenderLoop.Check.Report
import RenderLoop.Update.Interaction

/-!
# Dependencies that are new on every render

A hook whose dependency array lists a value made anew by its component sees a
change on every render. If the hook is an effect that also updates state on
every run, the component never comes to rest.
-/

namespace RenderLoop

namespace Check

def UnstableKind.code : UnstableKind → Code
  | .object => .unstableObject
  | .array => .unstableArray
  | .function => .unstableFunction
  | .callResult => .unstableCall

def UnstableKind.text : UnstableKind → String
  | .object => "an object literal"
  | .array => "an array literal"
  | .function => "a function"
  | .callResult => "the result of a function call"

def UnstableKind.suggestion (name : String) : UnstableKind → String
  | .object | .array =>
    s!"Wrap '{name}' in useMemo, move it outside the component, or depend on its primitive fields."
  | .function =>
    s!"Wrap '{name}' in useCallback or move it inside the hook body."
  | .callResult =>
    s!"Wrap the call that creates '{name}' in useMemo or depend on a primitive derived from it."

/-- The first dependency that the component around the hook makes anew on
every render. -/
def unstableDependency? (h : Hook) (facts : Facts) : Option UnstableVariable :=
  match facts.componentAt? h.call with
  | none => none
  | some component =>
    h.dependencyNodes.findSome? fun d =>
      if d.kind == .identifier then facts.unstable? component.name d.text
      else none

/-- The code under which an unstable dependency is reported. -/
def unstableCode (h : Hook) (v : UnstableVariable) : Code :=
  if h.kind = .callback ∧ v.kind = .function then .unstableCallback
  else UnstableKind.code v.kind

/-- The finding on an unstable dependency. -/
def unstableFinding (ctx : Context) (h : Hook) (file : String) (facts : Facts)
    (i : Interaction) (v : UnstableVariable) : Finding :=
  let hook := h.kind.name
  let name := v.name
  let what := UnstableKind.text v.kind
  let owner := v.owner.name
  let base :=
    s!"'{name}' is {what} created on every render of {owner}, so {hook} sees a new dependency each time"
  let finding : Finding :=
    { kind := .potential
      code := unstableCode h v
      category := .performance
      severity := .low
      confidence := .medium
      file := file
      line := h.line
      column := some h.column
      hook := hook
      dependency := name
      explanation := base ++ " and runs after every render."
      suggestion := some (UnstableKind.suggestion name v.kind)
      modifications := i.modifications
      reads := i.reads
      debug := some
        { reason := "unstable " ++ v.kind.name ++ " dependency"
          dependencyAnalysis :=
            [("dependency", .text name), ("kind", .text v.kind.name),
              ("declaredAt", .ofNat v.line), ("component", .text owner),
              ("inferred", .bool v.inferred)]
          stateTracking := [("modifications", .ofTexts i.modifications)] } }
  let doubts := if v.inferred && !ctx.strict then [Doubt.inferredStability]
    else []
  match h.kind.isEffect, i.modifications with
  | true, setter :: _ =>
    ctx.report
      { finding with
        kind := .confirmed
        category := .critical
        severity := .high
        confidence := .high
        setter := some setter
        state := facts.stateOf? setter
        explanation := base ++
          s!", and it calls '{setter}' unconditionally, which renders again." }
      doubts
  | _, _ => ctx.report finding doubts

/-- The finding on the first unstable dependency, if there is one. -/
def unstableReference? (ctx : Context) (h : Hook) (file : String)
    (facts : Facts) (i : Interaction) : Option Finding :=
  (unstableDependency? h facts).map (unstableFinding ctx h file facts i)

/-! ### Memo hooks -/

/-- A memo hook without dependency array keeps nothing. -/
def missingMemoDeps (ctx : Context) (h : Hook) (file : String) : Finding :=
  let hook := h.kind.name
  ctx.report
    { kind := .potential
      code := .missingDeps
      category := .performance
      severity := .low
      confidence := .high
      file := file
      line := h.line
      column := some h.column
      hook := hook
      dependency := "(no dependency array)"
      explanation :=
        s!"{hook} without a dependency array recomputes on every render."
      suggestion :=
        some "Pass the values the callback reads as the second argument."
      debug := some { reason := "memo hook without dependency array" } }
    []

/-- The setters a memo hook's callback calls at once, guarded or not. -/
def memoUpdates (i : Interaction) : List String :=
  sortedUnique (i.modifications ++ i.conditional)

/-- A memo hook's callback updates one of its own dependencies. -/
def memoUpdateFinding (ctx : Context) (h : Hook) (file : String)
    (i : Interaction) (state setter : String) : Finding :=
  let hook := h.kind.name
  ctx.report
    { kind := .potential
      code := .memoSelfUpdate
      category := .warning
      severity := .medium
      confidence := .medium
      file := file
      line := h.line
      column := some h.column
      hook := hook
      dependency := state
      state := some state
      setter := some setter
      explanation :=
        s!"{hook} depends on '{state}' and calls '{setter}' with a new value. " ++
          s!"Each call recreates the memoized value, and anything depending on it may update '{state}' again."
      suggestion :=
        some
          s!"Use a functional update ({setter}(prev => ...)) and drop '{state}' from the dependencies."
      modifications := memoUpdates i
      reads := i.reads
      debug := some { reason := "memoized hook modifies its own dependency" } }
    []

/-- The findings on a memo hook. Setters that are also called with an updater
function are let pass. -/
def memoHook (ctx : Context) (h : Hook) (file : String) (facts : Facts)
    (i : Interaction) :
    List Finding :=
  if !h.hasDependencies then [missingMemoDeps ctx h file]
  else
    h.dependencies.eraseDups.filterMap fun state =>
      match facts.setterOf? state with
      | some setter =>
        if (memoUpdates i).contains setter && !i.functional.contains setter then
          some (memoUpdateFinding ctx h file i state setter)
        else none
      | none => none

end Check

end RenderLoop
