import RenderLoop.Check.Report
import RenderLoop.Update.Interaction

/-!
# Effects that run themselves again

An effect with a dependency array loops when it updates one of its
dependencies on every run; an effect without one loops when it reaches any
setter at all.
-/

namespace RenderLoop

namespace Check

/-- How an effect gets to a setter. -/
inductive Route where
  | direct
  | helper (name : String)
  | imported (call : ImportedCall)
  deriving DecidableEq, Repr, Inhabited

/-- The recorded route to a setter: an imported function first, then a
helper. -/
def routeTo (i : Interaction) (setter : String) : Route :=
  match i.importedCallFor? setter, i.helperFor? setter with
  | some call, _ => .imported call
  | none, some name => .helper name
  | none, none => .direct

def Route.text (setter : String) : Route → String
  | direct => s!"calls '{setter}'"
  | helper name => s!"calls '{name}()', which calls '{setter}'"
  | imported call =>
    s!"passes '{setter}' to '{call.function}' in {call.file}, which calls it"

def Route.isImported : Route → Bool
  | imported _ => true
  | _ => false

/-- The longest chain of functions that leaves no doubt. -/
def maxCertainDepth : Nat := 2

def Route.doubts : Route → List Doubt
  | imported call => if maxCertainDepth < call.depth then [.deepChain] else []
  | _ => []

/-- The code of a loop in an effect that nothing leads out of. -/
def loopCode (h : Hook) : Code :=
  if h.kind = .layoutEffect then .layoutEffectLoop else .effectLoop

def guardInfo (guard : Option Guard) : Table Value :=
  match guard with
  | some g => [("type", .text g.kind.name), ("safe", .bool g.isSafe)]
  | none => []

/-- The decisions behind the verdict on a dependency. -/
def effectDebug (i : Interaction) (state setter reason : String) :
    DebugInfo where
  reason := reason
  stateTracking :=
    [("reads", .ofTexts i.reads), ("modifications", .ofTexts i.modifications),
      ("conditional", .ofTexts i.conditional)]
  dependencyAnalysis :=
    [("dependency", .text state), ("setter", .text setter),
      ("via", .ofOption .text (i.helperFor? setter))]
  guardInfo := guardInfo (i.guardFor? setter)
  deferredInfo := [("deferred", .ofTexts i.deferred),
    ("cleanup", .ofTexts i.cleanup)]
  crossFileInfo :=
    match i.importedCallFor? setter with
    | some c =>
      [("function", .text c.function), ("file", .text c.file),
        ("depth", .ofNat c.depth)]
    | none => []

/-- What all verdicts on a dependency share: the place, the names and the
record. -/
def effectFinding (h : Hook) (file state setter : String) (i : Interaction)
    (kind : FindingKind) (code : Code) (category : Category) (severity : Level)
    (explanation reason : String)
    (suggestion : Option String) : Finding where
  kind := kind
  code := code
  category := category
  severity := severity
  confidence := .high
  file := file
  line := h.line
  column := some h.column
  hook := h.kind.name
  dependency := state
  state := some state
  setter := some setter
  explanation := explanation
  suggestion := suggestion
  modifications := i.modifications ++ i.conditional
  reads := i.reads
  debug := some (effectDebug i state setter reason)

/-- The effect updates the dependency on every run. -/
def loopFinding (ctx : Context) (h : Hook) (file state setter : String)
    (i : Interaction) : Finding :=
  let hook := h.kind.name
  let route := routeTo i setter
  let how := route.text setter
  ctx.report
    (effectFinding h file state setter i .confirmed
      (if route.isImported then .crossFileLoop else loopCode h) .critical .high
      (s!"{hook} depends on '{state}' and unconditionally {how}. " ++
        s!"Every update changes '{state}', which runs the effect again.")
      "unconditional modification of a dependency"
      (some
        (s!"Guard the update (for example compare against the current '{state}'), " ++
        s!"use a functional update without listing '{state}', or remove '{state}' from the dependencies.")))
    route.doubts

/-- The effect updates the dependency under a condition that need not become
false. -/
def unsafeFinding (ctx : Context) (h : Hook) (file state setter : String)
    (i : Interaction) (guard : Guard) : Finding :=
  let hook := h.kind.name
  let route := routeTo i setter
  let how := route.text setter
  let reason := "unsafe guard (" ++ guard.kind.name ++ ")"
  let finding :=
    if guard.kind = .spreadRisk then
      effectFinding h file state setter i .potential .spreadGuard
        .performance .medium (guard.warning?.getD "") reason
        (some
          s!"Compare and set the primitive field, or return the previous '{state}' when nothing changed.")
    else
      effectFinding h file state setter i .potential
        (if route.isImported then .crossFileConditional else .conditionalUpdate)
          .warning .medium
        (s!"{hook} depends on '{state}' and {how} inside a condition that is not " ++
          s!"recognised as converging. Check that the condition becomes false once '{state}' is updated.")
        reason
        (some s!"Compare the new value with '{state}' before updating it.")
  ctx.report finding [.conditional]

/-- The effect updates the dependency, but in a way that ends. -/
def safeFinding (ctx : Context) (h : Hook) (file state setter : String)
    (i : Interaction) (why : String) : Finding :=
  let hook := h.kind.name
  ctx.report
    (effectFinding h file state setter i .safe (loopCode h) .safe .low
      s!"{hook} depends on '{state}' and updates it, but {why}." why none)
    []

/-- The verdict on one dependency that is a state. -/
def dependencyVerdict (ctx : Context) (h : Hook) (file : String)
    (i : Interaction) (state setter : String) : Option Finding :=
  if i.modifications.contains setter then
    some (loopFinding ctx h file state setter i)
  else
    match i.guardFor? setter with
    | some guard =>
      if guard.isSafe then
        some (safeFinding ctx h file state setter i
          ("the update is protected by a " ++ guard.kind.name))
      else some (unsafeFinding ctx h file state setter i guard)
    | none =>
      if i.deferred.contains setter then
        some (safeFinding ctx h file state setter i
          "the update runs asynchronously")
      else if i.cleanup.contains setter then
        some (safeFinding ctx h file state setter i
          "the update only runs during cleanup")
      else none

/-- The verdicts on all dependencies of an effect that are states, each once. -/
def effectLoops (ctx : Context) (h : Hook) (file : String) (facts : Facts)
    (i : Interaction) :
    List Finding :=
  h.dependencies.eraseDups.filterMap fun state =>
    (facts.setterOf? state).bind (dependencyVerdict ctx h file i state)

/-- The setters that an effect without dependency array must not reach. -/
def reachedSetters (i : Interaction) : List String :=
  sortedUnique (i.modifications ++ i.deferred ++
    (i.guarded.filter fun g => !g.isSafe).map (·.setter))

/-- The state recorded last with the guards of a setter. -/
def guardedState? (i : Interaction) (setter : String) : Option String :=
  (i.guarded.reverse.find? (·.setter == setter)).map (·.state)

/-- An effect without dependency array that reaches a setter. A setter that is
not reached through a helper is reported before all others. -/
def effectWithoutDeps (ctx : Context) (h : Hook) (file : String)
    (i : Interaction) : List Finding :=
  let hook := h.kind.name
  let reached := reachedSetters i
  let build (setter : String) (confidence : Level) (explanation : String) :
      Finding :=
    ctx.report
      { kind := .confirmed
        code := .effectWithoutDeps
        category := .critical
        severity := .high
        confidence := confidence
        file := file
        line := h.line
        column := some h.column
        hook := hook
        dependency := "(no dependency array)"
        setter := some setter
        state := guardedState? i setter
        explanation := explanation
        suggestion :=
          some
            "Add a dependency array listing the values the effect reads, or [] to run it once."
        modifications := reached
        reads := i.reads
        debug := some
          { reason := "effect without dependency array reaches a setter"
            stateTracking := [("modifications", .ofTexts i.modifications)]
            deferredInfo := [("deferred", .ofTexts i.deferred)]
            guardInfo :=
              Table.ofEntries (i.guarded.map fun g =>
              (g.setter, .text g.kind.name)) } }
      []
  match reached.find? fun s => (i.helperFor? s).isNone with
  | some setter =>
    [build setter .high
      (s!"{hook} has no dependency array and calls '{setter}', so it runs after " ++
        "every render and each run schedules another render.")]
  | none =>
    match reached with
    | [] => []
    | setter :: _ =>
      let helper := (i.helperFor? setter).getD ""
      [build setter .medium
        (s!"{hook} has no dependency array and calls '{helper}()', which calls " ++
          s!"'{setter}'. The effect runs after every render and each run schedules another render.")]

end Check

end RenderLoop
