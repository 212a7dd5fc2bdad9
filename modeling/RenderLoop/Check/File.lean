import RenderLoop.Check.Dependency
import RenderLoop.Check.Effect
import RenderLoop.Check.Render
import RenderLoop.Check.Props
import RenderLoop.Check.Keys
import RenderLoop.Finding.Suppression

/-!
# All checks on one file

The checks run in stages. A stage that fails ends the analysis of its file:
what the stages before it found is kept, and the file counts as failed.
Findings on silenced lines are dropped at the end.
-/

namespace RenderLoop

namespace Check

/-- The findings on one hook. What its dependency array lists is looked at
before what it does. -/
def hookFindings (ctx : Context) (file : String) (facts : Facts) (h : Hook)
    (i : Interaction) :
    List Finding :=
  match h.kind.isEffect, h.hasDependencies with
  | true, false => effectWithoutDeps ctx h file i
  | false, false => memoHook ctx h file facts i
  | isEffect, true =>
    match unstableReference? ctx h file facts i with
    | some finding => [finding]
    | none =>
      if isEffect then effectLoops ctx h file facts i
      else memoHook ctx h file facts i

/-- The stage of one hook: what its callback does with state, and the findings
on that. -/
def hookStage (ctx : Context) (file : String)
    (imported : String → Option SetterTaker) (facts : Facts)
    (helpers : HelperMap) (origins : Table (List String)) (h : Hook) :
    Except Fault (List Finding) := do
  return hookFindings ctx file facts h
    (← h.interaction ctx facts helpers imported origins)

/-- What the checks of one file have to say. -/
structure FileReport where
  findings : List Finding := []
  failed : Bool := false
  deriving Inhabited

/-- Puts stages together up to the first that fails. -/
def FileReport.ofStages : List (Except Fault (List Finding)) → FileReport
  | [] => {}
  | .error _ :: _ => ⟨[], true⟩
  | .ok fs :: rest =>
    let r := ofStages rest
    ⟨fs ++ r.findings, r.failed⟩

/-- The stages of a file whose facts and helpers are known. -/
def stages (ctx : Context) (f : SourceFile)
    (imported : String → Option SetterTaker) (facts : Facts)
    (helpers : HelperMap) : List (Except Fault (List Finding)) :=
  let origins := f.root.origins
  [.ok (renderPhase ⟨ctx, f.path, facts, helpers, origins⟩ f.root)] ++
    f.hooks.map (hookStage ctx f.path imported facts helpers origins) ++
    [.ok (unstableProps ctx f.path facts f.root),
      .ok (freshSnapshots ctx f.path f.root),
      .ok (unstableKeys ctx f.path f.root)]

/-- All that the checks find in a file, silenced or not. -/
def allFindings (ctx : Context) (f : SourceFile)
    (imported : String → Option SetterTaker) :
    FileReport :=
  let start : Except Fault (Facts × HelperMap) := do
    let facts ← Facts.extract ctx f.path f.root
    return (facts, ← HelperMap.build ctx facts.setters f.root)
  match start with
  | .error _ => ⟨[], true⟩
  | .ok (facts, helpers) =>
    FileReport.ofStages (stages ctx f imported facts helpers)

/-- The report on a file: its findings in stage order, without those on
silenced lines. -/
def file (ctx : Context) (f : SourceFile)
    (imported : String → Option SetterTaker) : FileReport :=
  let report := allFindings ctx f imported
  let lines := f.lines
  { report with findings := report.findings.filter fun x =>
    !isLineIgnored lines x.line }

end Check

end RenderLoop
