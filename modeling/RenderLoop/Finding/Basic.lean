import RenderLoop.Finding.Level
import RenderLoop.Finding.Code
import RenderLoop.Data.Value

/-!
# Findings

A finding is one verdict at one place of a source: what was found, how bad and
how certain it is, and what to do about it. Findings are ordered by file,
line, column, code, dependency and setter.

`Finding.capConfidence` is the one way a finding loses confidence: a high one
becomes medium, and the explanation says why.
-/

namespace RenderLoop

/-- The decisions behind a finding, for those who want to see them. -/
structure DebugInfo where
  reason : String
  stateTracking : Table Value := []
  dependencyAnalysis : Table Value := []
  guardInfo : Table Value := []
  deferredInfo : Table Value := []
  crossFileInfo : Table Value := []
  deriving Inhabited

def DebugInfo.toValue (d : DebugInfo) : Value :=
  .table
    [("reason", .text d.reason), ("stateTracking", .table d.stateTracking),
      ("dependencyAnalysis", .table d.dependencyAnalysis),
        ("guardInfo", .table d.guardInfo),
      ("deferredInfo", .table d.deferredInfo),
        ("crossFileInfo", .table d.crossFileInfo)]

/-- A verdict at a place of a source. -/
structure Finding where
  kind : FindingKind
  code : Code
  category : Category
  severity : Level
  confidence : Level
  file : String
  line : Int
  column : Option Int := none
  /-- The hook, or the kind of place, the finding is about. -/
  hook : String
  dependency : String
  state : Option String := none
  setter : Option String := none
  explanation : String
  suggestion : Option String := none
  modifications : List String := []
  reads : List String := []
  debug : Option DebugInfo := none
  deriving Inhabited

namespace Finding

/-- The column as people count it, from one. -/
def humanColumn (f : Finding) : Int := f.column.getD 0 + 1

/-- What findings are ordered by. -/
structure SortKey where
  file : String
  line : Int
  column : Int
  code : String
  dependency : String
  setter : String
  deriving DecidableEq, Repr

def sortKey (f : Finding) : SortKey :=
  ⟨f.file, f.line, f.column.getD 0, f.code.text, f.dependency, f.setter.getD ""⟩

/-- Lexicographic order of keys; texts compare by code point. -/
def SortKey.le (a b : SortKey) : Bool :=
  if a.file ≠ b.file then decide (a.file < b.file)
  else if a.line ≠ b.line then decide (a.line < b.line)
  else if a.column ≠ b.column then decide (a.column < b.column)
  else if a.code ≠ b.code then decide (a.code < b.code)
  else if a.dependency ≠ b.dependency then decide (a.dependency < b.dependency)
  else decide (a.setter ≤ b.setter)

/-- Findings in order; those with equal keys keep theirs. -/
def sort (fs : List Finding) : List Finding :=
  fs.mergeSort fun f g => f.sortKey.le g.sortKey

def toValue (f : Finding) : Value :=
  .table <|
    [("type", .text f.kind.name), ("errorCode", .text f.code.text),
      ("category", .text f.category.name), ("severity", .text f.severity.name),
      ("confidence", .text f.confidence.name), ("file", .text f.file),
        ("line", .int f.line),
      ("column", .ofOption .int f.column), ("hookType", .text f.hook),
      ("problematicDependency", .text f.dependency),
        ("stateVariable", .ofOption .text f.state),
      ("setterFunction", .ofOption .text f.setter),
        ("explanation", .text f.explanation),
      ("suggestion", .ofOption .text f.suggestion),
      ("actualStateModifications", .ofTexts f.modifications),
        ("stateReads", .ofTexts f.reads)] ++
    (f.debug.map fun d => ("debugInfo", d.toValue)).toList

/-- Lowers a high confidence to medium and appends the reasons, each once.
Without a reason, and at medium or low confidence, a finding stays as it
is. -/
def capConfidence (f : Finding) (reasons : List String) : Finding :=
  if reasons.isEmpty || f.confidence != .high then f
  else
    { f with
      confidence := .medium
      explanation :=
        f.explanation ++ " Confidence is medium because " ++
          " and ".intercalate reasons.eraseDups ++ "." }

/-- With a reason the confidence is medium at most. -/
theorem confidence_capConfidence (f : Finding) {reasons : List String}
    (h : reasons ≠ []) :
    (f.capConfidence reasons).confidence ≤ .medium := by
  have hr : reasons.isEmpty = false := by simpa using h
  unfold capConfidence
  rw [hr, Bool.false_or]
  split
  · next hc =>
    have : f.confidence ≠ .high := by simpa using hc
    show f.confidence.rank ≤ 1
    cases hf : f.confidence <;> simp_all [Level.rank]
  · exact Nat.le_refl _

end Finding

/-- Why a finding is less than certain. -/
inductive Doubt where
  | inferredStability
  | deepChain
  | conditional
  deriving DecidableEq, Repr, Inhabited

def Doubt.text : Doubt → String
  | inferredStability =>
    "the stability of a call result was inferred without type information"
  | deepChain => "the cross-file call chain is more than two functions deep"
  | conditional => "the state update is conditional"

/-- How many findings there are of each kind. -/
def countByKind (fs : List Finding) : Table Value :=
  FindingKind.all.map fun k => (k.name, Value.ofNat (fs.countP (·.kind == k)))

end RenderLoop
