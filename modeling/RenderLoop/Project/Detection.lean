import RenderLoop.Project.Analysis
import RenderLoop.Project.Discovery
import RenderLoop.Settings.Load
import RenderLoop.Settings.Options
import RenderLoop.Finding.Rules

/-!
# Detection in a project

From a path to the findings that are reported for it: the settings that hold
there are loaded, the options built, the sources discovered and analysed, and
the rules applied to what was found.
-/

namespace RenderLoop

/-- What can end a detection. -/
inductive DetectionError where
  | settings (error : SettingsError)
  | project (error : ProjectError)
  | discovery (error : DiscoveryError)
  /-- Sources were to be taken in side by side by fewer than one worker. -/
  | noWorkers
  /-- A spelling that marks names does not compile. -/
  | names (error : PatternError)
  | rules (error : RuleError)
  deriving Inhabited

namespace DetectionError

def message : DetectionError → String
  | settings e => e.message
  | project e => e.message
  | discovery e => e.message
  | noWorkers => "max_workers must be greater than 0"
  | names e => e.message
  | rules e => e.message

/-- The error is a complaint about how the settings are written. -/
def isComplaint : DetectionError → Bool
  | settings e => e.isComplaint
  | discovery (.settings e) => e.isComplaint
  | _ => false

end DetectionError

/-! ### Strict mode -/

/-- Why strict mode is on or off. -/
inductive StrictReason where
  | explicit
  | disabled
  | detected
  | noCompilerConfig
  deriving DecidableEq, Repr, Inhabited

def StrictReason.name : StrictReason → String
  | explicit => "explicit"
  | disabled => "disabled"
  | detected => "auto-detected"
  | noCompilerConfig => "no-tsconfig"

/-- Whether types are taken into account, and the compiler configuration they
come from. -/
structure StrictMode where
  reason : StrictReason
  compilerConfig : Option Path := none
  deriving DecidableEq, Repr, Inhabited

namespace StrictMode

def enabled (m : StrictMode) : Bool :=
  m.reason == .explicit || m.reason == .detected

/-- What is asked for comes first, then what is set; otherwise a compiler
configuration near the target decides. -/
def choose (fs : FileSystem) (target : Path) (s : Settings)
    (asked : Option Bool) (compilerConfig : Option Path) :
    Except DetectionError StrictMode := do
  let configured ← (s.path? "tsconfig").mapError .settings
  let known := compilerConfig <|> configured
  match asked <|> (s.get? "strict").bind Value.asBool? with
  | some true => return ⟨.explicit, known⟩
  | some false => return ⟨.disabled, none⟩
  | none =>
    match known with
    | some p => return ⟨.detected, some p⟩
    | none =>
      match ← (fs.compilerConfig? target).mapError .project with
      | some p => return ⟨.detected, some p⟩
      | none => return ⟨.noCompilerConfig, none⟩

end StrictMode

/-! ### Detection -/

/-- What a caller asks of a detection. -/
structure DetectionArguments where
  debug : Bool := false
  /-- Take in sources side by side. -/
  parallel : Option Bool := none
  workers : Option Int := none
  strict : Option Bool := none
  /-- The compiler configuration, as written. -/
  compilerConfig : Option String := none
  usePresets : Option Bool := none
  warnOnIndexKey : Option Bool := none
  minSeverity : Value := .null
  minConfidence : Value := .null
  confirmedOnly : Bool := false
  changes : OptionChanges := {}

instance : Inhabited DetectionArguments := ⟨{}⟩

/-- A detection in numbers. -/
structure DetectionSummary where
  filesAnalyzed : Nat
  hooksAnalyzed : Nat
  cycles : Nat
  findings : Nat
  /-- How many findings the rules held back. -/
  filtered : Nat
  /-- How many sources could not be taken in or analysed. -/
  failures : Nat
  deriving DecidableEq, Repr, Inhabited

def DetectionSummary.entries (s : DetectionSummary) : Table Value :=
  [("files_analyzed", .ofNat s.filesAnalyzed),
    ("hooks_analyzed", .ofNat s.hooksAnalyzed),
    ("cross_file_cycles", .ofNat s.cycles), ("findings", .ofNat s.findings),
    ("filtered_count", .ofNat s.filtered), ("parse_errors", .ofNat s.failures)]

/-- The outcome of a detection. -/
structure Detection where
  findings : List Finding
  cycles : List ImportCycle
  summary : DetectionSummary
  strictMode : StrictMode
  root : Path
  deriving Inhabited

/-- A checker of any kind is given. -/
def CheckerSources.isGiven (c : CheckerSources) : Bool :=
  c.checker.isSome || c.pool.isSome || c.factory.isSome

namespace Detection

/-- The number of sources from which they are taken in side by side. -/
def parallelThreshold : Int := 20

/-- Whether sources are taken in side by side: as asked for, as set, or when
there are many. -/
def isParallel (s : Settings) (asked : Option Bool) (count : Nat) : Bool :=
  match asked, (s.get? "parallel").getD .null with
  | some b, _ => b
  | none, .null =>
    match s.get? "parallel_threshold" with
    | some v => v.integer?.any fun limit => limit ≤ (count : Int)
    | none => parallelThreshold ≤ count
  | none, v => v.isTruthy

/-- Side by side there has to be a worker. Zero stands for as many as there
are processors. -/
def checkWorkers (s : Settings) (args : DetectionArguments) (count : Nat) :
    Except DetectionError Unit :=
  if isParallel s args.parallel count && args.workers.any (· < 0) then
    .error .noWorkers else .ok ()

/-- The options for a detection. A compiler configuration that was merely
found near the target does not make the options strict unless there is a
checker to ask. -/
def optionsFor (re : PatternCompiler) (fs : FileSystem) (s : Settings)
    (mode : StrictMode) (compilerConfig : Option Path)
    (args : DetectionArguments) :
    Except SettingsError RunOptions :=
  s.runOptions re fs {
    usePresets := args.usePresets
    debug := args.debug
    strict := mode.enabled &&
      (mode.reason == .explicit || args.changes.checkers.isGiven)
    compilerConfig := (mode.compilerConfig <|> compilerConfig).map Path.text
    warnOnIndexKey := args.warnOnIndexKey
    changes := args.changes }

/-- The sources that could be taken in, and how many could not. -/
def takeIn (fs : FileSystem) (files : List Path) : List SourceFile × Nat :=
  let taken := files.filterMap fun p => (fs.source p.text).toOption
  (taken, files.length - taken.length)

/-- The rules that hold for the report. -/
def rulesFor (s : Settings) (args : DetectionArguments) :
    Except RuleError RuleSet :=
  RuleSet.ofSettings s.entries {
    minSeverity := args.minSeverity
    minConfidence := args.minConfidence
    confirmedOnly := .bool args.confirmedOnly
    showSafe := .bool args.debug }

/-- What is reported of an analysis. -/
def report (s : Settings) (mode : StrictMode) (rules : RuleSet) (a : Analysis)
    (failures : Nat) :
    Detection :=
  let findings := rules.filter a.findings
  { findings := findings
    cycles := a.cycles
    summary := {
      filesAnalyzed := a.filesAnalyzed
      hooksAnalyzed := a.hooksAnalyzed
      cycles := a.cycles.length
      findings := findings.length
      filtered := a.findings.length - findings.length
      failures := failures + a.failedFiles.length }
    strictMode := mode
    root := s.root }

/-- Detection at a path, under given settings or under those that hold there. -/
def run (re : PatternCompiler) (fs : FileSystem) (target : Path)
    (given : Option Settings) (args : DetectionArguments) :
    Except DetectionError Detection := do
  let target ← (fs.realPath target).mapError .project
  let s ←
    match given with
    | some s => pure s
    | none => (Settings.load fs target).mapError .settings
  let compilerConfig ←
    match args.compilerConfig with
    | none | some "" => pure none
    | some written =>
      some <$> (fs.realPath (.ofString written)).mapError .project
  let mode ← StrictMode.choose fs target s args.strict compilerConfig
  let r ← (optionsFor re fs s mode compilerConfig args).mapError .settings
  let files ← (Discovery.sources fs s none [target]).mapError .discovery
  checkWorkers s args files.length
  let (sources, failures) := takeIn fs files
  let resolver ← (Resolver.ofProject fs (some r.root) r.compilerConfig).mapError
    .project
  let ctx ← (Context.ofOptions re r.options).mapError .names
  let a ← (Analysis.run ctx resolver fs.source sources).mapError .project
  let rules ← (rulesFor s args).mapError .rules
  return report s mode rules a failures

end Detection

end RenderLoop
