import RenderLoop.Command.Option
import RenderLoop.Number.Input
import RenderLoop.Project.Detection
import RenderLoop.Report.Human

/-!
# Commands

The commands of the program and how they are written: `check` looks a project
over once, `watch` again and again, and `init` writes a settings file. Paths
are looked up while a command line is read, so that a wrong one is a mistake
of usage.
-/

namespace RenderLoop

/-- A project is looked over once. -/
structure CheckRequest where
  target : Path
  format : ReportFormat := .human
  /-- Say nothing when nothing is found. -/
  quiet : Bool := false
  arguments : DetectionArguments := {}

/-- A project is looked over again whenever it changes. -/
structure WatchRequest where
  target : Path
  format : ReportFormat := .human
  /-- How many seconds pass between two looks. -/
  interval : Double
  deriving Inhabited

/-- What the program is asked to do. -/
inductive Command where
  | check (request : CheckRequest)
  | init (directory : Path)
  | watch (request : WatchRequest)
  | help (text : String)

instance : Inhabited Command := ⟨.help ""⟩

namespace Command

/-! ### Options -/

def helpOption : OptionSpec :=
  { subject := "help", long := "--help", switch := some "" }

def formatOption : OptionSpec :=
  { subject := "format", long := "--format", short := some 'f' }

/-- An option without a value. -/
def flag (subject long : String) : OptionSpec :=
  { subject, long, switch := some "" }

/-- The options in front of a command. -/
def mainOptions : List OptionSpec :=
  [{ flag "verbose" "--verbose" with short := some 'v' }, helpOption]

def checkOptions : List OptionSpec :=
  [formatOption, flag "debug" "--debug",
    { subject := "parallel", long := "--parallel", switch := some "on" },
    { subject := "parallel", long := "--sequential", switch := some "off" },
    { subject := "workers", long := "--workers" },
    { subject := "min-severity", long := "--min-severity" },
    { subject := "min-confidence", long := "--min-confidence" },
    flag "confirmed-only" "--confirmed-only",
    { subject := "strict", long := "--strict", switch := some "on" },
    { subject := "strict", long := "--no-strict", switch := some "off" },
    { subject := "tsconfig", long := "--tsconfig" },
    flag "no-presets" "--no-presets",
    { flag "quiet" "--quiet" with short := some 'q' }, helpOption]

def initOptions : List OptionSpec :=
  [{ subject := "path", long := "--path" }, helpOption]

def watchOptions : List OptionSpec :=
  [{ subject := "interval", long := "--interval" }, formatOption, helpOption]

/-! ### Values -/

/-- The value of an option, if it is given, read by `read?`. -/
def value? (c : CommandLine) (subject : String) (read? : String → Option α) :
    Except UsageError (Option α) :=
  match c.last? subject with
  | none => .ok none
  | some written =>
    match read? written with
    | some a => .ok (some a)
    | none => .error (.badValue subject written)

/-- Whether one of two opposite options is given, and which. -/
def choice? (c : CommandLine) (subject : String) : Option Bool :=
  (c.last? subject).map (· == "on")

def format (c : CommandLine) : Except UsageError ReportFormat := do
  return (← value? c "format" ReportFormat.ofName?).getD .human

/-- The one argument that may be given. -/
def onlyArgument? (c : CommandLine) : Except UsageError (Option String) :=
  match c.arguments with
  | [] => .ok none
  | [arg] => .ok (some arg)
  | _ :: extra :: _ => .error (.extraArgument extra)

/-- The path a text names, if there is anything. -/
def existing? (fs : FileSystem) (written : String) : Option Path :=
  if written != "" && fs.contains (.ofString written) then
    some (.ofString written) else none

/-- The path a text names, if there is a file. -/
def existingFile? (fs : FileSystem) (written : String) : Option Path :=
  (existing? fs written).filter fun p => !fs.seesDirectory p

/-- The path a text names, unless there is a file. -/
def notAFile? (fs : FileSystem) (written : String) : Option Path :=
  if written != "" && (fs.file? (.ofString written)).isSome then none
  else some (.ofString written)

/-- The target of a command, by default the current directory. -/
def target (fs : FileSystem) (c : CommandLine) : Except UsageError Path := do
  let written := (← onlyArgument? c).getD "."
  match existing? fs written with
  | some p => return p
  | none => .error (.badValue "path" written)

/-- A number of workers. -/
def workers? (written : String) : Option Int :=
  (NumberInput.int? written).filter (1 ≤ ·)

/-- A number of seconds, at least a tenth. -/
def interval? (written : String) : Option Double :=
  (NumberInput.double? written).filter fun d =>
    !d.lt (Double.ofRatio false 1 10)

/-! ### Help -/

def mainHelp : String :=
  "Usage: hookloop [OPTIONS] COMMAND [ARGS]...\n\n" ++
  "  hookloop: find React hook patterns that re-render forever.\n\n" ++
  "Options:\n" ++
  "  --version      Show the version and exit.\n" ++
  "  -v, --verbose  Verbose (debug) logging on stderr\n" ++
  "  --help         Show this message and exit.\n\n" ++
  "Commands:\n" ++
  "  check  Analyze PATH (default: current directory) for hook loops.\n" ++
  "  init   Write a commented default hookloop.toml.\n" ++
  "  watch  Re-run the analysis whenever a source file under PATH changes."

def checkHelp : String :=
  "Usage: hookloop check [OPTIONS] [PATH]\n\n" ++
  "  Analyze PATH (default: current directory) for hook loops.\n\n" ++
  "Options:\n" ++
  "  -f, --format [human|compact|json|sarif]\n" ++
  "                                  Output format\n" ++
  "  --debug                         Attach decision details and show safe\n" ++
  "                                  patterns\n" ++
  "  --parallel / --sequential       Force parallel or sequential parsing\n" ++
  "  --workers INTEGER RANGE         Parser threads in parallel mode  [x>=1]\n" ++
  "  --min-severity [low|medium|high]\n" ++
  "                                  Hide findings below this severity\n" ++
  "  --min-confidence [low|medium|high]\n" ++
  "                                  Hide findings below this confidence\n" ++
  "  --confirmed-only                Report confirmed infinite loops only\n" ++
  "  --strict / --no-strict          Use type information for stability (default:\n" ++
  "                                  auto)\n" ++
  "  --tsconfig FILE                 tsconfig.json to use\n" ++
  "  --no-presets                    Do not apply library presets from\n" ++
  "                                  package.json\n" ++
  "  -q, --quiet                     No progress bar; no output when nothing is\n" ++
  "                                  found\n" ++
  "  --help                          Show this message and exit."

def initHelp : String :=
  "Usage: hookloop init [OPTIONS]\n\n" ++
  "  Write a commented default hookloop.toml.\n\n" ++
  "Options:\n" ++
  "  --path DIRECTORY  Directory to write into\n" ++
  "  --help            Show this message and exit."

def watchHelp : String :=
  "Usage: hookloop watch [OPTIONS] [PATH]\n\n" ++
  "  Re-run the analysis whenever a source file under PATH changes.\n\n" ++
  "Options:\n" ++
  "  --interval FLOAT RANGE          Polling interval in seconds  [default: 1.0;\n" ++
  "                                  x>=0.1]\n" ++
  "  -f, --format [human|compact|json|sarif]\n" ++
  "                                  Output format\n" ++
  "  --help                          Show this message and exit."

/-! ### Commands -/

def readCheck (fs : FileSystem) (args : List String) :
    Except UsageError Command := do
  let c ← CommandLine.read checkOptions true args
  if c.has "help" then return .help checkHelp
  let target ← target fs c
  let format ← format c
  let workers ← value? c "workers" workers?
  let severity ← value? c "min-severity" Level.ofName?
  let confidence ← value? c "min-confidence" Level.ofName?
  let compilerConfig ← value? c "tsconfig" (existingFile? fs)
  return .check {
    target := target
    format := format
    quiet := c.has "quiet"
    arguments := {
      debug := c.has "debug"
      parallel := choice? c "parallel"
      workers := workers
      strict := choice? c "strict"
      compilerConfig := compilerConfig.map Path.text
      usePresets := if c.has "no-presets" then some false else none
      minSeverity := .ofOption (fun l => .text l.name) severity
      minConfidence := .ofOption (fun l => .text l.name) confidence
      confirmedOnly := c.has "confirmed-only" } }

def readInit (fs : FileSystem) (args : List String) :
    Except UsageError Command := do
  let c ← CommandLine.read initOptions true args
  if c.has "help" then return .help initHelp
  match c.arguments with
  | extra :: _ => .error (.extraArgument extra)
  | [] => return .init ((← value? c "path" (notAFile? fs)).getD (.ofString "."))

def readWatch (fs : FileSystem) (args : List String) :
    Except UsageError Command := do
  let c ← CommandLine.read watchOptions true args
  if c.has "help" then return .help watchHelp
  return .watch {
    target := ← target fs c
    format := ← format c
    interval := (← value? c "interval" interval?).getD (Double.ofInt 1) }

/-- Reads a command line. -/
def read (fs : FileSystem) (args : List String) :
    Except UsageError Command := do
  let c ← CommandLine.read mainOptions false args
  if c.has "help" then return .help mainHelp
  match c.arguments with
  | [] => .error .missingCommand
  | "check" :: rest => readCheck fs rest
  | "init" :: rest => readInit fs rest
  | "watch" :: rest => readWatch fs rest
  | other :: _ => .error (.unknownCommand other)

end Command

end RenderLoop
