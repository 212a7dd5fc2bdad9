import RenderLoop.Command.Basic
import RenderLoop.Command.Template
import RenderLoop.Schedule
import RenderLoop.Text.Regex.Parser

/-!
# Running commands

A command turns a file system into an outcome: what is printed, how the
program ends, and the file system that is left. The program ends with 1 when a
loop is certain or something failed, with 2 when the command line or the
settings are wrong, and with 0 otherwise.
-/

namespace RenderLoop

/-- The end of a command. -/
structure Outcome where
  exit : Nat
  output : String := ""
  files : FileSystem
  deriving Inhabited

/-! ### Failures -/

/-- The settings are at fault in a way that ends the program in order. -/
def SettingsError.isOrderly : SettingsError → Bool
  | undecodable _ | badPath _ | tooDeep _ => true
  | e => e.isComplaint

def ProjectError.isOrderly : ProjectError → Bool
  | emptyName _ | badPath _ | tooDeep _ => true
  | _ => false

def GlobError.isOrderly : GlobError → Bool
  | nameless | namelessDirectory => false
  | _ => true

def DiscoveryError.isOrderly : DiscoveryError → Bool
  | settings e => e.isOrderly
  | glob e => e.isOrderly
  | badPath _ => true

/-- The failure is one that commands foresee. -/
def DetectionError.isOrderly : DetectionError → Bool
  | settings e => e.isOrderly
  | project e => e.isOrderly
  | discovery e => e.isOrderly
  | noWorkers => true
  | names _ => false
  | rules (.badSeverity _) | rules (.badConfidence _) => true
  | rules .malformedRules => false

namespace Command

/-- How a command ends that failed: with 2 when the settings are wrong, with 1
otherwise. A failure that is not foreseen is handed on. -/
def failed (fs : FileSystem) (output : String) (e : DetectionError) :
    Except DetectionError Outcome :=
  if e.isComplaint then .ok { exit := 2, output, files := fs }
  else if e.isOrderly then .ok { exit := 1, output, files := fs }
  else .error e

/-! ### Output -/

/-- A text that is printed on lines of its own; nothing for an empty one. -/
def printed (text : String) : String := if text == "" then "" else text ++ "\n"

/-- A message of the program itself. -/
def message (t : Terminal) (style : Style) (text : String) : String :=
  printed ("\n".intercalate
    ((Layout.lines t.width [⟨style, text⟩]).map (Layout.render t.coloured)))

/-- The report on a detection that took some milliseconds. -/
def reportOn (d : Detection) (duration : Nat) : Report where
  findings := d.findings
  summary := d.summary.entries ++ [("duration_ms", .ofNat duration)]
  cycles := d.cycles
  root := some d.root

/-- What is printed of a detection. -/
def shown (t : Terminal) (format : ReportFormat) (quiet : Bool) (duration : Nat)
    (d : Detection) : String :=
  if quiet && format == .human && d.findings.isEmpty then ""
  else printed ((reportOn d duration).text t format)

/-- A loop is certain. -/
def foundLoop (d : Detection) : Bool := d.findings.any (·.kind == .confirmed)

/-! ### Commands -/

/-- Looks a project over. -/
def runCheck (t : Terminal) (duration : Nat) (fs : FileSystem)
    (r : CheckRequest) :
    Except DetectionError Outcome :=
  match Detection.run Regex.compiler fs r.target none r.arguments with
  | .error e => failed fs "" e
  | .ok d =>
    .ok { exit := if foundLoop d then 1 else 0, output :=
      shown t r.format r.quiet duration d, files := fs }

/-- Makes a directory and those above it; nothing if something else is in the
way. -/
def makeDirectories? (fs : FileSystem) (directory : Path) : Option FileSystem :=
  directory.andAbove.reverse.foldlM (fun fs p =>
    if fs.seesDirectory p then some fs
    else if fs.contains p || fs.isLink p then none
    else
      match fs.find? p.parent with
      | some (place, .directory) => some (fs.addDirectory (place ++ [p.name]))
      | _ => none) fs

/-- Writes a text to a path whose directory exists. -/
def writeText? (fs : FileSystem) (path : Path) (text : String) :
    Option FileSystem :=
  match fs.resolve path with
  | .error _ => none
  | .ok real =>
    if fs.seesDirectory real.parent then
      some (fs.putItem real.names (.file { bytes := text.toUTF8 }))
    else none

/-- Writes a settings file to start from, unless there is one. -/
def runInit (t : Terminal) (fs : FileSystem) (directory : Path) : Outcome :=
  let target := directory.child Settings.fileName
  if fs.contains target then { exit := 1, files := fs }
  else
    match (makeDirectories? fs directory).bind fun fs =>
      writeText? fs target settingsTemplate with
    | none => { exit := 1, files := fs }
    | some fs =>
      { exit := 0
        output := message t { colour := some .green } ("Wrote " ++ target.text)
        files := fs }

/-! ### Watching -/

/-- When the sources of a project were changed. -/
abbrev ChangeTimes := List (Path × Nat)

/-- The sources below a target and when they were changed. -/
def changeTimes (fs : FileSystem) (s : Settings) (target : Path) :
    Except DiscoveryError ChangeTimes := do
  let files ← Discovery.sources fs s none [target]
  return files.filterMap fun p => (fs.file? p).map fun f => (p, f.modified)

/-- A watch that is going on. -/
structure Watch where
  schedule : Schedule DetectionError Detection := {}
  times : ChangeTimes
  output : String := ""
  deriving Inhabited

namespace Watch

/-- Asks for a run and waits for its end. A run that fails prints nothing. -/
def runNow (w : Watch) (t : Terminal) (fs : FileSystem) (s : Settings)
    (r : WatchRequest) : Watch :=
  let outcome := Detection.run Regex.compiler fs r.target (some s) {}
  let output :=
    match outcome with
    | .ok d => w.output ++ shown t r.format false 0 d
    | .error _ => w.output
  { w with schedule :=
    (w.schedule.request.2.advance.complete outcome (.ok ())).advance, output }

/-- Looks at the project again and runs if its sources have changed. -/
def look (w : Watch) (t : Terminal) (fs : FileSystem) (s : Settings)
    (r : WatchRequest) :
    Except DiscoveryError Watch := do
  let times ← changeTimes fs s r.target
  if times == w.times then return w
  else return ({ w with times }).runNow t fs s r

/-- Looks at the project as it is at one time after another. A failure ends
the watch; what was printed before it stays. -/
def lookAll (t : Terminal) (s : Settings) (r : WatchRequest) :
    List FileSystem → Watch → Watch × Option DiscoveryError
  | [], w => (w, none)
  | fs :: rest, w =>
    match w.look t fs s r with
    | .ok w => lookAll t s r rest w
    | .error e => (w, some e)

end Watch

/-- Watches a project that goes through some states, until it is told to
stop. -/
def runWatch (t : Terminal) (fs : FileSystem) (later : List FileSystem)
    (r : WatchRequest) :
    Except DetectionError Outcome :=
  match Settings.load fs r.target with
  | .error e => failed fs "" (.settings e)
  | .ok s =>
    match changeTimes fs s r.target, fs.resolve r.target with
    | .error e, _ => failed fs "" (.discovery e)
    | _, .error e => failed fs "" (.discovery (.badPath e))
    | .ok times, .ok target =>
      let started := ({ times } : Watch).runNow t fs s r
      let announced := { started with
        output := started.output ++ message t { dim := true }
          ("Watching " ++ target.text ++ " (Ctrl+C to stop)") }
      match Watch.lookAll t s r later announced with
      | (w, some e) => failed fs w.output (.discovery e)
      | (w, none) =>
        .ok
          { exit := 0
            output := w.output ++ message t { dim := true } "Stopped watching."
            files := fs }

/-- Runs a command. A project that is watched goes through the states in
`later`. -/
def run (t : Terminal) (duration : Nat) (fs : FileSystem)
    (later : List FileSystem) :
    Command → Except DetectionError Outcome
  | check r => runCheck t duration fs r
  | init directory => .ok (runInit t fs directory)
  | watch r => runWatch t fs later r
  | help text => .ok { exit := 0, output := printed text, files := fs }

/-- Runs a command line. -/
def runLine (t : Terminal) (duration : Nat) (fs : FileSystem)
    (later : List FileSystem) (args : List String) :
    Except DetectionError Outcome :=
  match read fs args with
  | .error _ => .ok { exit := 2, files := fs }
  | .ok c => c.run t duration fs later

end Command

end RenderLoop
