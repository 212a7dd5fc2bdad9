import RenderLoop.Finding.Basic
import RenderLoop.Files.Path
import RenderLoop.Project.ImportGraph
import RenderLoop.Data.Json.Printer

/-!
# Reports

A report holds what was found and shows it in one of several formats.
This module has those that programs read: one line a finding, a JSON document, and
the exchange format of code scanners.

Files are shown as seen from the root of the project, if they are below it.
-/

namespace RenderLoop

/-- What a report is about. -/
structure Report where
  findings : List Finding
  summary : Table Value := []
  cycles : List ImportCycle := []
  root : Option Path := none
  deriving Inhabited

namespace Report

/-- A file as it is shown. -/
def shownPath (root : Option Path) (file : String) : String :=
  match root.bind fun r => (Path.ofString file).relativeTo? r with
  | some p => p.text
  | none => file

/-! ### One line a finding -/

/-- The place of a finding, its code and its severity with the explanation. -/
def compactLine (root : Option Path) (f : Finding) : String :=
  shownPath root f.file ++ ":" ++ toString f.line ++ ":" ++
    toString f.humanColumn ++ ": " ++ f.code.text ++ " " ++ f.severity.name ++
    " " ++ f.explanation

def compact (r : Report) : String :=
  "\n".intercalate (r.findings.map (compactLine r.root))

/-! ### JSON -/

def cycleValue (c : ImportCycle) : Value :=
  .table [("files", .ofTexts c.files),
    ("sharedDependencies", .ofTexts c.sharedNames)]

def json (r : Report) : String :=
  Json.renderIndented <| .table
    [("summary", .table r.summary),
      ("findings", .list (r.findings.map Finding.toValue)),
      ("crossFileCycles", .list (r.cycles.map cycleValue))]

/-! ### The exchange format of code scanners -/

/-- The level that stands for a severity. -/
def scannerLevel : Level → String
  | .high => "error"
  | .medium => "warning"
  | .low => "note"

/-- A text under the name it has in many places of the format. -/
def textValue (s : String) : Value := .table [("text", .text s)]

/-- The rule a finding comes from; its level is that of the finding. -/
def scannerRule (f : Finding) : Value :=
  .table
    [("id", .text f.code.text), ("name", .text f.code.family),
      ("shortDescription",
        textValue (if f.code.description == "" then f.code.text
          else f.code.description)),
      ("defaultConfiguration",
        .table [("level", .text (scannerLevel f.severity))])]

/-- A finding as a result. Lines count from one. -/
def scannerResult (root : Option Path) (f : Finding) : Value :=
  let region := Value.table
    [("startLine", .int (max 1 f.line)), ("startColumn", .int f.humanColumn)]
  let place := Value.table
    [("artifactLocation", .table [("uri", .text (shownPath root f.file))]),
      ("region", region)]
  let fix :=
    match f.suggestion with
    | none | some "" => []
    | some s => [("fixes", .list [.table [("description", textValue s)]])]
  .table <|
    [("ruleId", .text f.code.text), ("level", .text (scannerLevel f.severity)),
      ("message", textValue f.explanation),
      ("locations", .list [.table [("physicalLocation", place)]]),
      ("properties",
        .table [("type", .text f.kind.name),
          ("confidence", .text f.confidence.name)])] ++ fix

/-- The first finding of each code, in order. -/
def firstOfEachCode (fs : List Finding) : List Finding :=
  fs.foldl (fun firsts f => if firsts.any (·.code.text == f.code.text) then
    firsts else firsts ++ [f]) []

def toolName : String := "hookloop"

def toolVersion : String := "0.1.0"

def schema : String :=
  "https://raw.githubusercontent.com/oasis-tcs/sarif-spec/master/Schemata/sarif-schema-2.1.0.json"

def scanner (r : Report) : String :=
  let driver := Value.table
    [("name", .text toolName), ("version", .text toolVersion),
      ("rules", .list ((firstOfEachCode r.findings).map scannerRule))]
  let run := Value.table
    [("tool", .table [("driver", driver)]),
      ("results", .list (r.findings.map (scannerResult r.root)))]
  Json.renderIndented <| .table
    [("$schema", .text schema), ("version", .text "2.1.0"),
      ("runs", .list [run])]

end Report

end RenderLoop
