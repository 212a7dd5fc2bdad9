import RenderLoop.Report.Basic
import RenderLoop.Report.Layout
import RenderLoop.Text.Quoted

/-!
# Reports for people

Findings grouped by file, the import cycles, and a table that sums everything
up, wrapped to the width of the terminal and in colour if it has any.
-/

namespace RenderLoop

/-- What is known of the terminal. -/
structure Terminal where
  coloured : Bool := false
  width : Nat := 100
  deriving DecidableEq, Repr, Inhabited

namespace Report

/-- The style of a category. -/
def categoryStyle : Category → Style
  | .critical => { bold := true, colour := some .red }
  | .warning => { colour := some .yellow }
  | .performance => { colour := some .cyan }
  | .safe => { colour := some .green }

/-! ### Findings -/

/-- The first line of a finding. -/
def findingHeader (f : Finding) : List Piece :=
  let style := categoryStyle f.category
  [⟨.plain, "  "⟩,
    ⟨{ dim := true }, toString f.line ++ ":" ++ toString f.humanColumn⟩,
    ⟨style, "  " ++ f.code.text ++ " "⟩,
    ⟨style, "[" ++ f.kind.name ++ "] "⟩,
    ⟨.plain, f.hook ++ " "⟩,
    ⟨{ dim := true }, "(" ++ f.severity.name ++ "/" ++
      f.confidence.name ++ ")"⟩]

/-- A finding: where it is, what it means and what to do about it. -/
def findingTexts (f : Finding) : List (List Piece) :=
  [findingHeader f, [⟨.plain, "      " ++ f.explanation⟩]] ++
    match f.suggestion with
    | none | some "" => []
    | some s => [[⟨{ italic := true }, "      -> " ++ s⟩]]

/-- The findings of a file, and a blank line. -/
def fileTexts (root : Option Path) (file : String) (fs : List Finding) :
    List (List Piece) :=
  [⟨{ bold := true, underline := true }, shownPath root file⟩] ::
    fs.flatMap findingTexts ++ [[]]

/-- The findings by file, in the order the files first come. -/
def byFile (fs : List Finding) : Table (List Finding) :=
  fs.foldl (fun t f => Table.modify t f.file [] (· ++ [f])) []

/-- The import cycles, and a blank line; nothing without any. -/
def cycleTexts (root : Option Path) (cycles : List ImportCycle) :
    List (List Piece) :=
  if cycles.isEmpty then []
  else
    [⟨{ bold := true, colour := some .magenta }, "Import cycles"⟩] ::
      cycles.map (fun c =>
        [⟨.plain, "  " ++ " -> ".intercalate
        (c.files.map (shownPath root))⟩]) ++ [[]]

/-! ### The summary -/

/-- A value of the summary as it is shown. -/
def shownValue : Value → String
  | .text s => s
  | v => Quoted.value v

/-- The rows of the summary. -/
def summaryRows (r : Report) : List (String × String) :=
  let entry (name : String) : String :=
    shownValue ((r.summary.get? name).getD (.int 0))
  let count (kind : FindingKind) : String :=
    toString (r.findings.countP (·.kind == kind))
  [("Files analyzed", entry "files_analyzed"),
    ("Hooks analyzed", entry "hooks_analyzed"),
    ("Confirmed infinite loops", count .confirmed),
    ("Potential issues", count .potential)] ++
    if (r.summary.get? "parse_errors").any Value.isTruthy then
      [("Files with errors", entry "parse_errors")]
    else []

/-- The widest of some texts. -/
def widest (texts : List String) : Nat :=
  (texts.map fun s => cellLength s.toList).foldl max 0

/-- The summary as a table with a title. -/
def summaryTable (rows : List (String × String)) : List (List Piece) :=
  let names := widest (rows.map (·.1))
  let values := widest (rows.map (·.2))
  let title := String.ofList (center (names + values + 4) "Summary".toList)
  let bold : Style := { bold := true }
  [⟨{ italic := true }, title⟩] :: rows.map fun (name, value) =>
    [⟨bold, " "⟩, ⟨bold, String.ofList (padRight names name.toList)⟩,
      ⟨bold, " "⟩, ⟨.plain,
      " " ++ String.ofList (padLeft values value.toList) ++ " "⟩]

/-! ### The report -/

/-- Everything above the summary. -/
def bodyTexts (r : Report) : List (List Piece) :=
  (if r.findings.isEmpty then
    [[⟨{ colour := some .green }, "No hook loop issues found."⟩]] else [])
    ++ (byFile r.findings).flatMap (fun (file, fs) => fileTexts r.root file fs)
    ++ cycleTexts r.root r.cycles

/-- A text without the line ends it closes with. -/
def trimLineEnds (s : String) : String :=
  String.ofList (s.toList.reverse.dropWhile (· == '\n')).reverse

def human (r : Report) (t : Terminal) : String :=
  let body := (bodyTexts r).flatMap (Layout.lines t.width)
  let all := body ++ summaryTable (summaryRows r)
  trimLineEnds ("\n".intercalate (all.map (Layout.render t.coloured)))

end Report

/-! ### Formats -/

/-- The formats of reports. -/
inductive ReportFormat where
  | human
  | compact
  | json
  | scanner
  deriving DecidableEq, Repr, Inhabited

namespace ReportFormat

def ofName? : String → Option ReportFormat
  | "human" => some .human
  | "compact" => some .compact
  | "json" => some .json
  | "sarif" => some .scanner
  | _ => none

end ReportFormat

/-- A report in a format; the terminal matters to the one for people only. -/
def Report.text (r : Report) (t : Terminal) : ReportFormat → String
  | .human => r.human t
  | .compact => r.compact
  | .json => r.json
  | .scanner => r.scanner

end RenderLoop
