import RenderLoop.Check.File
import RenderLoop.Project.Closure
import RenderLoop.Project.HandOff

/-!
# Analysing a project

The requested files are checked one by one with what is known about all files
in reach of them: which imported functions call the setters handed to them.
Files that are only imported contribute to that knowledge but have no findings
of their own.

If something goes wrong while the files are put in relation, the analysis goes
on file by file.
-/

namespace RenderLoop

/-- What is known about a set of files as a whole. -/
structure ProjectFacts where
  graph : ImportGraph
  exports : ExportTable
  takers : List SetterTaker
  deriving Inhabited

namespace ProjectFacts

def build (ctx : Context) (r : Resolver) (files : SourceSet) :
    Except ProjectError ProjectFacts := do
  let graph ← ImportGraph.build files r
  let exports ← ExportTable.ofFiles files r
  return ⟨graph, exports, HandOff.takers (HandOff.depths ctx files exports)⟩

def cycles (p : ProjectFacts) : List ImportCycle := p.graph.cycles

/-- The function behind a called name. -/
def callee? (p : ProjectFacts) (file called : String) : Option Symbol :=
  ExportTable.callee? p.exports file called

/-- What is known about an imported function that is called in a file. -/
def taker? (p : ProjectFacts) (file called : String) : Option SetterTaker :=
  match p.callee? file called with
  | some s =>
    if s.file == file then none
    else p.takers.find? fun t => t.file == s.file && t.name == s.name
  | none => none

end ProjectFacts

/-- The outcome of an analysis. -/
structure Analysis where
  findings : List Finding := []
  cycles : List ImportCycle := []
  filesAnalyzed : Nat := 0
  hooksAnalyzed : Nat := 0
  failedFiles : List String := []
  deriving Inhabited

namespace Analysis

/-- The files under their resolved paths; of two with one path the last. -/
def keyed (fs : FileSystem) (sources : List SourceFile) :
    Except ProjectError SourceSet := do
  let entries ← sources.mapM fun f =>
    do return ((← fs.realPath (.ofString f.path)).text, f)
  return Table.ofEntries entries

/-- Adds the report on a file. -/
def add (a : Analysis) (f : SourceFile) (report : Check.FileReport) :
    Analysis :=
  let a := { a with findings := a.findings ++ report.findings }
  if report.failed then { a with failedFiles := a.failedFiles ++ [f.path] }
  else
    { a with
      filesAnalyzed := a.filesAnalyzed + 1
      hooksAnalyzed := a.hooksAnalyzed + f.hooks.length }

/-- The report on one of the requested files. -/
def reportOn (ctx : Context) (facts : Option ProjectFacts) (file : String)
    (f : SourceFile) :
    Check.FileReport :=
  Check.file ctx f fun called => facts.bind (·.taker? file called)

/-- Checks the requested files in the order of their paths. -/
def ofFiles (ctx : Context) (facts : Option ProjectFacts)
    (requested : SourceSet) : Analysis :=
  let ordered := requested.mergeSort fun a b => decide (a.1 ≤ b.1)
  let start : Analysis := { cycles := (facts.map (·.cycles)).getD [] }
  let a :=
    ordered.foldl (fun a (file, f) => a.add f (reportOn ctx facts file f)) start
  { a with findings := Finding.sort a.findings }

/-- Analyses files together with what they import. -/
def run (ctx : Context) (r : Resolver) (parse : Closure.Parse)
    (sources : List SourceFile) :
    Except ProjectError Analysis := do
  let requested ← keyed r.files sources
  let everything ← Closure.expand r parse ctx.options.maxImportClosure requested
  return ofFiles ctx (ProjectFacts.build ctx r everything).toOption requested

end Analysis

/-! ### Sources of a file system -/

/-- Takes in the source at a path. -/
def FileSystem.source (fs : FileSystem) (path : String) :
    Except ParseError SourceFile :=
  match fs.file? (.ofString path) with
  | none => .error (.unreadable path)
  | some f =>
    match f.text?, f.tree with
    | some text, some tree => SourceFile.ofTree path text tree
    | _, _ => .error (.unreadable path)

end RenderLoop
