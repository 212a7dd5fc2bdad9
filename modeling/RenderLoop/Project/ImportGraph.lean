import RenderLoop.Data.Search
import RenderLoop.Source.File
import RenderLoop.Project.Resolver

/-!
# The import graph

Files are joined by the imports that resolve to one another. Files that import
each other, directly or through others, form a cycle; `ImportGraph.cycles`
lists each of these groups once.
-/

namespace RenderLoop

/-- Parsed files under their resolved paths. -/
abbrev SourceSet := Table SourceFile

/-- One file imports from another. -/
structure ImportEdge where
  source : String
  target : String
  /-- The names involved, by which they are exported and by which they are
  bound. -/
  names : List String
  deriving DecidableEq, Repr, Inhabited

structure ImportGraph where
  files : List String
  edges : List ImportEdge
  deriving Inhabited

/-- Files that reach one another by imports. -/
structure ImportCycle where
  files : List String
  sharedNames : List String
  deriving DecidableEq, Repr, Inhabited

namespace ImportGraph

/-- The names an import is about. -/
def namesOf (i : Import) : List String := i.localNames ++ i.specifiers.map (·.1)

/-- The imports of a file that lead to files of the set, each with its
target. -/
def resolvedImports (files : SourceSet) (r : Resolver) (file : String)
    (f : SourceFile) :
    Except ProjectError (List (Import × String)) := do
  let found ← f.imports.mapM fun i => do
    return (← r.resolve (.ofString file) i.source).map fun p => (i, p.text)
  return (found.filterMap id).filter fun (_, target) => files.contains target

/-- Adds names to the edge between two files, which is made if it is new. -/
def addEdge (edges : List ImportEdge) (e : ImportEdge) : List ImportEdge :=
  if edges.any fun x => x.source == e.source && x.target == e.target then
    edges.map fun x =>
      if x.source == e.source && x.target == e.target then
        { x with names := x.names ++ e.names } else x
  else edges ++ [e]

/-- The graph of the resolved imports between files. -/
def build (files : SourceSet) (r : Resolver) :
    Except ProjectError ImportGraph := do
  let found ← files.mapM fun (file, f) => do
    return (← resolvedImports files r file f).map fun (i, target) =>
      ⟨file, target, namesOf i⟩
  return ⟨files.names, found.flatten.foldl addEdge []⟩

/-- The files a file imports. -/
def importsOf (g : ImportGraph) (file : String) : List String :=
  (g.edges.filter (·.source == file)).map (·.target)

/-- What a file imports is the target of an edge, so there are finitely many.
-/
theorem mem_targets_of_mem_importsOf {g : ImportGraph} {file target : String}
    (h : target ∈ g.importsOf file) : target ∈ g.edges.map (·.target) := by
  obtain ⟨e, he, rfl⟩ := List.mem_map.1 h
  exact List.mem_map.2 ⟨e, (List.mem_filter.1 he).1, rfl⟩

/-- What imports lead to from a file. -/
def space (g : ImportGraph) (file : String) : Space String where
  start := g.importsOf file
  next := g.importsOf
  bounded := ⟨g.edges.map (·.target), fun _ h => mem_targets_of_mem_importsOf h,
    fun _ _ _ h => mem_targets_of_mem_importsOf h⟩

/-- The files that imports lead to from a file, in one step or more. -/
def reachable (g : ImportGraph) (file : String) : List String :=
  (g.space file).visit

/-- Two files import each other, directly or through others. -/
def importEachOther (g : ImportGraph) (a b : String) : Bool :=
  (g.reachable a).contains b && (g.reachable b).contains a

/-- The files that a file forms a cycle with, in order; nothing if it is on no
cycle. -/
def cycleOf (g : ImportGraph) (file : String) : List String :=
  (sortedUnique g.files).filter (g.importEachOther file)

/-- The names on the edges among files. -/
def namesAmong (g : ImportGraph) (files : List String) : List String :=
  sortedUnique ((g.edges.filter fun e => files.contains e.source &&
    files.contains e.target).flatMap (·.names))

/-- The cycles, in the order of their first files. -/
def cycles (g : ImportGraph) : List ImportCycle :=
  (sortedUnique g.files).filterMap fun file =>
    let group := g.cycleOf file
    if group.head? == some file then some ⟨group, g.namesAmong group⟩ else none

end ImportGraph

end RenderLoop
