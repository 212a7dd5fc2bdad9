import RenderLoop.Project.ImportGraph

/-!
# The import closure

Files are analysed together with what they import, directly or through others.
`Closure.expand` adds the imported sources in breadth-first order, up to a
limit; a file that cannot be parsed is left out and not tried again.
-/

namespace RenderLoop

namespace Closure

/-- How sources are taken in. -/
abbrev Parse := String → Except ParseError SourceFile

/-- Where the imports of a file lead: to a path or nowhere. -/
abbrev Resolve := String → String → Except ProjectError (Option Path)

instance : Coe Resolver Resolve := ⟨fun r file => r.resolve (.ofString file)⟩

/-- The files taken in so far. -/
structure State where
  files : SourceSet
  /-- The paths that were tried, with success or not. -/
  attempted : List String
  deriving Inhabited

/-- The path is that of a source. -/
def isSource (p : Path) : Bool := sourceSuffixes.contains p.suffix

/-- Takes in the targets of imports, as long as the limit `room` admits. The
answer holds the files added, and what is left of the limit is `room` without
their number. -/
def takeIn (parse : Parse) (s : State) (room : Nat) :
    List Path → State × List String
  | [] => (s, [])
  | target :: rest =>
    let path := target.text
    if s.attempted.contains path || !isSource target then
      takeIn parse s room rest
    else
      let tried := { s with attempted := path :: s.attempted }
      match room, parse path with
      | room + 1, .ok f =>
        let (s, added) := takeIn parse { tried with files := tried.files ++
          [(path, f)] } room rest
        (s, path :: added)
      | room, _ => takeIn parse tried room rest

/-- No more files are taken in than there is room for. -/
theorem length_takeIn_le (parse : Parse) (s : State) (room : Nat)
    (found : List Path) :
    (takeIn parse s room found).2.length ≤ room := by
  fun_induction takeIn parse s room found <;> simp_all

/-- The files that the imports of a file lead to. -/
def targets (r : Resolve) (file : String) (f : SourceFile) :
    Except ProjectError (List Path) := do
  let found ← f.imports.mapM fun i => r file i.source
  return found.filterMap id

/-- The files that the imports of a path lead to; nothing if it was not taken
in. -/
def targetsOf (r : Resolve) (s : State) (file : String) :
    Except ProjectError (List Path) :=
  match s.files.get? file with
  | some f => targets r file f
  | none => .ok []

/-- Goes through the files of the queue and adds what they import, at most
`room` files. -/
def grow (r : Resolve) (parse : Parse) (room : Nat) (s : State) :
    List String → Except ProjectError SourceSet
  | [] => .ok s.files
  | file :: queue => do
    let found ← targetsOf r s file
    grow r parse (room - (takeIn parse s room found).2.length)
      (takeIn parse s room found).1 (queue ++ (takeIn parse s room found).2)
termination_by queue => 2 * room + queue.length
decreasing_by
  have := length_takeIn_le parse s room found
  simp only [List.length_append, List.length_cons]
  omega

/-- The requested files and what they import, at most `limit` further files. -/
def expand (r : Resolve) (parse : Parse) (limit : Nat) (requested : SourceSet) :
    Except ProjectError SourceSet :=
  if limit = 0 then .ok requested
  else grow r parse limit ⟨requested, requested.names⟩ requested.names

end Closure

end RenderLoop
