import RenderLoop.Files.Glob
import RenderLoop.Text.Lossy
import RenderLoop.Project.Resolver
import RenderLoop.Settings.Basic

/-!
# Discovering sources

Which files of a project are analysed. A file that is named outright is taken
if it is a source. In a directory, files are selected by path patterns; links
and files that a wildcard excludes are left out. A path that may not be looked
at ends the search for its pattern, and what was found before it stays.

Of the files found, those are kept that are not too large and look as if they
had to do with components.
-/

namespace RenderLoop

/-- What can go wrong when sources are looked for. -/
inductive DiscoveryError where
  | settings (error : SettingsError)
  | glob (error : GlobError)
  | badPath (error : PathError)
  deriving Inhabited

def DiscoveryError.message : DiscoveryError → String
  | settings e => e.message
  | glob e => e.message
  | badPath e => e.message

/-- Where sources are looked for. -/
structure SourcePatterns where
  included : List String
  excluded : List String
  /-- The size in bytes above which a file is left out; zero stands for none. -/
  maxSize : Int
  deriving DecidableEq, Repr, Inhabited

namespace SourcePatterns

def defaultInclude : List String := sourceExtensions.map ("**/*" ++ ·)

def defaultExclude : List String :=
  ["**/node_modules/**", "**/.git/**", "**/dist/**", "**/build/**",
    "**/.next/**", "**/.expo/**", "**/.nuxt/**", "**/.cache/**"]

def defaultMaxSize : Int := 1024 * 1024

/-- A pattern with slashes between its names. -/
def withSlashes (pattern : String) : String :=
  pattern.map fun c => if c == '\\' then '/' else c

/-- The greatest size that is set. -/
def maxSizeOf (s : Settings) : Except SettingsError Int :=
  match s.get? "max_file_size" with
  | none => .ok defaultMaxSize
  | some .null => .ok 0
  | some v =>
    match v.integer? with
    | some i => .ok i
    | none => .error (.wrongKind "max_file_size")

/-- What the settings say about where to look; a greatest size that is asked
for wins. -/
def ofSettings (s : Settings) (maxSize : Option Int) :
    Except SettingsError SourcePatterns := do
  let included ← s.texts "include_globs" defaultInclude
  let excluded ← s.texts "exclude_globs" defaultExclude
  let limit ←
    match maxSize with
    | some i => pure i
    | none => maxSizeOf s
  return ⟨included.map withSlashes, excluded.map withSlashes, limit⟩

/-- The wildcards that a pattern for exclusion stands for. Stars in front also
match nothing. -/
def exclusions (pattern : String) : List Wildcard :=
  .ofString pattern ::
    if pattern.startsWith "**/" then [.ofChars (pattern.toList.drop 3)] else []

/-- A path below a directory is excluded. -/
def excludes (s : SourcePatterns) (path : Path) : Bool :=
  s.excluded.any fun pattern => (exclusions pattern).any fun w =>
    w.accepts path.text

end SourcePatterns

namespace Discovery

/-- The endings of files that hold components. -/
def componentSuffixes : List String := [".tsx", ".jsx"]

/-- What a source that has to do with components mentions. -/
def markers : List String :=
  ["react", "React", "useState", "useEffect", "useLayoutEffect", "useMemo",
    "useCallback", "</", "/>"]

/-- How many bytes of a file are looked at. -/
def headSize : Nat := 2048

/-- The beginning of a file mentions components. -/
def mentionsComponents (f : StoredFile) : Bool :=
  let head := knownChars (f.bytes.extract 0 headSize)
  markers.any fun m => occursIn m.toList head

/-- A file is worth an analysis. -/
def isLikely (fs : FileSystem) (maxSize : Int) (path : Path) : Bool :=
  match fs.file? path with
  | none => false
  | some f =>
    (maxSize == 0 || (f.bytes.size : Int) ≤ maxSize)
      && (componentSuffixes.contains path.suffix || mentionsComponents f)

/-- A path that was selected in a directory is that of a file to be taken. -/
def isWanted (fs : FileSystem) (s : SourcePatterns) (directory p : Path) :
    Except PathError Bool := do
  if fs.isLink p then return false
  else return (← fs.isFile p) && !(p.relativeTo? directory).all s.excludes

/-- The files among paths that were selected in a directory, up to the first
path that may not be looked at. -/
def wantedAmong (fs : FileSystem) (s : SourcePatterns) (directory : Path) :
    List Path → Except PathError (List Path)
  | [] => .ok []
  | p :: rest =>
    match isWanted fs s directory p with
    | .error .denied => .ok []
    | .error e => .error e
    | .ok false => wantedAmong fs s directory rest
    | .ok true =>
      do return (← fs.resolve p) :: (← wantedAmong fs s directory rest)

/-- The files in a directory that a pattern selects. -/
def selected (fs : FileSystem) (s : SourcePatterns) (directory : Path)
    (pattern : String) :
    Except DiscoveryError (List Path) := do
  let glob ← (Glob.ofString pattern).mapError .glob
  (wantedAmong fs s directory (fs.select glob directory)).mapError .badPath

/-- The candidates that a target stands for. -/
def candidates (fs : FileSystem) (s : SourcePatterns) (target : Path) :
    Except DiscoveryError (List Path) := do
  let target ← (fs.resolve target).mapError .badPath
  if ← (fs.isFile target).mapError .badPath then
    return if sourceSuffixes.contains target.suffix then [target] else []
  else if ← (fs.isDirectory target).mapError .badPath then
    return (← s.included.mapM (selected fs s target)).flatten
  else return []

/-- The sources that targets stand for, each once, in order. -/
def sources (fs : FileSystem) (settings : Settings) (maxSize : Option Int)
    (targets : List Path) :
    Except DiscoveryError (List Path) := do
  let s ← (SourcePatterns.ofSettings settings maxSize).mapError .settings
  let found ← targets.mapM (candidates fs s)
  return (found.flatten.eraseDups.filter (isLikely fs s.maxSize)).mergeSort
    Path.le

end Discovery

end RenderLoop
