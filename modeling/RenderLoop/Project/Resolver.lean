import RenderLoop.Files.Document

/-!
# Resolving imports

An import names a module by a specifier. `Resolver.resolve` turns it into the
path of a source file: relative and absolute specifiers stand for themselves,
all others go through the path aliases and the base directory of the project's
compiler options. A specifier of a package resolves to nothing.

Compiler options come from a chain of configuration files, each of which may
extend another. The nearest file that sets an option decides.

Wherever files are looked for the system may refuse to answer, and nothing
here takes a refusal for an absence: it ends the search with an error.
-/

namespace RenderLoop

/-- What can go wrong when paths of a project are worked out. -/
inductive ProjectError where
  /-- The root was taken for a file. -/
  | emptyName (path : Path)
  /-- A path cannot be resolved or looked at. -/
  | badPath (error : PathError)
  /-- A configuration is nested too deep to be read. -/
  | tooDeep (config : Path)
  /-- An alias target that is not a text. -/
  | malformedTarget
  /-- Compiler options without the members of a table. -/
  | optionsWithoutMembers
  /-- Compiler options in which no name can be looked up, or a base directory
  that is not a text. -/
  | malformedOptions
  deriving DecidableEq, Repr, Inhabited

def ProjectError.message : ProjectError → String
  | emptyName path => path.quoted ++ " has an empty name"
  | badPath error => error.message
  | tooDeep config => config.text ++ " is nested too deep"
  | malformedTarget => "path targets must be strings"
  | optionsWithoutMembers => "compilerOptions must be a table"
  | malformedOptions => "compilerOptions must be a table with a baseUrl string"

/-- The path free of links, as part of a project. -/
def FileSystem.realPath (fs : FileSystem) (p : Path) :
    Except ProjectError Path :=
  (fs.resolve p).mapError .badPath

/-- The endings under which a module is looked for, in this order. -/
def sourceExtensions : List String :=
  [".tsx", ".ts", ".jsx", ".js", ".mjs", ".cjs"]

/-- The endings of sources. -/
def sourceSuffixes : List String := sourceExtensions ++ [".mts", ".cts"]

/-- The endings of the sources from which a file with the given ending may
have been compiled. -/
def compiledFrom : String → List String
  | ".js" => [".ts", ".tsx"]
  | ".jsx" => [".tsx"]
  | ".mjs" => [".mts"]
  | ".cjs" => [".cts"]
  | _ => []

/-- The names of compiler configurations, the preferred one first. -/
def compilerConfigNames : List String := ["tsconfig.json", "jsconfig.json"]

/-- The nearest compiler configuration at a path or above. -/
def FileSystem.compilerConfig? (fs : FileSystem) (start : Path) :
    Except ProjectError (Option Path) := do
  let here ← (fs.directoryOf (← fs.realPath start)).mapError .badPath
  let candidates := here.andAbove.flatMap fun d =>
    compilerConfigNames.map d.child
  (fs.firstFile candidates).mapError .badPath

/-- How import specifiers are resolved in a project. -/
structure Resolver where
  files : FileSystem
  baseUrl : Option Path := none
  /-- Targets by pattern, as written. -/
  aliases : Table (List Value) := []
  /-- The directory of the configuration that sets the aliases. -/
  aliasBase : Option Path := none
  deriving Inhabited

namespace Resolver

/-! ### Compiler options -/

/-- The longest chain of configurations. -/
def maxChain : Nat := 5

/-- The configuration that another extends, if it names a file. -/
def extended? (fs : FileSystem) (config : Path) (data : Table Value) :
    Except ProjectError (Option Path) :=
  match data.get? "extends" with
  | some (.text written) =>
    if written.startsWith "." then do
      let target ← fs.realPath (config.parent.child written)
      if target.suffix == ".json" then return some target
      else
        match target.withName? (target.name ++ ".json") with
        | some p => return some p
        | none => .error (.emptyName target)
    else .ok none
  | _ => .ok none

/-- The options of a configuration; anything that counts as absent is an empty
table. -/
def optionsOf (data : Table Value) : Value :=
  match data.get? "compilerOptions" with
  | some v => if v.isTruthy then v else .table []
  | none => .table []

/-- What a configuration holds, if there is one that can be read. -/
def data? (fs : FileSystem) (config : Path) :
    Except ProjectError (Option (Table Value)) := do
  if ← (fs.isFile config).mapError .badPath then
    (fs.document? Jsonc.read config).mapError .tooDeep
  else return none

/-- The configurations met from one, nearest first, at most `length` of them. -/
def chain (fs : FileSystem) :
    (length : Nat) → Path → Except ProjectError (List (Path × Value))
  | 0, _ => .ok []
  | length + 1, config => do
    match ← data? fs config with
    | none => return []
    | some data =>
      match ← extended? fs config data with
      | none => return [(config, optionsOf data)]
      | some next => return (config, optionsOf data) :: (← chain fs length next)

/-- The lists of targets among the entries of a table. -/
def targetsOf (entries : Table Value) : Table (List Value) :=
  entries.filterMap fun (pattern, v) => v.asList?.map fun targets =>
    (pattern, targets)

/-- Takes over what one configuration sets. -/
def withOptions (r : Resolver) (config : Path) :
    Value → Except ProjectError Resolver
  | .table options => do
    let baseUrl ←
      match Table.get? options "baseUrl" with
      | none => pure r.baseUrl
      | some (.text written) =>
        some <$> r.files.realPath (config.parent.child written)
      | some _ => .error .malformedOptions
    match Table.get? options "paths" with
    | some (.table entries) =>
      return { r with
        baseUrl, aliases := targetsOf entries, aliasBase := some config.parent }
    | _ => return { r with baseUrl }
  | .list items =>
    .error (if items.any (·.agrees (.text "baseUrl")) then .malformedOptions
      else .optionsWithoutMembers)
  | .text s =>
    .error (if (s.splitOn "baseUrl").length > 1 then .malformedOptions
      else .optionsWithoutMembers)
  | _ => .error .malformedOptions

/-- The resolver with the options of a configuration and of those it extends. -/
def ofConfig (fs : FileSystem) (config : Path) :
    Except ProjectError Resolver := do
  let configs ← chain fs maxChain (← fs.realPath config)
  configs.reverse.foldlM (fun r (path, options) => r.withOptions path options)
    { files := fs }

/-- The resolver of a project: with the given configuration, or else the
nearest to its root. -/
def ofProject (fs : FileSystem) (root config : Option Path) :
    Except ProjectError Resolver := do
  let root ← root.mapM fs.realPath
  let config ←
    match config, root with
    | some c, _ => pure (some c)
    | none, some r => fs.compilerConfig? r
    | none, none => pure none
  match config with
  | some c => ofConfig fs c
  | none => return { files := fs }

/-! ### Aliases -/

/-- A pattern in its parts before and behind the first star. -/
def splitPattern? (pattern : String) : Option (List Char × List Char) :=
  let cs := pattern.toList
  match cs.dropWhile (· != '*') with
  | [] => none
  | _ :: behind => some (cs.takeWhile (· != '*'), behind)

/-- What the star of a pattern stands for in a specifier, with the length of
the part before it. -/
def starMatch? (pattern specifier : String) : Option (Nat × List Char) := do
  let (front, behind) ← splitPattern? pattern
  let cs := specifier.toList
  if front.isPrefixOf cs && behind.isSuffixOf cs then
    some (front.length, (cs.take (cs.length - behind.length)).drop front.length)
  else none

/-- Of two matches the one whose pattern has more before its star; the earlier
of equals. -/
def longer (a b : Option (Nat × List Char × List Value)) :
    Option (Nat × List Char × List Value) :=
  match a, b with
  | some x, some y => if x.1 < y.1 then some y else some x
  | some x, none => some x
  | none, b => b

/-- The targets that a specifier is an alias of, with what stands for their
stars. A pattern without star that is the specifier itself comes before all
others. -/
def aliasTargets? (aliases : Table (List Value)) (specifier : String) :
    Option (List Char × List Value) :=
  match aliases.find? fun (pattern, _) => !pattern.contains '*' && pattern ==
    specifier with
  | some (_, targets) => some ([], targets)
  | none =>
    (aliases.foldl (fun best (pattern, targets) =>
      longer best ((starMatch? pattern specifier).map fun (n, m) =>
        (n, m, targets))) none).map (·.2)

/-- A target with its stars filled in. -/
def fillStars (target : String) (filling : List Char) : String :=
  String.ofList (target.toList.flatMap fun c => if c == '*' then
    filling else [c])

/-- The paths an alias stands for. -/
def aliasCandidates (r : Resolver) (specifier : String) :
    Except ProjectError (List Path) :=
  match r.baseUrl.or r.aliasBase, aliasTargets? r.aliases specifier with
  | some base, some (filling, targets) =>
    targets.mapM fun
      | .text target => .ok (base.child (fillStars target filling))
      | _ => .error .malformedTarget
  | _, _ => .ok []

/-! ### Source files -/

/-- The files a candidate may stand for by its name, in the order in which
they are looked for. -/
def filesFor (candidate : Path) : List Path :=
  (if sourceSuffixes.contains candidate.suffix then [candidate] else []) ++
    (compiledFrom candidate.suffix).filterMap candidate.withSuffix? ++
    sourceExtensions.filterMap fun e =>
      candidate.withName? (candidate.name ++ e)

/-- The files a candidate may stand for if it is a directory. -/
def indexFiles (candidate : Path) : List Path :=
  sourceExtensions.map fun e => candidate.child ("index" ++ e)

/-- The file a candidate stands for, as it is named. -/
def found (r : Resolver) (candidate : Path) :
    Except PathError (Option Path) := do
  match ← r.files.firstFile (filesFor candidate) with
  | some p => return some p
  | none =>
    if ← r.files.isDirectory candidate then
      r.files.firstFile (indexFiles candidate)
    else return none

/-- The source file a candidate stands for. -/
def probe (r : Resolver) (candidate : Path) :
    Except ProjectError (Option Path) := do
  if candidate.name == "" then .error (.emptyName candidate)
  else (← (r.found candidate).mapError .badPath).mapM r.files.realPath

/-- The first of several candidates that stands for a source file. -/
def probeFirst (r : Resolver) (candidates : List Path) :
    Except ProjectError (Option Path) :=
  candidates.findSomeM? r.probe

/-- The source file that a specifier in the given file names. -/
def resolve (r : Resolver) (fromFile : Path) (specifier : String) :
    Except ProjectError (Option Path) :=
  if specifier == "" then .ok none
  else if specifier.startsWith "." then do
    r.probe ((← r.files.realPath fromFile).parent.child specifier)
  else if specifier.startsWith "/" then r.probe (.ofString specifier)
  else do
    match ← r.probeFirst (← r.aliasCandidates specifier) with
    | some p => return some p
    | none =>
      match r.baseUrl with
      | some base => r.probe (base.child specifier)
      | none => return none

end Resolver

end RenderLoop
