import RenderLoop.Settings.Basic
import RenderLoop.Files.Document

/-!
# Library presets

Hooks of widely used libraries that are known to return the same reference on
every render. The presets of a project are those of the libraries its package
description depends on.
-/

namespace RenderLoop

/-- Hooks whose results are known. -/
structure KnownHooks where
  stable : List String := []
  unstable : List String := []
  /-- Spellings of stable hooks, as regular expressions. -/
  stablePatterns : List String := []
  deriving DecidableEq, Repr, Inhabited

/-- What is known about the hooks of a package. -/
structure Preset where
  package : String
  hooks : KnownHooks
  deriving DecidableEq, Repr, Inhabited

namespace Preset

/-- The hooks of the web routers, which share them. -/
def routerHooks : KnownHooks where
  stable := ["useNavigate", "useParams", "useLocation", "useSearchParams",
    "useMatch", "useNavigation"]

/-- The presets. -/
def all : List Preset := [
  ⟨"zustand", { stable := ["useStore", "useShallow"], stablePatterns :=
    [Pattern.storeHookName] }⟩,
  ⟨"expo-router", {
    stable := ["useRouter", "useLocalSearchParams", "useGlobalSearchParams",
      "useSegments", "usePathname", "useNavigation",
      "useRootNavigationState"] }⟩,
  ⟨"react-router", routerHooks⟩,
  ⟨"react-router-dom", routerHooks⟩,
  ⟨"@tanstack/react-query", {
    stable := ["useQueryClient", "useQuery", "useInfiniteQuery",
      "useSuspenseQuery"] }⟩,
  ⟨"react-redux", { stable := ["useDispatch", "useSelector", "useStore"] }⟩,
  ⟨"react-i18next", { stable := ["useTranslation"] }⟩,
  ⟨"@react-navigation/native", {
    stable := ["useNavigation", "useRoute", "useIsFocused", "useTheme",
      "useNavigationState"] }⟩,
  ⟨"jotai", { stable := ["useAtom", "useAtomValue", "useSetAtom"] }⟩]

/-- The preset of a package. -/
def find? (package : String) : Option Preset := all.find? (·.package == package)

/-- The hooks of some presets together, each once. -/
def merge (presets : List Preset) : KnownHooks where
  stable := (presets.flatMap (·.hooks.stable)).eraseDups
  unstable := (presets.flatMap (·.hooks.unstable)).eraseDups
  stablePatterns := (presets.flatMap (·.hooks.stablePatterns)).eraseDups

/-- The sections of a package description that name dependencies. -/
def dependencySections : List String :=
  ["dependencies", "devDependencies", "peerDependencies"]

/-- The packages that a description depends on, in order of name. -/
def dependenciesOf (description : Table Value) : List String :=
  sortedUnique <| dependencySections.flatMap fun name =>
    match description.get? name with
    | some (.table packages) => packages.map (·.1)
    | _ => []

/-- A directory has a package description and does not belong to the installed
packages. -/
def isDescribed (fs : FileSystem) (directory : Path) :
    Except PathError Bool := do
  return (← fs.isFile (directory.child "package.json")) &&
    !directory.names.contains "node_modules"

/-- The nearest package description at a path or above, outside the installed
packages. -/
def description? (fs : FileSystem) (start : Path) :
    Except PathError (Option Path) := do
  let here ← fs.directoryOf (← fs.resolve start)
  let nearest ← here.andAbove.findM? (isDescribed fs)
  return nearest.map (·.child "package.json")

/-- What a package description holds, if it can be read. -/
def content? (fs : FileSystem) (file : Path) : Except Path (Option Value) :=
  fs.document? (fun depth text => Json.read depth text.toList) file

/-- The presets of the packages a project depends on. A description that
cannot be read has none. -/
def ofProject (fs : FileSystem) (start : Path) :
    Except SettingsError (List Preset) := do
  match ← (description? fs start).mapError .badPath with
  | none => return []
  | some file =>
    match ← (content? fs file).mapError .tooDeep with
    | none => return []
    | some (.table description) =>
      return (dependenciesOf description).filterMap find?
    | some _ => .error (.packageNotTable file)

end Preset

end RenderLoop
