import RenderLoop.Files.Basic
import RenderLoop.Text.Wildcard

/-!
# Path patterns

A path pattern selects paths below a directory, name by name. A double star
stands for the directory and all those below it, links not followed; a name
without wildcards is looked up, through links too; any other name is a
wildcard for the names in a directory. Hidden names are like all others.
-/

namespace RenderLoop

/-- What is wrong with a path pattern. -/
inductive GlobError where
  | empty
  | absolute
  /-- A double star is only part of a name. -/
  | misplacedStars
  /-- The pattern names nothing. -/
  | nameless
  /-- The pattern names nothing and ends like the name of a directory. -/
  | namelessDirectory
  deriving DecidableEq, Repr, Inhabited

def GlobError.message : GlobError → String
  | empty => "Unacceptable pattern: ''"
  | absolute => "Non-relative patterns are unsupported"
  | misplacedStars =>
    "Invalid pattern: '**' can only be an entire path component"
  | nameless => "The pattern has no path component"
  | namelessDirectory => "The pattern has no path component"

/-- One name of a path pattern. -/
inductive GlobStep where
  /-- The directory and all below it. -/
  | deep
  | exactly (name : String)
  | wild (pattern : Wildcard)
  deriving DecidableEq, Repr, Inhabited

/-- A path pattern. -/
structure Glob where
  steps : List GlobStep
  /-- Only directories are selected. -/
  directoriesOnly : Bool := false
  deriving DecidableEq, Repr, Inhabited

namespace Glob

/-! ### Reading -/

/-- The step that a name stands for. -/
def stepOf (name : String) : Except GlobError GlobStep :=
  if name == "**" then .ok .deep
  else if occursIn ['*', '*'] name.toList then .error .misplacedStars
  else if Wildcard.isPattern name then .ok (.wild (.ofString name))
  else .ok (.exactly name)

/-- The steps of a pattern below a directory. -/
def stepsOf (pattern : String) : Except GlobError Glob := do
  if Path.anchorOf pattern.toList ≠ .current then .error .absolute
  else
    return { steps := ← (Path.namesOf pattern).mapM stepOf, directoriesOnly :=
      pattern.endsWith "/" }

/-- Reads a pattern. One that starts with a double star selects at any depth,
the directory itself included; any other has to name something. -/
def ofString (pattern : String) : Except GlobError Glob := do
  if pattern.startsWith "**/" then
    let rest ← stepsOf (String.ofList (pattern.toList.drop 3))
    return { rest with steps := .deep :: rest.steps }
  else if pattern == "" then .error .empty
  else
    let glob ← stepsOf pattern
    if glob.steps.isEmpty then
      .error (if glob.directoriesOnly then .namelessDirectory else .nameless)
    else return glob

end Glob

/-! ### Selecting -/

namespace FileSystem

/-- The names in the directory a path leads to. -/
def list (fs : FileSystem) (directory : Path) : List String :=
  match fs.find? directory with
  | some (place, .directory) => fs.namesIn place
  | _ => []

/-- The directories in a directory that are not links, `depth` levels down. -/
def directoriesBelow (fs : FileSystem) : (depth : Nat) → Path → List Path
  | 0, p => [p]
  | depth + 1, p =>
    p :: (fs.list p).flatMap fun name =>
      let q : Path := ⟨p.anchor, p.names ++ [name]⟩
      if fs.seesDirectory q && !fs.isLink q then fs.directoriesBelow depth q
      else []

/-- How deep the items lie. -/
def depth (fs : FileSystem) : Nat := (fs.items.map (·.1.length)).foldl max 0

/-- A directory and all those below it. -/
def allDirectories (fs : FileSystem) (p : Path) : List Path :=
  fs.directoriesBelow fs.depth p

/-- The paths that the steps of a pattern select below a directory. -/
def follow (fs : FileSystem) (directoriesOnly : Bool) :
    List GlobStep → Path → List Path
  | [], p => [p]
  | .deep :: more, p =>
    (fs.allDirectories p).flatMap (follow fs directoriesOnly more)
  | .exactly name :: more, p =>
    let q : Path := ⟨p.anchor, p.names ++ [name]⟩
    if fs.seesDirectory q || (more.isEmpty && !directoriesOnly && fs.contains q)
      then
      follow fs directoriesOnly more q
    else []
  | .wild pattern :: more, p =>
    let matching := (fs.list p).filter fun name => pattern.accepts name
    (matching.map fun name => (⟨p.anchor, p.names ++ [name]⟩ : Path)).flatMap
      fun q =>
      if fs.seesDirectory q || (more.isEmpty && !directoriesOnly) then
        follow fs directoriesOnly more q
      else []

/-- The paths below a directory that a pattern selects. -/
def select (fs : FileSystem) (g : Glob) (directory : Path) : List Path :=
  fs.follow g.directoriesOnly g.steps directory

end FileSystem

end RenderLoop
