import RenderLoop.Files.Basic
import RenderLoop.Options.Basic

/-!
# Settings

The settings of a project are the entries of a settings file, kept as written,
together with the directory that holds the file. A project without such a file
has none, and its root is where the search for one began.

`SettingsError` lists what can go wrong between a settings file and the
options of a run. Some of it is a complaint about how the settings are
written, which callers report as such.
-/

namespace RenderLoop

/-- What is wrong with an entry. -/
inductive Complaint where
  | notTexts (name : String)
  | notSwitch (name : String)
  | notCount (name : String)
  | notLevel (name : String)
  | notTable (name : String)
  /-- A rule that is neither switched off nor given a severity. -/
  | badRule (code : String) (written : Value)
  | badFunction (name : String)
  | notPath (name : String)
  deriving Inhabited

def Complaint.message : Complaint → String
  | notTexts name => "'" ++ name ++ "' must be a list of strings"
  | notSwitch name => "'" ++ name ++ "' must be true or false"
  | notCount name => "'" ++ name ++ "' must be a non-negative integer"
  | notLevel name => "'" ++ name ++ "' must be one of low, medium, high"
  | notTable name => "'" ++ name ++ "' must be a table"
  | badRule code written =>
    "rule '" ++ code ++ "' must be 'off' or a severity, got " ++
      Quoted.value written
  | badFunction name =>
    "custom function '" ++ name ++ "' takes only boolean 'stable'/'deferred'"
  | notPath name => "'" ++ name ++ "' must be a path string"

/-- What can go wrong with the settings of a project. -/
inductive SettingsError where
  /-- An entry of a settings file is refused. -/
  | rejected (source : String) (complaint : Complaint)
  | unparsable (file : Path)
  /-- The section for this program is not a table. -/
  | sectionNotTable (file : Path)
  /-- The options cannot be built from the settings. -/
  | unusable (error : OptionsError)
  /-- The file is not a text. -/
  | undecodable (file : Path)
  /-- The sections of a shared settings file are not a table. -/
  | toolsNotTable (file : Path)
  /-- The description of the package is not a table. -/
  | packageNotTable (file : Path)
  /-- An entry that should have members has none. -/
  | withoutMembers (name : String)
  /-- An entry is of a kind that cannot be used at all. -/
  | wrongKind (name : String)
  /-- A path cannot be resolved or looked at. -/
  | badPath (error : PathError)
  /-- A document is nested too deep to be read. -/
  | tooDeep (file : Path)
  deriving Inhabited

namespace SettingsError

/-- The error is a complaint about how the settings are written. -/
def isComplaint : SettingsError → Bool
  | rejected .. | unparsable _ | sectionNotTable _ => true
  | unusable error => error.isComplaint
  | _ => false

def message : SettingsError → String
  | rejected source complaint => source ++ ": " ++ complaint.message
  | unparsable file => "Error parsing " ++ file.text
  | sectionNotTable file =>
    "[tool.hookloop] in " ++ file.text ++ " is not a table"
  | unusable error => error.message
  | undecodable file => file.text ++ " is not valid UTF-8"
  | toolsNotTable file => "'tool' in " ++ file.text ++ " is not a table"
  | packageNotTable file => file.text ++ " is not a table"
  | withoutMembers name => "'" ++ name ++ "' has no members"
  | wrongKind name => "'" ++ name ++ "' is of the wrong kind"
  | badPath error => error.message
  | tooDeep file => file.text ++ " is nested too deep"

end SettingsError

/-- The settings of a project, as written. -/
structure Settings where
  /-- The directory the settings belong to. -/
  root : Path
  entries : Table Value := []
  /-- The file they come from. -/
  source : Option Path := none
  deriving Inhabited

/-- A setting was asked for that is not there. -/
structure MissingSetting where
  name : String
  source : String
  deriving DecidableEq, Repr, Inhabited

def MissingSetting.message (e : MissingSetting) : String :=
  "Required configuration key '" ++ e.name ++ "' not found in " ++
    e.source ++ "."

namespace Settings

/-- The name of a settings file. -/
def fileName : String := "hookloop.toml"

/-- The name of a settings file that is shared with other tools. -/
def sharedFileName : String := "pyproject.toml"

/-- The section of a shared settings file. -/
def sectionName : String := "hookloop"

def get? (s : Settings) (name : String) : Option Value := s.entries.get? name

def contains (s : Settings) (name : String) : Bool := s.entries.contains name

/-- The setting of a name, which has to be there. -/
def require (s : Settings) (name : String) : Except MissingSetting Value :=
  match s.get? name with
  | some v => .ok v
  | none => .error ⟨name, (s.source.map Path.text).getD fileName⟩

/-- Something is set. -/
def isPresent (s : Settings) : Bool := !s.entries.isEmpty

/-! ### Entries of a kind -/

/-- The texts under a name. -/
def texts (s : Settings) (name : String) (default : List String) :
    Except SettingsError (List String) :=
  match s.get? name with
  | none => .ok default
  | some (.list items) =>
    match items.mapM Value.asText? with
    | some names => .ok names
    | none => .error (.wrongKind name)
  | some _ => .error (.wrongKind name)

/-- The path under a name, seen from the root; an empty one counts as absent. -/
def path? (s : Settings) (name : String) : Except SettingsError (Option Path) :=
  match s.get? name with
  | none => .ok none
  | some (.text written) =>
    .ok (if written == "" then none else some (s.root.child written))
  | some v => if v.isTruthy then .error (.wrongKind name) else .ok none

/-- Whether a switch is on. -/
def isOn (s : Settings) (name : String) (default : Bool) : Bool :=
  ((s.get? name).getD (.bool default)).isTruthy

end Settings

end RenderLoop
