import RenderLoop.Settings.Basic

/-!
# Valid settings

Which entries a settings file may have. `Settings.complaint?` looks at the
entries kind by kind and gives the first thing wrong; entries of unknown names
are left alone, and so are entries without a value.
-/

namespace RenderLoop

namespace Settings

/-- The entries that hold texts. -/
def textLists : List String :=
  ["include_globs", "exclude_globs", "stable_hooks", "unstable_hooks",
    "stable_hook_patterns", "unstable_hook_patterns"]

/-- The entries that are on or off. -/
def switches : List String :=
  ["presets", "include_potential_issues", "warn_on_index_key",
    "strict", "parallel"]

/-- The entries that count something. -/
def counts : List String :=
  ["max_workers", "parallel_threshold", "max_file_size", "max_import_closure"]

/-- The entries that name a level. -/
def levels : List String := ["min_severity", "min_confidence"]

/-- The value under a name, unless there is none to speak of. -/
def given? (entries : Table Value) (name : String) : Option Value :=
  match entries.get? name with
  | some .null => none
  | v => v

def isTexts : Value → Bool
  | .list items => items.all fun v => v.asText?.isSome
  | _ => false

def isSwitch (v : Value) : Bool := v.asBool?.isSome

def isCount : Value → Bool
  | .int i => 0 ≤ i
  | _ => false

def isLevel : Value → Bool
  | .text s => ["low", "medium", "high"].contains s
  | _ => false

def isPath (v : Value) : Bool := v.asText?.isSome

/-- A rule is off or has a severity. -/
def isRule (v : Value) : Bool := isLevel v || v.agrees (.text "off")

/-- What may be said about a function: whether it is stable and whether it is
deferred. -/
def isOverride : Value → Bool
  | .table entries =>
    entries.all fun (name, v) =>
      ["stable", "deferred"].contains name && isSwitch v
  | _ => false

/-- The first of some names whose value is given and not as it should be. -/
def firstBad? (entries : Table Value) (names : List String)
    (good : Value → Bool) (complain : String → Complaint) : Option Complaint :=
  (names.find? fun name => (given? entries name).any fun v => !good v).map
    complain

/-- The first entry of a table, if it is one, that is not as it should be. -/
def firstBadEntry? (entries : Table Value) (name : String) (good : Value → Bool)
    (complain : String → Value → Complaint) : Option Complaint :=
  match entries.get? name with
  | none => none
  | some (.table inner) =>
    (inner.find? fun (_, v) => !good v).map fun (key, v) => complain key v
  | some _ => some (.notTable name)

/-- The first thing wrong with the entries of a settings file. -/
def complaint? (entries : Table Value) : Option Complaint :=
  firstBad? entries textLists isTexts .notTexts
    <|> firstBad? entries switches isSwitch .notSwitch
    <|> firstBad? entries counts isCount .notCount
    <|> firstBad? entries levels isLevel .notLevel
    <|> firstBadEntry? entries "rules" isRule .badRule
    <|> firstBadEntry? entries "custom_functions" isOverride
      (fun name _ => .badFunction name)
    <|> firstBad? entries ["tsconfig"] isPath .notPath

/-- The entries of a settings file, if nothing is wrong with them. -/
def validate (source : String) (entries : Table Value) :
    Except SettingsError (Table Value) :=
  match complaint? entries with
  | some c => .error (.rejected source c)
  | none => .ok entries

end Settings

end RenderLoop
