import RenderLoop.Settings.Preset

/-!
# Options from settings

The options of a run are put together from four sources, each of which wins
over the one before: the defaults, the presets of the libraries in use, the
settings of the project and what the caller asks for.
-/

namespace RenderLoop

/-- Options that a caller sets outright. -/
structure OptionChanges where
  stableHooks : Option (List String) := none
  unstableHooks : Option (List String) := none
  stablePatterns : Option (List String) := none
  unstablePatterns : Option (List String) := none
  overrides : Option (Table Override) := none
  setterPattern : Option String := none
  customHookPattern : Option String := none
  updaterPattern : Option String := none
  maxImportClosure : Option Int := none
  root : Option Path := none
  compilerConfig : Option Path := none
  checkers : CheckerSources := {}

instance : Inhabited OptionChanges := ⟨{}⟩

/-- What a caller asks for. -/
structure OptionArguments where
  usePresets : Option Bool := none
  debug : Bool := false
  strict : Bool := false
  /-- The compiler configuration, as written; an empty one stands for none. -/
  compilerConfig : Option String := none
  warnOnIndexKey : Option Bool := none
  changes : OptionChanges := {}

instance : Inhabited OptionArguments := ⟨{}⟩

/-- The options of a run and the paths it works with. -/
structure RunOptions where
  options : Options
  root : Path
  compilerConfig : Option Path := none
  deriving Inhabited

namespace Settings

/-- The hooks that presets tell of, if they are wanted. -/
def presetHooks (fs : FileSystem) (s : Settings) (usePresets : Option Bool) :
    Except SettingsError KnownHooks := do
  if usePresets.getD (s.isOn "presets" true) then
    return Preset.merge (← Preset.ofProject fs s.root)
  else return {}

/-- What the settings say about functions. -/
def overrides (s : Settings) : Except SettingsError (Table Override) :=
  match s.get? "custom_functions" with
  | none => .ok []
  | some (.table entries) => entries.mapM fun (name, v) =>
    match v with
    | .table _ => .ok (name, .ofValue v)
    | _ => .error (.withoutMembers "custom_functions")
  | some _ => .error (.withoutMembers "custom_functions")

/-- The compiler configuration: the one asked for, or else the one that is
set. -/
def chosenConfig (s : Settings) :
    Option String → Except SettingsError (Option Path)
  | some written =>
    .ok (if written == "" then none else some (.ofString written))
  | none => s.path? "tsconfig"

/-- How many files the import closure may add, if the entry is a number. -/
def closureLimit? (s : Settings) : Option Int :=
  match s.get? "max_import_closure" with
  | none => some ({} : OptionSettings).maxImportClosure
  | some v => v.integer?

/-- The options of a run. Hook patterns are looked at before the limit of the
closure. -/
def runOptions (re : PatternCompiler) (fs : FileSystem) (s : Settings)
    (args : OptionArguments) : Except SettingsError RunOptions := do
  let known ← s.presetHooks fs args.usePresets
  let stable ← s.texts "stable_hooks" []
  let unstable ← s.texts "unstable_hooks" []
  let stablePatterns ← s.texts "stable_hook_patterns" []
  let functions ← s.overrides
  let compilerConfig ← s.chosenConfig args.compilerConfig
  let unstablePatterns ← s.texts "unstable_hook_patterns" []
  let names : NamePatterns := {}
  let changes := args.changes
  let limit := changes.maxImportClosure <|> s.closureLimit?
  let wanted : OptionSettings := {
    stableHooks := changes.stableHooks.getD (known.stable ++ stable)
    unstableHooks := changes.unstableHooks.getD (known.unstable ++ unstable)
    stablePatterns := changes.stablePatterns.getD
      (known.stablePatterns ++ stablePatterns)
    unstablePatterns := changes.unstablePatterns.getD unstablePatterns
    overrides := changes.overrides.getD functions
    debug := args.debug
    strict := args.strict
    warnOnIndexKey := args.warnOnIndexKey.getD
      (s.isOn "warn_on_index_key" false)
    names := {
      setter := changes.setterPattern.getD names.setter
      customHook := changes.customHookPattern.getD names.customHook
      updater := changes.updaterPattern.getD names.updater }
    maxImportClosure := limit.getD 0
    checkers := changes.checkers }
  let options ← (wanted.build re).mapError .unusable
  if limit.isNone then .error (.wrongKind "max_import_closure")
  else
    return {
      options := options
      root := changes.root.getD s.root
      compilerConfig := changes.compilerConfig <|> compilerConfig }

end Settings

end RenderLoop
