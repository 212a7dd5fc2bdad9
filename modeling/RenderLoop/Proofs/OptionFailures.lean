import RenderLoop.Settings.Validation
import RenderLoop.Proofs.SettingsOrder

/-!
# How the options can fail to be built

Settings are checked when they are loaded, so nothing should be left to go
wrong with them when the options of a run are built, except a hook pattern
that is badly written. That is a complaint about the settings, and a caller
reports it as such. There are other failures which no caller expects.
`Settings.Strays` lists them:

* the root of the project cannot be resolved, or a path that the search for
  the package description gets to may not be looked at;
* the nearest package description is nested too deep to be read, or it can be
  read and is not a table;
* a list of hooks, or the limit of the import closure, is there without a
  value;
* the first pattern that does not compile is not badly written, but more than
  the compiler can take: it asks for too many rounds or is nested too deep.

Patterns are compiled by any `PatternCompiler`, of which nothing is known
except that it takes the program's own patterns. So what is proved here does
not depend on how much of the language of patterns a compiler knows.

> `runOptions_returns_or_complains`: for settings that pass the check, the
> options are built iff nothing on the list is the case and all patterns
> compile, and there is a complaint iff nothing on the list is the case and
> some pattern does not compile.

The presets come first, then the lists, the patterns and the limit; the proof
follows that order (`presetHooks_cases`, `texts_of_not_fails`,
`runOptions_of_lists`).
-/

namespace RenderLoop

/-! ### Patterns -/

section

variable (re : PatternCompiler)

/-- What is wrong with a written pattern, if anything. -/
def PatternCompiler.fault? (source : String) : Option PatternFault :=
  match re.compile source with
  | .ok _ => none
  | .error e => some e.fault

/-- Patterns compile if there is nothing wrong with them; otherwise the first
fault is reported. -/
theorem compileHookPatterns_cases (sources : List String) :
    (sources.findSome? re.fault? = none ∧
      ∃ compiled, compileHookPatterns re sources = .ok compiled) ∨
      ∃ e, sources.findSome? re.fault? = some e.fault ∧
        compileHookPatterns re sources = .error (.badHookPattern e) := by
  induction sources with
  | nil => exact .inl ⟨rfl, [], rfl⟩
  | cons source rest ih =>
    unfold compileHookPatterns at ih ⊢
    rw [List.mapM_cons, List.findSome?_cons]
    cases hsource : re.compile source with
    | error e =>
      have hfault : re.fault? source = some e.fault := by
        rw [PatternCompiler.fault?, hsource]
      rw [hfault]
      exact .inr ⟨e, rfl, rfl⟩
    | ok p =>
      have hfault : re.fault? source = none := by
        rw [PatternCompiler.fault?, hsource]
      rw [hfault]
      rcases ih with ⟨hnone, compiled, hrest⟩ | ⟨e, he, hrest⟩
      · exact .inl ⟨hnone, p :: compiled,
          bind_eq_ok.2 ⟨p, rfl, bind_eq_ok.2 ⟨compiled, hrest, rfl⟩⟩⟩
      · exact .inr ⟨e, he,
          bind_eq_error.2 (.inr ⟨p, rfl, bind_eq_error.2 (.inl hrest)⟩)⟩

/-- Options with a limit that is not negative fail to be built only by a
pattern. -/
theorem OptionSettings.build_cases (w : OptionSettings)
    (hlimit : 0 ≤ w.maxImportClosure) :
    ((w.stablePatterns ++ w.unstablePatterns).findSome? re.fault? = none ∧
      ∃ o, w.build re = .ok o) ∨
      ∃ e, (w.stablePatterns ++ w.unstablePatterns).findSome? re.fault? =
        some e.fault ∧ w.build re = .error (.badHookPattern e) := by
  rw [List.findSome?_append]
  unfold build
  rcases compileHookPatterns_cases re w.stablePatterns with ⟨hnone, stable,
    hstable⟩ | ⟨e, he, hstable⟩
  · rw [hnone, Option.none_or]
    rcases compileHookPatterns_cases re w.unstablePatterns with
      ⟨hnone, unstable, hunstable⟩ | ⟨e, he, hunstable⟩
    · exact .inl ⟨hnone, _,
        bind_eq_ok.2 ⟨stable, hstable, bind_eq_ok.2 ⟨unstable, hunstable,
        if_neg (Int.not_lt.2 hlimit)⟩⟩⟩
    · exact .inr ⟨e, he,
        bind_eq_error.2 (.inr ⟨stable, hstable,
        bind_eq_error.2 (.inl hunstable)⟩)⟩
  · rw [he, Option.some_or]
    exact .inr ⟨e, rfl, bind_eq_error.2 (.inl hstable)⟩

end

/-! ### Presets -/

namespace Preset

variable {fs : FileSystem} {start : Path}

/-- The search for a package description gets to a path: the start itself, and
the descriptions of the directories above it up to the first that counts. -/
inductive LooksAt (fs : FileSystem) (start : Path) : Path → Prop where
  | start {p : Path} (hresolve : fs.resolve start = .ok p) : LooksAt fs start p
  | description {p here d : Path} {front rest : List Path}
      (hresolve : fs.resolve start = .ok p)
      (hhere : fs.directoryOf p = .ok here)
      (habove : here.andAbove = front ++ d :: rest)
      (hfront : ∀ c ∈ front, isDescribed fs c = .ok false) :
      LooksAt fs start (d.child "package.json")

/-- The presets of a project cannot be told. -/
inductive Misled (fs : FileSystem) (start : Path) : Prop where
  /-- The start runs in circles, or has a name that no file can have. -/
  | unresolved {e : PathError} (h : fs.resolve start = .error e)
  /-- A path on the way may not be looked at. -/
  | refused {q : Path} {e : PathError} (hlooks : LooksAt fs start q)
      (h : fs.look q = .error e)
  /-- The description is nested deeper than the machine can follow. -/
  | tooDeep {file : Path} (hfile : description? fs start = .ok (some file))
      (h : content? fs file = .error file)
  /-- The description is of the wrong kind. -/
  | notTable {file : Path} {v : Value}
      (hfile : description? fs start = .ok (some file))
      (h : content? fs file = .ok (some v)) (hv : v.asTable? = none)

/-- Asking for a description fails only if its path may not be looked at. -/
theorem isDescribed_eq_error {d : Path} {e : PathError} :
    isDescribed fs d = .error e ↔
      fs.look (d.child "package.json") = .error e := by
  unfold isDescribed
  rw [bind_eq_error, FileSystem.isFile_eq_error]
  refine ⟨fun h => h.resolve_right ?_, .inl⟩
  rintro ⟨isFile, -, h⟩
  cases h

/-- And so does asking for the directory to start from. -/
theorem directoryOf_eq_error {p : Path} {e : PathError} :
    fs.directoryOf p = .error e ↔ fs.look p = .error e := by
  unfold FileSystem.directoryOf
  rw [bind_eq_error, FileSystem.isFile_eq_error]
  refine ⟨fun h => h.resolve_right ?_, .inl⟩
  rintro ⟨isFile, -, h⟩
  cases isFile <;> cases h

/-- The search for a description fails at the start, or at the first path that
may not be looked at. -/
theorem description?_eq_error {e : PathError} :
    description? fs start = .error e ↔ fs.resolve start = .error e ∨
    ∃ q, LooksAt fs start q ∧ fs.look q = .error e := by
  unfold description?
  rw [bind_eq_error]
  refine or_congr_right ⟨?_, ?_⟩
  · rintro ⟨p, hresolve, h⟩
    rcases bind_eq_error.1 h with h | ⟨here, hhere, h⟩
    · exact ⟨p, .start hresolve, directoryOf_eq_error.1 h⟩
    · rcases bind_eq_error.1 h with h | ⟨nearest, -, h⟩
      · obtain ⟨front, d, rest, habove, hfront, hd⟩ := findM?_eq_error.1 h
        exact ⟨_, .description hresolve hhere habove hfront,
          isDescribed_eq_error.1 hd⟩
      · cases h
  · rintro ⟨q, hlooks, hlook⟩
    cases hlooks with
    | start hresolve =>
      exact ⟨q, hresolve, bind_eq_error.2 (.inl (directoryOf_eq_error.2 hlook))⟩
    | description hresolve hhere habove hfront =>
      refine ⟨_, hresolve,
        bind_eq_error.2 (.inr ⟨_, hhere, bind_eq_error.2 (.inl ?_)⟩)⟩
      exact findM?_eq_error.2 ⟨_, _, _, habove, hfront,
        isDescribed_eq_error.2 hlook⟩

/-- With a description search that ended well, only what was found can
mislead. -/
theorem not_misled {found : Option Path}
    (hfound : description? fs start = .ok found)
    (hdeep : ∀ file, found = some file →
      ∃ content, content? fs file = .ok content)
    (htable : ∀ file v, found = some file → content? fs file = .ok (some v) →
      v.asTable? ≠ none) :
    ¬ Misled fs start := by
  intro h
  cases h with
  | unresolved h => cases hfound.symm.trans (description?_eq_error.2 (.inl h))
  | refused hlooks h =>
    cases hfound.symm.trans (description?_eq_error.2 (.inr ⟨_, hlooks, h⟩))
  | tooDeep hfile h =>
    obtain ⟨content, hcontent⟩ :=
      hdeep _ (Except.ok.inj (hfound.symm.trans hfile))
    cases hcontent.symm.trans h
  | notTable hfile h hv =>
    exact htable _ _ (Except.ok.inj (hfound.symm.trans hfile)) h hv

/-- The presets of a project are told unless it is misled; the failure is then
no complaint. -/
theorem ofProject_cases (fs : FileSystem) (start : Path) :
    (¬ Misled fs start ∧ ∃ presets, ofProject fs start = .ok presets) ∨
      (Misled fs start ∧ ∃ e, ofProject fs start = .error e ∧
        e.isComplaint = false) := by
  unfold ofProject
  cases hfound : description? fs start with
  | error e =>
    refine .inr ⟨?_, .badPath e, rfl, rfl⟩
    rcases description?_eq_error.1 hfound with h | ⟨q, hlooks, h⟩
    · exact .unresolved h
    · exact .refused hlooks h
  | ok found =>
    cases found with
    | none =>
      refine .inl ⟨not_misled hfound (fun file h => ?_) (fun file v h => ?_),
        [], rfl⟩
      · cases h
      · cases h
    | some file =>
      cases hcontent : content? fs file with
      | error other =>
        obtain ⟨rfl, -⟩ := FileSystem.document?_eq_error.1 hcontent
        exact .inr ⟨.tooDeep hfound hcontent, .tooDeep other,
          bind_eq_error.2 (.inr ⟨_, rfl,
            bind_eq_error.2 (.inl (by rw [hcontent]; rfl))⟩), rfl⟩
      | ok content =>
        have hread : (Except.ok (some file) : Except PathError _).mapError
            SettingsError.badPath = .ok (some file) := rfl
        have hstep := mapError_eq_ok (f := SettingsError.tooDeep).2 hcontent
        have hdeep : ∀ other, some file = some other →
            ∃ content, content? fs other = .ok content := by
          rintro other ⟨⟩
          exact ⟨content, hcontent⟩
        cases content with
        | none =>
          refine .inl ⟨not_misled hfound hdeep ?_, [], bind_eq_ok.2 ⟨_, hread,
            bind_eq_ok.2 ⟨_, hstep, rfl⟩⟩⟩
          rintro other v ⟨⟩ hv
          cases hcontent.symm.trans hv
        | some v =>
          cases v with
          | table description =>
            refine .inl ⟨not_misled hfound hdeep ?_, _, bind_eq_ok.2 ⟨_, hread,
              bind_eq_ok.2 ⟨_, hstep, rfl⟩⟩⟩
            rintro other v ⟨⟩ hv
            obtain rfl :=
              Option.some.inj (Except.ok.inj (hcontent.symm.trans hv))
            simp [Value.asTable?]
          | _ =>
            exact .inr ⟨.notTable hfound hcontent rfl, .packageNotTable file,
              bind_eq_error.2 (.inr ⟨_, hread,
                bind_eq_error.2 (.inr ⟨_, hstep, rfl⟩)⟩), rfl⟩

end Preset

namespace Settings

variable {s : Settings} {entries : Table Value} {name : String}

/-! ### Checked entries -/

/-- An entry that was looked at is absent, without a value or as it should
be. -/
theorem cases_of_firstBad? {names : List String} {good : Value → Bool}
    {complain : String → Complaint}
    (h : firstBad? entries names good complain = none) (hname : name ∈ names) :
    entries.get? name = none ∨ entries.get? name = some .null ∨
      ∃ v, entries.get? name = some v ∧ good v = true := by
  have hfind := List.find?_eq_none.1 (Option.map_eq_none_iff.1 h) name hname
  unfold given? at hfind
  cases hget : entries.get? name with
  | none => exact .inl rfl
  | some v =>
    rw [hget] at hfind
    cases v with
    | null => exact .inr (.inl rfl)
    | _ => exact .inr (.inr ⟨_, rfl, by simpa using hfind⟩)

/-- A table that was looked at is absent, or all of its entries are as they
should be. -/
theorem cases_of_firstBadEntry? {good : Value → Bool}
    {complain : String → Value → Complaint}
    (h : firstBadEntry? entries name good complain = none) :
    entries.get? name = none ∨
      ∃ inner, entries.get? name = some (.table inner) ∧
        ∀ e ∈ inner, good e.2 = true := by
  unfold firstBadEntry? at h
  split at h
  · next hget => exact .inl hget
  · next inner hget =>
    refine .inr ⟨inner, hget, fun e he => ?_⟩
    have hfind := List.find?_eq_none.1 (Option.map_eq_none_iff.1 h) e he
    simpa using hfind
  · cases h

/-- What the check has found of the entries that options are built from. -/
structure Checked (entries : Table Value) : Prop where
  texts : ∀ name ∈ textLists, entries.get? name = none ∨
    entries.get? name = some .null ∨ ∃ v, entries.get? name = some v ∧
    isTexts v = true
  counts : ∀ name ∈ counts, entries.get? name = none ∨
    entries.get? name = some .null ∨ ∃ v, entries.get? name = some v ∧
    isCount v = true
  path : entries.get? "tsconfig" = none ∨ entries.get? "tsconfig" = some .null ∨
    ∃ v, entries.get? "tsconfig" = some v ∧ isPath v = true
  functions : entries.get? "custom_functions" = none ∨
    ∃ inner, entries.get? "custom_functions" = some (.table inner) ∧
      ∀ e ∈ inner, isOverride e.2 = true

/-- What passes the check is as the options need it. -/
theorem checked_of_validate {source : String} {result : Table Value}
    (h : validate source entries = .ok result) : Checked entries := by
  have hnone : complaint? entries = none := by
    unfold validate at h
    split at h
    · cases h
    · assumption
  unfold complaint? at hnone
  simp only [Option.orElse_eq_orElse, Option.orElse_eq_or,
    Option.or_eq_none_iff] at hnone
  obtain ⟨htexts, -, hcounts, -, -, hfunctions, hpath⟩ := hnone
  exact ⟨fun name => cases_of_firstBad? htexts,
    fun name => cases_of_firstBad? hcounts,
    cases_of_firstBad? hpath List.mem_cons_self,
    cases_of_firstBadEntry? hfunctions⟩

/-! ### Reading checked entries -/

/-- The texts that an entry lists. -/
def listed (s : Settings) (name : String) : List String :=
  match s.get? name with
  | some (.list items) => items.filterMap Value.asText?
  | _ => []

/-- The first thing wrong with the hook patterns that are set, in the order in
which they are compiled. -/
def firstFault? (re : PatternCompiler) (s : Settings) : Option PatternFault :=
  (s.listed "stable_hook_patterns" ++
    s.listed "unstable_hook_patterns").findSome? re.fault?

/-- The entries with hooks and hook patterns. -/
def hookLists : List String :=
  ["stable_hooks", "unstable_hooks", "stable_hook_patterns",
    "unstable_hook_patterns"]

theorem mapM_asText? {items : List Value}
    (h : ∀ v ∈ items, v.asText?.isSome = true) :
    items.mapM Value.asText? = some (items.filterMap Value.asText?) := by
  induction items with
  | nil => rfl
  | cons v items ih =>
    obtain ⟨text, htext⟩ := Option.isSome_iff_exists.1 (h v List.mem_cons_self)
    rw [List.mapM_cons, htext, ih fun w hw => h w (List.mem_cons_of_mem _ hw),
      List.filterMap_cons_some htext]
    rfl

/-- A checked list can be read unless it is there without a value. -/
theorem texts_cases (hs : Checked s.entries) (hname : name ∈ textLists) :
    (s.get? name ≠ some .null ∧ s.texts name [] = .ok (s.listed name)) ∨
      (s.get? name = some .null ∧
        s.texts name [] = .error (.wrongKind name)) := by
  unfold texts listed
  rcases hs.texts name hname with hget | hget | ⟨v, hget, hv⟩
  · rw [get?, hget]
    exact .inl ⟨by simp, rfl⟩
  · rw [get?, hget]
    exact .inr ⟨rfl, rfl⟩
  · rw [get?, hget]
    cases v with
    | list items =>
      refine .inl ⟨by simp, ?_⟩
      simp only [mapM_asText? (List.all_eq_true.1 hv)]
    | _ => cases hv

/-- Checked settings can be read for what they say about functions. -/
theorem exists_overrides (hs : Checked s.entries) :
    ∃ functions, s.overrides = .ok functions := by
  unfold overrides
  rcases hs.functions with hget | ⟨inner, hget, hinner⟩
  · rw [get?, hget]
    exact ⟨[], rfl⟩
  · rw [get?, hget]
    refine exists_mapM fun e he => ?_
    obtain ⟨name, v⟩ := e
    have hv := hinner _ he
    cases v with
    | table entries => exact ⟨_, rfl⟩
    | _ => cases hv

/-- And for the configuration that they choose. -/
theorem exists_chosenConfig (hs : Checked s.entries) (asked : Option String) :
    ∃ config, s.chosenConfig asked = .ok config := by
  cases asked with
  | some written => exact ⟨_, rfl⟩
  | none =>
    unfold chosenConfig path?
    rcases hs.path with hget | hget | ⟨v, hget, hv⟩
    · rw [get?, hget]
      exact ⟨_, rfl⟩
    · rw [get?, hget]
      exact ⟨_, rfl⟩
    · rw [get?, hget]
      cases v with
      | text written => exact ⟨_, rfl⟩
      | _ => cases hv

/-- The limit of the import closure is missing only if it is there without a
value. -/
theorem closureLimit?_cases (hs : Checked s.entries) :
    (s.get? "max_import_closure" ≠ some .null ∧
      ∃ limit, s.closureLimit? = some limit ∧ 0 ≤ limit) ∨
      (s.get? "max_import_closure" = some .null ∧ s.closureLimit? = none) := by
  unfold closureLimit?
  rcases hs.counts "max_import_closure" (by decide) with hget | hget |
    ⟨v, hget, hv⟩
  · rw [get?, hget]
    exact .inl ⟨by simp, 500, rfl, by decide⟩
  · rw [get?, hget]
    exact .inr ⟨rfl, rfl⟩
  · rw [get?, hget]
    cases v with
    | int i => exact .inl ⟨by simp, i, rfl, by simpa [isCount] using hv⟩
    | _ => cases hv

/-! ### Putting the options together -/

/-- The options that checked settings ask for, given what presets know and
what is said about functions. -/
def wanted (s : Settings) (args : OptionArguments) (known : KnownHooks)
    (functions : Table Override) :
    OptionSettings where
  stableHooks := known.stable ++ s.listed "stable_hooks"
  unstableHooks := known.unstable ++ s.listed "unstable_hooks"
  stablePatterns := known.stablePatterns ++ s.listed "stable_hook_patterns"
  unstablePatterns := s.listed "unstable_hook_patterns"
  overrides := functions
  debug := args.debug
  strict := args.strict
  warnOnIndexKey := args.warnOnIndexKey.getD (s.isOn "warn_on_index_key" false)
  maxImportClosure := s.closureLimit?.getD 0

variable {re : PatternCompiler} {fs : FileSystem} {args : OptionArguments}
  {known : KnownHooks} {functions : Table Override}
  {config : Option Path}

/-- With everything read, what is left is to build the options and to look
whether there is a limit. -/
theorem runOptions_eq (hknown : s.presetHooks fs args.usePresets = .ok known)
    (hlists : ∀ name ∈ hookLists, s.texts name [] = .ok (s.listed name))
    (hfunctions : s.overrides = .ok functions)
    (hconfig : s.chosenConfig args.compilerConfig = .ok config) :
    s.runOptions re fs { args with changes := {} } = do
      let options ← ((s.wanted args known functions).build re).mapError
        .unusable
      if s.closureLimit?.isNone then .error (.wrongKind "max_import_closure")
      else return ⟨options, s.root, config⟩ := by
  have hstable := hlists "stable_hooks" (by decide)
  have hunstable := hlists "unstable_hooks" (by decide)
  have hstablePatterns := hlists "stable_hook_patterns" (by decide)
  have hunstablePatterns := hlists "unstable_hook_patterns" (by decide)
  unfold runOptions
  simp only [hknown, hstable, hunstable, hstablePatterns, hunstablePatterns,
    hfunctions, hconfig]
  rfl

/-! ### Failures that are no complaints -/

/-- A step fails, and not with a complaint. -/
def Fails {α : Type} (x : Except SettingsError α) : Prop :=
  ∃ e, x = .error e ∧ e.isComplaint = false

/-- A chain of steps that does not fail so has not failed at the first step. -/
theorem exists_of_not_fails {α β : Type} {x : Except SettingsError α}
    {f : α → Except SettingsError β} (h : ¬ Fails (x >>= f))
    (hx : Fails x ∨ ∃ a, x = .ok a) : ∃ a, x = .ok a ∧ ¬ Fails (f a) := by
  rcases hx with ⟨e, he, hno⟩ | ⟨a, ha⟩
  · exact absurd ⟨e, bind_eq_error.2 (.inl he), hno⟩ h
  · refine ⟨a, ha, fun hf => h ?_⟩
    obtain ⟨e, he, hno⟩ := hf
    exact ⟨e, bind_eq_error.2 (.inr ⟨a, ha, he⟩), hno⟩

/-- The presets are known, or they are wanted and the project is
misleading. -/
theorem presetHooks_cases (fs : FileSystem) (s : Settings)
    (usePresets : Option Bool) :
    (¬ (usePresets.getD (s.isOn "presets" true) = true ∧
        Preset.Misled fs s.root) ∧
        ∃ known, s.presetHooks fs usePresets = .ok known) ∨
      (usePresets.getD (s.isOn "presets" true) = true ∧
        Preset.Misled fs s.root ∧ Fails (s.presetHooks fs usePresets)) := by
  unfold presetHooks
  split
  · next hwanted =>
    rcases Preset.ofProject_cases fs s.root with ⟨hclear, presets, h⟩ |
      ⟨hmisled, e, h, hno⟩
    · exact .inl ⟨fun hboth => hclear hboth.2, _,
        bind_eq_ok.2 ⟨presets, h, rfl⟩⟩
    · exact .inr ⟨hwanted, hmisled, e, bind_eq_error.2 (.inl h), hno⟩
  · next hwanted => exact .inl ⟨fun hboth => hwanted hboth.1, _, rfl⟩

/-- What was not checked and can end the building of options without a
complaint. -/
inductive Strays (re : PatternCompiler) (fs : FileSystem) (s : Settings)
    (usePresets : Option Bool) : Prop where
  | presets (hwanted : usePresets.getD (s.isOn "presets" true) = true)
      (h : Preset.Misled fs s.root)
  | hooks {name : String} (hname : name ∈ hookLists)
      (h : s.get? name = some .null)
  | pattern {fault : PatternFault} (h : s.firstFault? re = some fault)
      (hfault : fault.isComplaint = false)
  | limit (h : s.get? "max_import_closure" = some .null)
      (hpatterns : s.firstFault? re = none)

theorem textLists_of_hookLists (h : name ∈ hookLists) : name ∈ textLists := by
  unfold hookLists at h
  unfold textLists
  exact List.mem_cons_of_mem _ (List.mem_cons_of_mem _ h)

/-- Options that are not ended so by a list have read all of them. -/
theorem texts_of_not_fails (hs : Checked s.entries)
    (hknown : s.presetHooks fs args.usePresets = .ok known)
    (h : ¬ Fails (s.runOptions re fs { args with changes := {} }))
    (hname : name ∈ hookLists) :
    s.get? name ≠ some .null := by
  have hread : ∀ {name : String}, name ∈ textLists →
      Fails (s.texts name []) ∨ ∃ found, s.texts name [] = .ok found := by
    intro name hname
    rcases texts_cases hs hname with ⟨-, h⟩ | ⟨-, h⟩
    · exact .inr ⟨_, h⟩
    · exact .inl ⟨_, h, rfl⟩
  unfold runOptions at h
  obtain ⟨_, -, h⟩ := exists_of_not_fails h (.inr ⟨known, hknown⟩)
  obtain ⟨stable, hstable, h⟩ := exists_of_not_fails h (hread (by decide))
  obtain ⟨unstable, hunstable, h⟩ := exists_of_not_fails h (hread (by decide))
  obtain ⟨stablePatterns, hstablePatterns, h⟩ :=
    exists_of_not_fails h (hread (by decide))
  obtain ⟨_, -, h⟩ := exists_of_not_fails h (.inr (exists_overrides hs))
  obtain ⟨_, -, h⟩ := exists_of_not_fails h (.inr (exists_chosenConfig hs _))
  obtain ⟨unstablePatterns, hunstablePatterns, -⟩ :=
    exists_of_not_fails h (hread (by decide))
  have hok : ∃ found, s.texts name [] = .ok found := by
    unfold hookLists at hname
    simp only [List.mem_cons, List.not_mem_nil, or_false] at hname
    rcases hname with rfl | rfl | rfl | rfl
    · exact ⟨_, hstable⟩
    · exact ⟨_, hunstable⟩
    · exact ⟨_, hstablePatterns⟩
    · exact ⟨_, hunstablePatterns⟩
  obtain ⟨found, hfound⟩ := hok
  rcases texts_cases hs (textLists_of_hookLists hname) with ⟨hgiven, -⟩ |
    ⟨-, herror⟩
  · exact hgiven
  · rw [herror] at hfound
    cases hfound

/-- Presets come with patterns that compile, so the first fault is one of the
settings. -/
theorem build_wanted_cases (hs : Checked s.entries)
    (hknown : s.presetHooks fs args.usePresets = .ok known)
    (functions : Table Override) :
    (s.firstFault? re = none ∧
      ∃ o, (s.wanted args known functions).build re = .ok o) ∨
      ∃ e, s.firstFault? re = some e.fault ∧
        (s.wanted args known functions).build re =
          .error (.badHookPattern e) := by
  have hnone : known.stablePatterns.findSome? re.fault? = none := by
    obtain ⟨compiled, hcompiled⟩ := (presetHooks_addStable re hknown).2
    rcases compileHookPatterns_cases re known.stablePatterns with ⟨hnone, -⟩ |
      ⟨e, -, herror⟩
    · exact hnone
    · rw [hcompiled] at herror
      cases herror
  have hfirst : ((s.wanted args known functions).stablePatterns ++
      (s.wanted args known functions).unstablePatterns).findSome? re.fault? =
        s.firstFault? re := by
    unfold wanted firstFault?
    rw [List.append_assoc, List.findSome?_append, hnone, Option.none_or]
  have hlimit : 0 ≤ (s.wanted args known functions).maxImportClosure := by
    unfold wanted
    rcases closureLimit?_cases hs with ⟨-, limit, hlimit, hpos⟩ | ⟨-, hlimit⟩
    · rw [hlimit]
      exact hpos
    · rw [hlimit]
      exact Int.le_refl 0
  rw [← hfirst]
  exact OptionSettings.build_cases re _ hlimit

/-- Once all lists have been read, the patterns decide, and after them the
limit of the import closure. -/
theorem runOptions_of_lists (hs : Checked s.entries)
    (hknown : s.presetHooks fs args.usePresets = .ok known)
    (hlists : ∀ name ∈ hookLists, s.texts name [] = .ok (s.listed name)) :
    (s.firstFault? re = none ∧ s.get? "max_import_closure" ≠ some .null ∧
        ∃ r, s.runOptions re fs { args with changes := {} } = .ok r) ∨
      (s.firstFault? re = none ∧ s.get? "max_import_closure" = some .null ∧
        Fails (s.runOptions re fs { args with changes := {} })) ∨
      ∃ fault e, s.firstFault? re = some fault ∧
        s.runOptions re fs { args with changes := {} } = .error e ∧
        e.isComplaint = fault.isComplaint := by
  obtain ⟨functions, hfunctions⟩ := exists_overrides hs
  obtain ⟨config, hconfig⟩ := exists_chosenConfig hs args.compilerConfig
  rw [runOptions_eq hknown hlists hfunctions hconfig]
  rcases build_wanted_cases hs hknown functions with ⟨hnone, o, ho⟩ |
    ⟨e, he, herror⟩
  · have hbuilt := mapError_eq_ok (f := SettingsError.unusable).2 ho
    rcases closureLimit?_cases hs with ⟨hgiven, limit, hlimit, -⟩ |
      ⟨hnull, hlimit⟩
    · exact .inl ⟨hnone, hgiven, _,
        bind_eq_ok.2 ⟨o, hbuilt, by rw [hlimit]; rfl⟩⟩
    · exact .inr (.inl ⟨hnone, hnull, _,
        bind_eq_error.2 (.inr ⟨o, hbuilt, by rw [hlimit]; rfl⟩), rfl⟩)
  · refine .inr (.inr ⟨e.fault, .unusable (.badHookPattern e), he,
      bind_eq_error.2 (.inl ?_), rfl⟩)
    rw [herror]
    rfl

/-- What building the options from checked settings comes to. -/
theorem runOptions_cases (hs : Checked s.entries) (re : PatternCompiler)
    (fs : FileSystem) (args : OptionArguments) :
    (Strays re fs s args.usePresets ∧
      Fails (s.runOptions re fs { args with changes := {} })) ∨
      (¬ Strays re fs s args.usePresets ∧ s.firstFault? re = none ∧
        ∃ r, s.runOptions re fs { args with changes := {} } = .ok r) ∨
      (¬ Strays re fs s args.usePresets ∧ s.firstFault? re ≠ none ∧
        ∃ e, s.runOptions re fs { args with changes := {} } = .error e ∧
          e.isComplaint = true) := by
  rcases presetHooks_cases fs s args.usePresets with ⟨hclear, known, hknown⟩ |
    ⟨hwanted, hmisled, e, he, hno⟩
  · by_cases hnull : ∃ name ∈ hookLists, s.get? name = some .null
    · obtain ⟨name, hname, hnull⟩ := hnull
      refine .inl ⟨.hooks hname hnull, Classical.byContradiction fun h => ?_⟩
      exact texts_of_not_fails hs hknown h hname hnull
    · have hlists : ∀ name ∈ hookLists, s.texts name [] =
          .ok (s.listed name) := by
        intro name hname
        rcases texts_cases hs (textLists_of_hookLists hname) with ⟨-, h⟩ |
          ⟨h, -⟩
        · exact h
        · exact absurd ⟨name, hname, h⟩ hnull
      -- presets and lists are in order, so only patterns and the limit are left
      -- to go astray
      have hstrays (hpattern : ∀ fault, s.firstFault? re = some fault →
          fault.isComplaint = true) (hlimit : s.firstFault? re = none →
          s.get? "max_import_closure" ≠ some .null) :
          ¬ Strays re fs s args.usePresets := by
        rintro (⟨hwanted, h⟩ | ⟨hname, h⟩ | ⟨h, hfault⟩ | ⟨h, hpatterns⟩)
        · exact hclear ⟨hwanted, h⟩
        · exact hnull ⟨_, hname, h⟩
        · exact absurd (hpattern _ h) (by simp [hfault])
        · exact hlimit hpatterns h
      rcases runOptions_of_lists hs hknown hlists with ⟨hnone, hgiven, hr⟩ |
        ⟨hnone, hempty, hfails⟩ |
        ⟨fault, e, hfault, he, hcomplaint⟩
      · exact .inr (.inl ⟨hstrays (by simp [hnone]) fun _ => hgiven, hnone, hr⟩)
      · exact .inl ⟨.limit hempty hnone, hfails⟩
      · cases hblame : fault.isComplaint with
        | false =>
          exact .inl ⟨.pattern hfault hblame, e, he, hcomplaint.trans hblame⟩
        | true =>
          refine .inr (.inr ⟨hstrays ?_ fun hnone => ?_, by simp [hfault], e,
            he, hcomplaint.trans hblame⟩)
          · intro other hother
            obtain rfl := Option.some.inj (hfault.symm.trans hother)
            exact hblame
          · rw [hfault] at hnone
            cases hnone
  · exact .inl ⟨.presets hwanted hmisled, e, bind_eq_error.2 (.inl he), hno⟩

/-- Everything on the list ends the building of options without a
complaint. -/
theorem fails_of_strays (hs : Checked s.entries) (args : OptionArguments)
    (h : Strays re fs s args.usePresets) :
    Fails (s.runOptions re fs { args with changes := {} }) := by
  rcases runOptions_cases hs re fs args with ⟨-, hfails⟩ |
    ⟨hclear, -⟩ | ⟨hclear, -⟩
  · exact hfails
  · exact absurd h hclear
  · exact absurd h hclear

/-- Building options from settings that pass the check, with no option set
outright, returns options or ends in a complaint, unless something strays. It
returns iff moreover every pattern compiles. -/
theorem runOptions_returns_or_complains {source : String} (re : PatternCompiler)
    (fs : FileSystem) (args : OptionArguments)
    (hvalid : validate source s.entries = .ok s.entries) :
    ((∃ r, s.runOptions re fs { args with changes := {} } = .ok r) ↔
      ¬ Strays re fs s args.usePresets ∧ s.firstFault? re = none) ∧
    ((∃ e, s.runOptions re fs { args with changes := {} } = .error e ∧
      e.isComplaint = true) ↔ ¬ Strays re fs s args.usePresets ∧
      s.firstFault? re ≠ none) := by
  rcases runOptions_cases (checked_of_validate hvalid) re fs args with
    ⟨hstrays, e, he, hno⟩ | ⟨hclear, hnone, r, hr⟩ |
      ⟨hclear, hfault, e, he, hcomplaint⟩
  · rw [he]
    refine ⟨iff_of_false ?_ fun h => h.1 hstrays, iff_of_false ?_ fun h =>
      h.1 hstrays⟩
    · rintro ⟨r, h⟩
      cases h
    · rintro ⟨e', h, hcomplaint⟩
      cases h
      rw [hno] at hcomplaint
      cases hcomplaint
  · rw [hr]
    refine ⟨iff_of_true ⟨r, rfl⟩ ⟨hclear, hnone⟩,
      iff_of_false ?_ fun h => h.2 hnone⟩
    rintro ⟨e, h, -⟩
    cases h
  · rw [he]
    refine ⟨iff_of_false ?_ fun h => hfault h.2,
      iff_of_true ⟨e, rfl, hcomplaint⟩ ⟨hclear, hfault⟩⟩
    rintro ⟨r, h⟩
    cases h

end Settings

/-! ### Projects that can and cannot be started on -/

namespace Shop

/-- A description that lists packages and is no table. -/
def listing : StoredFile where
  bytes := "[\"zustand\"]".toUTF8

theorem text?_filesWith (description : StoredFile) (nesting : Nat) :
    ((filesWith description nesting).file? ⟨.root, ["package.json"]⟩).bind
      StoredFile.text? = description.text? := by
  rw [file?_filesWith]
  rfl

/-- A description that is no table misleads the presets. -/
theorem misled_listing : Preset.Misled (filesWith listing) ⟨.root, []⟩ := by
  have hread : (listing.text?.bind fun text =>
      (Json.read 970 text.toList).toOption).any (fun v => v.asTable?.isNone) =
      true := by
    decide +kernel
  obtain ⟨v, hv, hlist⟩ := (Option.any_eq_true _ _).1 hread
  obtain ⟨text, htext, hv⟩ := Option.bind_eq_some_iff.1 hv
  have hcontent : Preset.content? (filesWith listing)
      ⟨.root, ["package.json"]⟩ = .ok (some v) :=
    FileSystem.document?_eq_some.2
      ⟨text, (text?_filesWith listing 970).trans htext,
      toOption_eq_some.1 hv⟩
  exact .notTable (description?_filesWith listing 970) hcontent
    (Option.isNone_iff_eq_none.1 hlist)

/-- A description with a list in a list. -/
def nested : StoredFile where
  bytes := "[[]]".toUTF8

/-- So does one that is nested more deeply than can be read. -/
theorem misled_nested : Preset.Misled (filesWith nested 1) ⟨.root, []⟩ := by
  have htext : nested.text? = some "[[]]" := by decide +kernel
  have hdeep : Json.read 1 "[[]]".toList = .error .tooDeep := rfl
  have hcontent : Preset.content? (filesWith nested 1)
      ⟨.root, ["package.json"]⟩ = .error ⟨.root, ["package.json"]⟩ :=
    FileSystem.document?_eq_error.2 ⟨rfl, _,
      (text?_filesWith nested 1).trans htext, hdeep⟩
  exact .tooDeep (description?_filesWith nested 1) hcontent

/-- The settings are not to blame for anything but their pattern. -/
theorem strays_settings_iff (re : PatternCompiler) (pattern : String) :
    Settings.Strays re files (settings pattern) none ↔
      ∃ fault, (settings pattern).firstFault? re = some fault ∧
        fault.isComplaint = false := by
  constructor
  · rintro (⟨hwanted, hmisled⟩ | ⟨hname, hnull⟩ | ⟨hfault, hblame⟩ | ⟨hnull, -⟩)
    · rcases Settings.presetHooks_cases files (settings pattern)
        none with ⟨hclear, -⟩ | ⟨-, -, e, he, -⟩
      · exact absurd ⟨hwanted, hmisled⟩ hclear
      · rw [presetHooks_files] at he
        cases he
    · unfold Settings.hookLists at hname
      simp only [List.mem_cons, List.not_mem_nil, or_false] at hname
      rcases hname with rfl | rfl | rfl | rfl <;> cases hnull
    · exact ⟨_, hfault, hblame⟩
    · cases hnull
  · rintro ⟨fault, hfault, hblame⟩
    exact .pattern hfault hblame

end Shop

namespace Settings

open Shop (filesWith listing nested)

/-- A pattern that does not compile is a complaint, though a preset is found
as well. -/
theorem runOptions_complains_in_shop :
    validate "hookloop.toml" (Shop.settings "(").entries =
      .ok (Shop.settings "(").entries ∧
      ∃ e, (Shop.settings "(").runOptions Regex.compiler Shop.files
      {} = .error e ∧ e.isComplaint = true := by
  have hvalid : validate "hookloop.toml" (Shop.settings "(").entries =
    .ok (Shop.settings "(").entries := rfl
  have hfault : (Shop.settings "(").firstFault? Regex.compiler =
    some .misspelled := by decide +kernel
  refine ⟨hvalid, (runOptions_returns_or_complains Regex.compiler Shop.files {}
    hvalid).2.2 ⟨?_, ?_⟩⟩
  · intro hstrays
    obtain ⟨fault, hother, hblame⟩ := (Shop.strays_settings_iff _ _).1 hstrays
    obtain rfl := Option.some.inj (hfault.symm.trans hother)
    cases hblame
  · rw [hfault]
    exact Option.some_ne_none _

/-- Three projects that end without a complaint: two have no settings and a
package description that is a list or nested too deep, the third a pattern
with too many rounds. -/
theorem runOptions_fails_without_complaint :
    (∃ e, ({ root := ⟨.root, []⟩ } : Settings).runOptions Regex.compiler
      (filesWith listing) {} = .error e ∧ e.isComplaint = false) ∧
    (∃ e, ({ root := ⟨.root, []⟩ } : Settings).runOptions Regex.compiler
      (filesWith nested 1) {} = .error e ∧ e.isComplaint = false) ∧
    validate "hookloop.toml"
      (Shop.settings "^use[A-Z]\x7b4294967295\x7d").entries =
      .ok (Shop.settings "^use[A-Z]\x7b4294967295\x7d").entries ∧
    ∃ e, (Shop.settings "^use[A-Z]\x7b4294967295\x7d").runOptions Regex.compiler
      Shop.files {} = .error e ∧ e.isComplaint = false := by
  have hnothing : validate "hookloop.toml" [] = .ok [] := rfl
  have hvalid : validate "hookloop.toml"
    (Shop.settings "^use[A-Z]\x7b4294967295\x7d").entries =
      .ok (Shop.settings "^use[A-Z]\x7b4294967295\x7d").entries := rfl
  have hrounds : (Shop.settings "^use[A-Z]\x7b4294967295\x7d").firstFault?
      Regex.compiler = some .tooManyRounds := by
    decide +kernel
  refine ⟨?_, ?_, hvalid, ?_⟩
  · exact fails_of_strays (checked_of_validate hnothing) {}
      (.presets rfl Shop.misled_listing)
  · exact fails_of_strays (checked_of_validate hnothing) {}
      (.presets rfl Shop.misled_nested)
  · exact fails_of_strays (checked_of_validate hvalid) {} (.pattern hrounds rfl)

end Settings

end RenderLoop
