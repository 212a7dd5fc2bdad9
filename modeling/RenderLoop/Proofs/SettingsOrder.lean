import RenderLoop.Settings.Options
import RenderLoop.Text.Regex.Parser
import RenderLoop.Stability.Verdict
import RenderLoop.Proofs.Links
import RenderLoop.Proofs.Names
import RenderLoop.Proofs.Outcome
import RenderLoop.Proofs.Scan
import RenderLoop.Proofs.Sketch

/-!
# The order in which settings are asked

Settings speak about a call by name, in a list or in an override, or by a
pattern. Names are asked before patterns, and within each of the two what
makes a call unstable before what makes it stable.

> `configured_eq`: the three questions, one after the other.

Presets are put in front of the settings of the same rank. They only add
stable hooks, so they win over the settings in one case: a preset has the name
of a hook that the settings know by an unstable pattern only.

> `configured_of_addsStable`: options with more stable hooks answer as before,
> except in that case.

> `runOptions_keeps_answers`: presets never change the answer of the settings,
> except in that case.

The proof has two parts. One is about a single call: adding stable hooks
leaves the first question as it was, may turn the second one into a yes, and
matters to the patterns only where nothing else was found
(`configured_of_addsStable`). The other is about how options are put together.
Presets bring in stable hooks and nothing else, which is a fact about the
presets that there are (`all_addStable`), so what a run with presets gets
differs from one without in just this way (`runOptions_addsStable`).
-/

namespace RenderLoop

namespace Stability

/-- The settings name a call, in the given list or by an override that
declares the given stability. -/
def isNamed (o : Options) (listed : List String) (declared : Bool)
    (call : Node) : Except Fault Bool :=
  if (settingNames call).any listed.contains then .ok true
  else anyDeclares declared (overridesFor o (settingNames call))

/-- Some pattern is found in one of the spellings of a call. -/
def isMatched (patterns : List Pattern) (call : Node) : Bool :=
  patterns.any fun p => (settingNames call).any p.search

/-- What the patterns alone say about a call. -/
def byPatterns (o : Options) (call : Node) : Option Bool :=
  if isMatched o.unstablePatterns call then some false
  else if isMatched o.stablePatterns call then some true
  else none

variable {ctx : Context} {o o' : Options} {call : Node} {stable : Bool}

/-- Unstable names are asked first, then stable names, then patterns. -/
theorem configured_eq (o : Options) (call : Node) :
    configured o call = (do
      if ← isNamed o o.unstableHooks false call then return some false
      else if ← isNamed o o.stableHooks true call then return some true
      else return byPatterns o call) := by
  unfold configured isNamed byPatterns isMatched
  dsimp only
  by_cases hlisted : (settingNames call).any o.unstableHooks.contains = true
  · rw [if_pos hlisted, if_pos hlisted]
    rfl
  · rw [if_neg hlisted, if_neg hlisted]
    refine congrArg _ (funext fun unstable => ?_)
    cases unstable with
    | true => rfl
    | false =>
      simp only [Bool.false_eq_true, if_false]
      by_cases hlisted : (settingNames call).any o.stableHooks.contains = true
      · rw [if_pos hlisted, if_pos hlisted]
        rfl
      · rw [if_neg hlisted, if_neg hlisted]
        refine congrArg _ (funext fun declared => ?_)
        cases declared with
        | true => rfl
        | false =>
          simp only [Bool.false_eq_true, if_false]
          split
          · rfl
          · split <;> rfl

/-- The three ways to an answer. -/
theorem configured_eq_some :
    configured o call = .ok (some stable) ↔
      isNamed o o.unstableHooks false call = .ok true ∧ stable = false ∨
      isNamed o o.unstableHooks false call = .ok false ∧
        (isNamed o o.stableHooks true call = .ok true ∧ stable = true ∨
          isNamed o o.stableHooks true call = .ok false ∧
            byPatterns o call = some stable) := by
  rw [configured_eq, bind_eq_ok]
  constructor
  · rintro ⟨unstable, hunstable, h⟩
    cases unstable with
    | true =>
      cases h
      exact .inl ⟨hunstable, rfl⟩
    | false =>
      obtain ⟨listed, hlisted, h⟩ := bind_eq_ok.1 h
      cases listed with
      | true =>
        cases h
        exact .inr ⟨hunstable, .inl ⟨hlisted, rfl⟩⟩
      | false => exact .inr ⟨hunstable, .inr ⟨hlisted, Except.ok.inj h⟩⟩
  · rintro (⟨hunstable, rfl⟩ |
      ⟨hunstable, ⟨hlisted, rfl⟩ | ⟨hlisted, hpattern⟩⟩)
    · exact ⟨true, hunstable, rfl⟩
    · exact ⟨false, hunstable, bind_eq_ok.2 ⟨true, hlisted, rfl⟩⟩
    · exact ⟨false, hunstable,
        bind_eq_ok.2 ⟨false, hlisted, congrArg Except.ok hpattern⟩⟩

/-! ### Success -/

theorem exists_anyDeclares (declared : Bool) {entries : List Override}
    (h : ∀ entry ∈ entries, ∀ written, entry ≠ .malformed written) :
    ∃ found, anyDeclares declared entries = .ok found := by
  induction entries with
  | nil => exact ⟨false, rfl⟩
  | cons entry rest ih =>
    obtain ⟨said, hsaid⟩ : ∃ said, entry.stability = .ok said := by
      unfold Override.stability
      split
      · exact ⟨_, rfl⟩
      · exact ⟨_, rfl⟩
      · next written => exact absurd rfl (h _ List.mem_cons_self written)
    have hrest := ih fun e he => h e (List.mem_cons_of_mem _ he)
    rw [anyDeclares]
    refine exists_bind ⟨said, hsaid⟩ fun said => ?_
    split
    · exact ⟨true, rfl⟩
    · exact hrest

/-- With well-formed settings it can be told whether they name a call. -/
theorem exists_isNamed (h : o.WellFormed) (listed : List String)
    (declared : Bool) (call : Node) :
    ∃ found, isNamed o listed declared call = .ok found := by
  unfold isNamed
  split
  · exact ⟨true, rfl⟩
  · refine exists_anyDeclares declared fun entry hentry => ?_
    obtain ⟨name, -, hget⟩ := List.mem_filterMap.1 hentry
    exact h (name, entry) (Table.mem_of_get? hget)

/-- Well-formed settings can be asked about any call. -/
theorem exists_configured (h : o.WellFormed) (call : Node) :
    ∃ answer, configured o call = .ok answer := by
  rw [configured_eq]
  refine exists_bind (exists_isNamed h _ _ call) fun unstable => ?_
  split
  · exact ⟨_, rfl⟩
  · refine exists_bind (exists_isNamed h _ _ call) fun listed => ?_
    split <;> exact ⟨_, rfl⟩

/-- With well-formed settings every call can be judged. -/
theorem exists_classify (h : ctx.options.WellFormed) (file : String)
    (call : Node) :
    ∃ verdict, classify ctx file call = .ok verdict := by
  unfold classify
  split
  · exact ⟨_, rfl⟩
  · split
    · exact ⟨_, rfl⟩
    · refine exists_bind (exists_configured h call) fun answer => ?_
      split
      · exact ⟨_, rfl⟩
      · split
        · exact ⟨_, rfl⟩
        · split
          · exact ⟨_, rfl⟩
          · split <;> exact ⟨_, rfl⟩

/-- A call that is judged before the settings are asked: of a hook that always
gives the same reference, or of a global function that gives a primitive or
a module. -/
def PrecedesSettings (call : Node) : Prop :=
  call.isCallOf stableHookNames = true ∨ isBuiltinCall call = true

/-- An answer of the settings is final for any call that is not judged
before. -/
theorem classify_of_configured (hfirst : ¬ PrecedesSettings call)
    (h : configured ctx.options call = .ok (some stable)) (file : String) :
    classify ctx file call = .ok ⟨stable, .configured⟩ := by
  obtain ⟨hhook, hbuiltin⟩ := not_or.1 hfirst
  unfold classify
  rw [if_neg hhook, if_neg hbuiltin, h]
  rfl

/-! ### More stable hooks -/

/-- Options that know more stable hooks, by name and by pattern, and nothing
else more or less. -/
structure AddsStable (o o' : Options) (names : List String)
    (patterns : List Pattern) : Prop where
  stableHooks : o'.stableHooks = names ++ o.stableHooks
  stablePatterns : o'.stablePatterns = patterns ++ o.stablePatterns
  unstableHooks : o'.unstableHooks = o.unstableHooks
  unstablePatterns : o'.unstablePatterns = o.unstablePatterns
  overrides : o'.overrides = o.overrides

/-- Names win over the settings, which call what has such a name unstable by a
pattern only. -/
structure Outranks (names : List String) (o : Options) (call : Node) :
    Prop where
  known : ∃ name ∈ settingNames call, name ∈ names
  unstable : configured o call = .ok (some false)
  notListed : ∀ name ∈ settingNames call, name ∉ o.unstableHooks
  notDeclared : anyDeclares false (overridesFor o (settingNames call)) =
    .ok false

/-- A call is not named iff it is neither listed nor declared. -/
theorem isNamed_eq_false {listed : List String} {declared : Bool} :
    isNamed o listed declared call = .ok false ↔
      (∀ name ∈ settingNames call, name ∉ listed) ∧
      anyDeclares declared (overridesFor o (settingNames call)) =
      .ok false := by
  unfold isNamed
  split
  · next h =>
    obtain ⟨name, hname, hlisted⟩ := List.any_eq_true.1 h
    constructor
    · intro hfalse
      cases hfalse
    · rintro ⟨hunlisted, -⟩
      exact absurd (by simpa using hlisted) (hunlisted name hname)
  · next h =>
    refine ⟨fun hdeclares => ⟨fun name hname hlisted => h ?_, hdeclares⟩,
      And.right⟩
    exact List.any_eq_true.2 ⟨name, hname, by simpa using hlisted⟩

variable {names : List String} {patterns : List Pattern}

/-- More stable hooks change nothing about the unstable ones. -/
theorem AddsStable.isNamed_unstable (h : AddsStable o o' names patterns) :
    isNamed o' o'.unstableHooks false call =
      isNamed o o.unstableHooks false call := by
  unfold isNamed overridesFor
  rw [h.unstableHooks, h.overrides]

/-- A call of a hook that is added is named as stable. -/
theorem AddsStable.isNamed_stable_of_known (h : AddsStable o o' names patterns)
    (hknown : ∃ name ∈ settingNames call, name ∈ names) :
    isNamed o' o'.stableHooks true call = .ok true := by
  obtain ⟨name, hname, hmem⟩ := hknown
  unfold isNamed
  rw [if_pos]
  refine List.any_eq_true.2 ⟨name, hname, ?_⟩
  rw [h.stableHooks]
  simp [hmem]

/-- For any other call the names are as before. -/
theorem AddsStable.isNamed_stable_of_unknown
    (h : AddsStable o o' names patterns)
    (hunknown : ¬ ∃ name ∈ settingNames call, name ∈ names) :
    isNamed o' o'.stableHooks true call =
      isNamed o o.stableHooks true call := by
  have hlisted : (settingNames call).any o'.stableHooks.contains =
      (settingNames call).any o.stableHooks.contains := by
    rw [Bool.eq_iff_iff, List.any_eq_true, List.any_eq_true]
    refine exists_congr fun name => and_congr_right fun hname => ?_
    have hnot : name ∉ names := fun hmem => hunknown ⟨name, hname, hmem⟩
    rw [h.stableHooks]
    simp [hnot]
  unfold isNamed overridesFor
  rw [hlisted, h.overrides]

/-- More stable patterns leave the answer of the patterns as it is, if there
is one. -/
theorem AddsStable.byPatterns_eq (h : AddsStable o o' names patterns)
    (hanswer : byPatterns o call = some stable) :
    byPatterns o' call = some stable := by
  unfold byPatterns at hanswer ⊢
  rw [h.unstablePatterns]
  split
  · next hmatch =>
    rw [if_pos hmatch] at hanswer
    exact hanswer
  · next hmatch =>
    rw [if_neg hmatch] at hanswer
    split at hanswer
    · next hstable =>
      have hmore : isMatched o'.stablePatterns call = true := by
        unfold isMatched at hstable ⊢
        rw [h.stablePatterns, List.any_append, hstable, Bool.or_true]
      rw [if_pos hmore]
      exact hanswer
    · cases hanswer

/-- Options that know more stable hooks answer as before, unless one of the
new names outranks the pattern that the old answer rests on. -/
theorem configured_of_addsStable (h : AddsStable o o' names patterns)
    (hanswer : configured o call = .ok (some stable)) :
    (Outranks names o call → configured o' call = .ok (some true)) ∧
      (¬ Outranks names o call → configured o' call = .ok (some stable)) := by
  constructor
  · intro hout
    refine configured_eq_some.2
      (.inr ⟨?_, .inl ⟨h.isNamed_stable_of_known hout.known, rfl⟩⟩)
    rw [h.isNamed_unstable]
    exact isNamed_eq_false.2 ⟨hout.notListed, hout.notDeclared⟩
  · intro hout
    rw [configured_eq_some, h.isNamed_unstable]
    by_cases hknown : ∃ name ∈ settingNames call, name ∈ names
    · rcases configured_eq_some.1 hanswer with hfirst | ⟨hunstable, hrest⟩
      · exact .inl hfirst
      · -- a stable answer is confirmed by the new name, an unstable one would
        -- be outranked
        refine .inr ⟨hunstable, .inl ⟨h.isNamed_stable_of_known hknown, ?_⟩⟩
        cases stable with
        | true => rfl
        | false =>
          obtain ⟨hlisted, hdeclared⟩ := isNamed_eq_false.1 hunstable
          exact absurd ⟨hknown, hanswer, hlisted, hdeclared⟩ hout
    · rw [h.isNamed_stable_of_unknown hknown]
      exact (configured_eq_some.1 hanswer).imp_right
        (And.imp_right (Or.imp_right (And.imp_right h.byPatterns_eq)))

end Stability

/-! ### Presets under settings -/

namespace Preset

/-- No preset knows an unstable hook, and all of them use patterns of the
program. -/
theorem all_addStable : ∀ p ∈ all, p.hooks.unstable = [] ∧
    ∀ source ∈ p.hooks.stablePatterns, source ∈ Pattern.own := by
  decide

/-- The presets of a project are among those that there are. -/
theorem mem_all_of_ofProject {fs : FileSystem} {start : Path}
    {presets : List Preset} (h : ofProject fs start = .ok presets) :
    ∀ p ∈ presets, p ∈ all := by
  obtain ⟨file?, -, h⟩ := bind_eq_ok.1 h
  intro p hp
  cases file? with
  | none =>
    cases h
    cases hp
  | some file =>
    obtain ⟨content, -, h⟩ := bind_eq_ok.1 h
    split at h
    · cases h
      cases hp
    · cases h
      obtain ⟨package, -, hfind⟩ := List.mem_filterMap.1 hp
      exact List.mem_of_find?_eq_some hfind
    · cases h

/-- No preset calls a hook unstable. -/
theorem unstable_merge {presets : List Preset} (h : ∀ p ∈ presets, p ∈ all) :
    (merge presets).unstable = [] := by
  have hnone : presets.flatMap (·.hooks.unstable) = [] :=
    List.flatMap_eq_nil_iff.2 fun p hp => (all_addStable p (h p hp)).1
  unfold merge
  rw [hnone]
  rfl

/-- Any compiler takes the patterns of presets. -/
theorem exists_compile_merge (re : PatternCompiler) {presets : List Preset}
    (h : ∀ p ∈ presets, p ∈ all) :
    ∃ compiled, compileHookPatterns re (merge presets).stablePatterns =
      .ok compiled := by
  refine exists_mapM fun source hsource => ?_
  obtain ⟨p, hp, hsource⟩ := List.mem_flatMap.1 (List.mem_eraseDups.1 hsource)
  obtain ⟨compiled, hcompiled⟩ :=
    re.compilesOwn source ((all_addStable p (h p hp)).2 source hsource)
  exact ⟨compiled, by rw [hcompiled]; rfl⟩

end Preset

namespace OptionSettings

open Stability (AddsStable)

/-- Settings with more stable hooks, whose patterns compile, can be used if
they could be without. -/
theorem build_addsStable {re : PatternCompiler} {s : OptionSettings}
    {o : Options} {sources : List String} {compiled : List Pattern}
    (h : s.build re = .ok o) (names : List String)
    (hcompiled : compileHookPatterns re sources = .ok compiled) :
    ∃ o', ({ s with stableHooks := names ++ s.stableHooks,
                    stablePatterns := sources ++ s.stablePatterns }).build
                      re = .ok o' ∧
      AddsStable o o' names compiled := by
  obtain ⟨stable, hstable, h⟩ := bind_eq_ok.1 h
  obtain ⟨unstable, hunstable, h⟩ := bind_eq_ok.1 h
  split at h
  · cases h
  · next hlimit =>
    cases h
    have hboth : compileHookPatterns re (sources ++ s.stablePatterns) =
        .ok (compiled ++ stable) := by
      unfold compileHookPatterns at hcompiled hstable ⊢
      rw [List.mapM_append, hcompiled, hstable]
      rfl
    refine ⟨_, bind_eq_ok.2 ⟨_, hboth,
      bind_eq_ok.2 ⟨unstable, hunstable, if_neg hlimit⟩⟩, ?_⟩
    exact ⟨rfl, rfl, rfl, rfl, rfl⟩

end OptionSettings

/-- The names that presets bring in, none if the caller sets the stable hooks
outright. -/
def OptionArguments.presetNames (args : OptionArguments) (known : KnownHooks) :
    List String :=
  if args.changes.stableHooks.isSome then [] else known.stable

namespace Settings

open Stability (AddsStable Outranks configured configured_of_addsStable)

variable {re : PatternCompiler} {fs : FileSystem} {s : Settings}
  {known : KnownHooks}

/-- Presets only add stable hooks, and never keep the options from being
built. -/
theorem presetHooks_addStable (re : PatternCompiler) {usePresets : Option Bool}
    (h : s.presetHooks fs usePresets = .ok known) :
    known.unstable = [] ∧
      ∃ compiled, compileHookPatterns re known.stablePatterns =
      .ok compiled := by
  unfold presetHooks at h
  split at h
  · obtain ⟨presets, hpresets, h⟩ := bind_eq_ok.1 h
    cases h
    have hall := Preset.mem_all_of_ofProject hpresets
    exact ⟨Preset.unstable_merge hall, Preset.exists_compile_merge re hall⟩
  · cases h
    exact ⟨rfl, [], rfl⟩

/-- Putting presets under settings adds stable hooks to the options and
changes nothing else. -/
theorem runOptions_addsStable (args : OptionArguments) {r : RunOptions}
    (halone : s.runOptions re fs { args with usePresets := some false } = .ok r)
    (hknown : s.presetHooks fs args.usePresets = .ok known) :
    ∃ r' compiled, s.runOptions re fs args = .ok r' ∧
      AddsStable r.options r'.options (args.presetNames known) compiled := by
  obtain ⟨hunstable, patterns, hpatterns⟩ := presetHooks_addStable re hknown
  unfold runOptions at halone ⊢
  obtain ⟨none', hnone, h⟩ := bind_eq_ok.1 halone
  cases hnone
  obtain ⟨stable, hstable, h⟩ := bind_eq_ok.1 h
  obtain ⟨unstable, hlisted, h⟩ := bind_eq_ok.1 h
  obtain ⟨stablePatterns, hstablePatterns, h⟩ := bind_eq_ok.1 h
  obtain ⟨functions, hfunctions, h⟩ := bind_eq_ok.1 h
  obtain ⟨config, hconfig, h⟩ := bind_eq_ok.1 h
  obtain ⟨unstablePatterns, hunstablePatterns, h⟩ := bind_eq_ok.1 h
  obtain ⟨options, hoptions, h⟩ := bind_eq_ok.1 h
  -- the caller's own lists leave no room for what presets bring in
  obtain ⟨sources, hsources, compiled, hcompiled⟩ : ∃ sources : List String,
      args.changes.stablePatterns.getD
        (known.stablePatterns ++ stablePatterns) = sources ++
        args.changes.stablePatterns.getD stablePatterns ∧
      ∃ compiled, compileHookPatterns re sources = .ok compiled := by
    cases args.changes.stablePatterns with
    | none => exact ⟨known.stablePatterns, rfl, patterns, hpatterns⟩
    | some given => exact ⟨[], rfl, [], rfl⟩
  have hnames : args.changes.stableHooks.getD (known.stable ++ stable) =
      args.presetNames known ++ args.changes.stableHooks.getD stable := by
    unfold OptionArguments.presetNames
    cases args.changes.stableHooks <;> rfl
  obtain ⟨options', hbuild, hadds⟩ :=
    OptionSettings.build_addsStable (mapError_eq_ok.1 hoptions)
      (args.presetNames known) hcompiled
  split at h
  · cases h
  · next hlimit =>
    cases h
    refine ⟨⟨options', args.changes.root.getD s.root,
      args.changes.compilerConfig <|> config⟩, compiled, ?_,
      hadds⟩
    refine bind_eq_ok.2 ⟨known, hknown,
      bind_eq_ok.2 ⟨stable, hstable, bind_eq_ok.2 ⟨unstable, hlisted,
      bind_eq_ok.2 ⟨stablePatterns, hstablePatterns,
        bind_eq_ok.2 ⟨functions, hfunctions,
      bind_eq_ok.2 ⟨config, hconfig,
        bind_eq_ok.2 ⟨unstablePatterns, hunstablePatterns,
      bind_eq_ok.2 ⟨options', ?_, ?_⟩⟩⟩⟩⟩⟩⟩⟩
    · refine mapError_eq_ok.2 ?_
      rw [hunstable, hnames, hsources]
      exact hbuild
    · exact if_neg hlimit

/-- Settings are answered for by themselves: with presets under them the
options can still be built, and they answer as the settings alone do. The only
exception is a hook that a preset has by name and the settings call unstable
by a pattern alone, which is taken to be stable. -/
theorem runOptions_keeps_answers (args : OptionArguments) {r : RunOptions}
    {call : Node} {stable : Bool}
    (halone : s.runOptions re fs { args with usePresets := some false } = .ok r)
    (hknown : s.presetHooks fs args.usePresets = .ok known)
    (hanswer : configured r.options call = .ok (some stable)) :
    ∃ r', s.runOptions re fs args = .ok r' ∧
      (configured r'.options call = .ok (some stable) ↔
        ¬ Outranks (args.presetNames known) r.options call) ∧
      (Outranks (args.presetNames known) r.options call →
        configured r'.options call = .ok (some true)) := by
  obtain ⟨r', compiled, hr', hadds⟩ := runOptions_addsStable args halone hknown
  obtain ⟨hout, hkeeps⟩ := configured_of_addsStable hadds hanswer
  refine ⟨r', hr', ⟨fun hsame houtranks => ?_, hkeeps⟩, hout⟩
  -- an outranked answer is an unstable one, and it has become stable
  have hstable := Except.ok.inj (hsame.symm.trans (hout houtranks))
  have hunstable := Except.ok.inj (hanswer.symm.trans houtranks.unstable)
  cases hstable.symm.trans hunstable

end Settings

/-! ### A project with a preset -/

namespace Shop

/-- A project whose only file is the description of a package, on a machine that
follows documents so deep. -/
def filesWith (description : StoredFile) (nesting : Nat := 970) :
    FileSystem where
  items := [(["package.json"], .file description)]
  limits := { nesting }

section

variable (description : StoredFile) (nesting : Nat)

theorem look_filesWith :
    (filesWith description nesting).look ⟨.root, ["package.json"]⟩ =
    .ok (some (["package.json"], .file description)) := by
  have hsize : (⟨.root, ["package.json"]⟩ : Path).size ≤ 4095 ∧
      Path.bytesOf "package.json" ≤ 255 := by decide
  exact FileSystem.look_of_item (by decide) (by decide) hsize rfl rfl

/-- The description can be read. -/
theorem file?_filesWith :
    (filesWith description nesting).file? ⟨.root, ["package.json"]⟩ =
      some description :=
  FileSystem.file?_of_look (look_filesWith description nesting)

/-- And it is the one that is found. -/
theorem description?_filesWith :
    Preset.description? (filesWith description nesting) ⟨.root, []⟩ =
      .ok (some ⟨.root, ["package.json"]⟩) := by
  have hresolve : (filesWith description nesting).resolve ⟨.root, []⟩ =
      .ok ⟨.root, []⟩ := by
    unfold FileSystem.resolve
    rw [FileSystem.place]
    rfl
  have hdirectory : (filesWith description nesting).directoryOf ⟨.root, []⟩ =
      .ok ⟨.root, []⟩ := by
    have hlook : (filesWith description nesting).look ⟨.root, []⟩ =
        .ok (some ([], .directory)) := by
      refine FileSystem.look_of_walk rfl (Nat.le_of_ble_eq_true rfl) ?_
      rw [FileSystem.walk]
      rfl
    unfold FileSystem.directoryOf FileSystem.isFile
    rw [hlook]
    rfl
  have hdescribed : Preset.isDescribed (filesWith description nesting)
      ⟨.root, []⟩ = .ok true :=
    bind_eq_ok.2 ⟨true,
      FileSystem.isFile_of_look (look_filesWith description nesting), rfl⟩
  refine bind_eq_ok.2 ⟨_, hresolve, bind_eq_ok.2 ⟨_, hdirectory, ?_⟩⟩
  exact bind_eq_ok.2 ⟨some ⟨.root, []⟩,
    bind_eq_ok.2 ⟨true, hdescribed, rfl⟩, rfl⟩

end

/-- The description of a package that depends on a library with a preset. -/
def package : StoredFile where
  bytes := "\x7b\"dependencies\": \x7b\"zustand\": \"4\"\x7d\x7d".toUTF8

/-- A project with such a package. -/
def files : FileSystem where
  items := [(["package.json"], .file package)]

/-- Settings that call the hooks of a spelling unstable. -/
def settings (pattern : String) : Settings where
  root := ⟨.root, []⟩
  entries := [("unstable_hook_patterns", .list [.text pattern])]

/-- A call of a hook. -/
def call (hook : String) : Node :=
  (Sketch.program [.run (.call hook [])]).at [0, 0]

theorem file?_package : files.file? ⟨.root, ["package.json"]⟩ = some package :=
  file?_filesWith package 970

theorem description?_files : Preset.description? files ⟨.root, []⟩ =
    .ok (some ⟨.root, ["package.json"]⟩) := description?_filesWith package 970

/-- What the presets of the project know. -/
def known : KnownHooks :=
  { stable := ["useStore", "useShallow"], stablePatterns := ["^use\\w*Store$"] }

/-- The package depends on the library, so its preset is taken. -/
theorem exists_description : ∃ description,
    Preset.content? files ⟨.root, ["package.json"]⟩ =
      .ok (some (.table description)) ∧
      (Preset.dependenciesOf description).filterMap Preset.find? =
      [⟨"zustand", known⟩] := by
  have hread :
    ((package.text?.bind fun text =>
    (Json.read files.limits.nesting text.toList).toOption).bind
      Value.asTable?).any
        (fun t => (Preset.dependenciesOf t).filterMap Preset.find? ==
          [⟨"zustand", known⟩]) = true := by
    decide +kernel
  obtain ⟨description, htable, hpresets⟩ := (Option.any_eq_true _ _).1 hread
  obtain ⟨v, hv, htable⟩ := Option.bind_eq_some_iff.1 htable
  obtain ⟨text, htext, hv⟩ := Option.bind_eq_some_iff.1 hv
  cases v with
  | table entries =>
    cases htable
    refine ⟨_, FileSystem.document?_eq_some.2 ⟨text, ?_, toOption_eq_some.1 hv⟩,
      by simpa using hpresets⟩
    rw [file?_package, Option.bind_some, htext]
  | _ => cases htable

/-- The settings do not matter for what the presets know. -/
theorem presetHooks_files (pattern : String) :
    (settings pattern).presetHooks files none = .ok known := by
  obtain ⟨description, hcontent, hpresets⟩ := exists_description
  have hproject : Preset.ofProject files ⟨.root, []⟩ =
      .ok [⟨"zustand", known⟩] := by
    refine bind_eq_ok.2 ⟨_, mapError_eq_ok.2 description?_files, ?_⟩
    refine bind_eq_ok.2 ⟨_, mapError_eq_ok.2 hcontent, ?_⟩
    simp only [hpresets]
    rfl
  exact bind_eq_ok.2 ⟨_, hproject, congrArg Except.ok (by decide +kernel)⟩

/-- The settings alone call a hook unstable, though not by its name. -/
structure IsUnstableAlone (pattern hook : String) (r : RunOptions) : Prop where
  built : (settings pattern).runOptions Regex.compiler files
    { usePresets := some false } = .ok r
  answer : Stability.configured r.options (call hook) = .ok (some false)
  unnamed : Stability.isNamed r.options r.options.unstableHooks false
    (call hook) = .ok false

/-- What has to be evaluated to see that the settings alone call a hook
unstable. -/
theorem exists_isUnstableAlone (pattern hook : String)
    (h : ((settings pattern).runOptions Regex.compiler files
      { usePresets := some false }).toOption.any (fun r =>
      (Stability.configured r.options (call hook)).toOption.any
        (· == some false) &&
        (Stability.isNamed r.options r.options.unstableHooks false
          (call hook)).toOption.any (· == false)) = true) :
    ∃ r, IsUnstableAlone pattern hook r := by
  obtain ⟨r, hr, h⟩ := exists_of_any_toOption h
  rw [Bool.and_eq_true] at h
  obtain ⟨answer, hanswer, hfalse⟩ := exists_of_any_toOption h.1
  obtain ⟨named, hnamed, hunnamed⟩ := exists_of_any_toOption h.2
  obtain rfl : answer = some false := by simpa using hfalse
  obtain rfl : named = false := by simpa using hunnamed
  exact ⟨r, hr, hanswer, hnamed⟩

end Shop

namespace Settings

open Stability (configured settingNames)

/-- The answer about a hook that no preset names stays as it is. -/
theorem runOptions_keeps_freshData :
    ∃ r r', Shop.IsUnstableAlone "^useFresh" "useFreshData" r ∧
    (Shop.settings "^useFresh").runOptions Regex.compiler Shop.files
      {} = .ok r' ∧
    configured r'.options (Shop.call "useFreshData") = .ok (some false) := by
  obtain ⟨r, hr⟩ := Shop.exists_isUnstableAlone "^useFresh" "useFreshData"
    (by decide +kernel)
  obtain ⟨r', hr', hkeeps, -⟩ :=
    runOptions_keeps_answers {} hr.built (Shop.presetHooks_files _) hr.answer
  refine ⟨r, r', hr, hr', hkeeps.2 fun hout => ?_⟩
  have hunknown : ∀ name ∈ settingNames (Shop.call "useFreshData"),
      name ∉ Shop.known.stable := by
    decide +kernel
  obtain ⟨name, hname, hknown⟩ := hout.known
  exact hunknown name hname hknown

/-- Settings call a hook unstable by a pattern, and the name that a preset has
for it wins. -/
theorem runOptions_overrules_store :
    ∃ r r', Shop.IsUnstableAlone "^useStore$" "useStore" r ∧
    (Shop.settings "^useStore$").runOptions Regex.compiler Shop.files
      {} = .ok r' ∧
    configured r'.options (Shop.call "useStore") = .ok (some true) := by
  obtain ⟨r, hr⟩ := Shop.exists_isUnstableAlone "^useStore$" "useStore"
    (by decide +kernel)
  obtain ⟨r', compiled, hr', hadds⟩ :=
    runOptions_addsStable {} hr.built (Shop.presetHooks_files _)
  obtain ⟨hlisted, hdeclared⟩ := Stability.isNamed_eq_false.1 hr.unnamed
  have hknown : ∃ name ∈ settingNames (Shop.call "useStore"),
      name ∈ Shop.known.stable := by
    decide +kernel
  exact ⟨r, r', hr, hr',
    (Stability.configured_of_addsStable hadds hr.answer).1 ⟨hknown, hr.answer,
      hlisted, hdeclared⟩⟩

end Settings

end RenderLoop
