import RenderLoop.Project.Resolver
import RenderLoop.Proofs.Outcome
import RenderLoop.Proofs.Links
import Mathlib.Logic.ExistsUnique

/-!
# Options along a chain of configurations

A configuration that extends another by a relative path leads on to it, and
the configurations met this way form a chain: up to the first that cannot be
read, the first that extends nothing, or the fifth. The options of a chain are
taken over from its far end on, so each setting is in the end that of the
nearest configuration that has it (`takesNearest_of_overlay`). A configuration
met twice adds nothing to its first place in the chain.

Four things keep a chain from giving any options:

* a configuration on the way may not be looked at, or is nested deeper than
  the machine can follow (`Refuses`);
* a reference cannot be resolved: it runs in circles through links, or has a
  name that no file can have;
* a reference leads to the root, which has no name to complete;
* a base directory cannot be resolved. All of those on the chain are looked
  up, also one that a nearer configuration replaces.

The first three are told by `Breaks`, along the chain. The last is
`BasesResolve`.

> `ofConfig_takes_nearest`: the chain is unique; there are options iff it does
> not break and its base directories resolve; and each of them is then that of
> the nearest configuration which sets it.
-/

namespace RenderLoop.Resolver

variable {fs : FileSystem}

theorem eq_text_of_asText? {v : Value} {s : String} (h : v.asText? = some s) :
    v = .text s := by
  cases v <;> cases h
  rfl

theorem eq_table_of_asTable? {v : Value} {entries : Table Value}
    (h : v.asTable? = some entries) :
    v = .table entries := by
  cases v <;> cases h
  rfl

/-! ### Chains -/

/-- A configuration can be read, and this is what it holds. -/
def Holds (fs : FileSystem) (config : Path) (data : Table Value) : Prop :=
  ∃ text, (fs.file? config).bind StoredFile.text? = some text ∧
    Jsonc.read fs.limits.nesting text = .ok data

/-- A configuration ends the reading, whether or not there is one: it may not
be looked at, or it is nested too deep. -/
inductive Refuses (fs : FileSystem) (config : Path) : ProjectError → Prop where
  | look {e : PathError} (hlook : fs.look config = .error e) :
      Refuses fs config (.badPath e)
  | tooDeep {text : String}
      (htext : (fs.file? config).bind StoredFile.text? = some text)
      (hread : Jsonc.read fs.limits.nesting text = .error .tooDeep) :
      Refuses fs config (.tooDeep config)

/-- A configuration holds at most one table. -/
theorem Holds.unique {config : Path} {data other : Table Value}
    (h : Holds fs config data) (h' : Holds fs config other) : data = other := by
  obtain ⟨text, htext, hread⟩ := h
  obtain ⟨text', htext', hread'⟩ := h'
  obtain rfl := Option.some.inj (htext.symm.trans htext')
  exact Except.ok.inj (hread.symm.trans hread')

/-- What can be read is a file. -/
theorem isFile_of_text? {config : Path} {text : String}
    (h : (fs.file? config).bind StoredFile.text? = some text) :
    fs.isFile config = .ok true := by
  obtain ⟨f, hfile, -⟩ := Option.bind_eq_some_iff.1 h
  obtain ⟨place, hlook⟩ := FileSystem.exists_look_of_file? hfile
  exact FileSystem.isFile_of_look hlook

/-- What is read of a configuration is what it holds. -/
theorem data?_eq_some {config : Path} {data : Table Value} :
    data? fs config = .ok (some data) ↔ Holds fs config data := by
  unfold data?
  rw [bind_eq_ok]
  constructor
  · rintro ⟨isFile, -, h⟩
    cases isFile with
    | true => exact FileSystem.document?_eq_some.1 (mapError_eq_ok.1 h)
    | false => cases h
  · rintro ⟨text, htext, hread⟩
    refine ⟨true, mapError_eq_ok.2 (isFile_of_text? htext), mapError_eq_ok.2 ?_⟩
    exact FileSystem.document?_eq_some.2 ⟨text, htext, hread⟩

/-- Reading a configuration fails iff it refuses to be read. -/
theorem data?_eq_error {config : Path} {e : ProjectError} :
    data? fs config = .error e ↔ Refuses fs config e := by
  unfold data?
  rw [bind_eq_error, mapError_eq_error]
  constructor
  · rintro (⟨cause, hcause, rfl⟩ | ⟨isFile, -, h⟩)
    · exact .look (FileSystem.isFile_eq_error.1 hcause)
    · cases isFile with
      | false => cases h
      | true =>
        obtain ⟨file, hfile, rfl⟩ := mapError_eq_error.1 h
        obtain ⟨rfl, text, htext, hread⟩ :=
          FileSystem.document?_eq_error.1 hfile
        exact .tooDeep htext hread
  · intro h
    cases h with
    | look hlook => exact .inl ⟨_, FileSystem.isFile_eq_error.2 hlook, rfl⟩
    | tooDeep htext hread =>
      refine .inr ⟨true, mapError_eq_ok.2 (isFile_of_text? htext),
        mapError_eq_error.2 ⟨config, ?_, rfl⟩⟩
      exact FileSystem.document?_eq_error.2 ⟨rfl, _, htext, hread⟩

/-- A configuration names another one, seen from its own directory. -/
def RefersTo (data : Table Value) (written : String) : Prop :=
  (data.get? "extends").bind Value.asText? = some written ∧
    written.startsWith "." = true

instance (data : Table Value) (written : String) :
    Decidable (RefersTo data written) :=
  inferInstanceAs (Decidable (_ ∧ _))

/-- A configuration extends another, whose ending may be left out. -/
inductive Extends (fs : FileSystem) (config : Path) (data : Table Value) :
    Path → Prop where
  | written {written : String} {target : Path} (hrefers : RefersTo data written)
      (htarget : fs.realPath (config.parent.child written) = .ok target)
      (hsuffix : target.suffix = ".json") : Extends fs config data target
  | completed {written : String} {target next : Path}
      (hrefers : RefersTo data written)
      (htarget : fs.realPath (config.parent.child written) = .ok target)
      (hsuffix : target.suffix ≠ ".json")
      (hnext : target.withName? (target.name ++ ".json") = some next) :
        Extends fs config data next

/-- A configuration names another one by a path that cannot be followed: it
cannot be resolved, or it leads to the root. -/
inductive LeadsNowhere (fs : FileSystem) (config : Path) (data : Table Value) :
    Prop where
  | unresolved {written : String} {e : ProjectError}
      (hrefers : RefersTo data written)
      (htarget : fs.realPath (config.parent.child written) = .error e)
  | root {written : String} {target : Path} (hrefers : RefersTo data written)
      (htarget : fs.realPath (config.parent.child written) = .ok target)
      (hname : target.name = "")

/-- Among the configurations met from one, at most as many as given, is one
that refuses to be read, or one that can be read but not left. -/
inductive Breaks (fs : FileSystem) : Nat → Path → Prop where
  | refused {length : Nat} {config : Path} {e : ProjectError}
      (h : Refuses fs config e) :
      Breaks fs (length + 1) config
  | stuck {length : Nat} {config : Path} {data : Table Value}
      (hdata : Holds fs config data) (hlost : LeadsNowhere fs config data) :
      Breaks fs (length + 1) config
  | later {length : Nat} {config next : Path} {data : Table Value}
      (hdata : Holds fs config data) (hnext : Extends fs config data next)
      (h : Breaks fs length next) :
      Breaks fs (length + 1) config

/-- The configurations met from one, nearest first, at most as many as given. -/
inductive Chain (fs : FileSystem) :
    Nat → Path → List (Path × Value) → Prop where
  | full (config : Path) : Chain fs 0 config []
  | unreadable {length : Nat} {config : Path}
      (hdata : ∀ data, ¬ Holds fs config data) :
      Chain fs (length + 1) config []
  | last {length : Nat} {config : Path} {data : Table Value}
      (hdata : Holds fs config data)
      (hlast : ∀ next, ¬ Extends fs config data next) :
      Chain fs (length + 1) config [(config, optionsOf data)]
  | next {length : Nat} {config next : Path} {data : Table Value}
      {rest : List (Path × Value)} (hdata : Holds fs config data)
      (hnext : Extends fs config data next)
      (hrest : Chain fs length next rest) :
      Chain fs (length + 1) config ((config, optionsOf data) :: rest)

/-- A table refers to at most one other configuration. -/
theorem RefersTo.unique {data : Table Value} {written other : String}
    (h : RefersTo data written) (h' : RefersTo data other) : written = other :=
  Option.some.inj (h.1.symm.trans h'.1)

theorem suffix_of_name_eq_empty {p : Path} (h : p.name = "") :
    p.suffix ≠ ".json" := by
  unfold Path.suffix
  rw [h]
  decide

/-- A path can be given another name, unless it has none. -/
theorem withName?_eq_none {p : Path} {name : String} :
    p.withName? name = none ↔ p.name = "" := by
  unfold Path.withName?
  split <;> simp_all

/-- So a configuration extends at most one other one. -/
theorem Extends.unique {config next other : Path} {data : Table Value}
    (h : Extends fs config data next) (h' : Extends fs config data other) :
    next = other := by
  cases h with
  | written hrefers htarget hsuffix =>
    cases h' with
    | written hrefers' htarget' _ =>
      obtain rfl := hrefers.unique hrefers'
      exact Except.ok.inj (htarget.symm.trans htarget')
    | completed hrefers' htarget' hsuffix' _ =>
      obtain rfl := hrefers.unique hrefers'
      obtain rfl := Except.ok.inj (htarget.symm.trans htarget')
      exact absurd hsuffix hsuffix'
  | completed hrefers htarget hsuffix hnext =>
    cases h' with
    | written hrefers' htarget' hsuffix' =>
      obtain rfl := hrefers.unique hrefers'
      obtain rfl := Except.ok.inj (htarget.symm.trans htarget')
      exact absurd hsuffix' hsuffix
    | completed hrefers' htarget' _ hnext' =>
      obtain rfl := hrefers.unique hrefers'
      obtain rfl := Except.ok.inj (htarget.symm.trans htarget')
      exact Option.some.inj (hnext.symm.trans hnext')

/-- What a configuration extends was found behind the text it refers to. -/
theorem Extends.exists_target {config next : Path} {data : Table Value}
    (h : Extends fs config data next) :
      ∃ written target, RefersTo data written ∧
      fs.realPath (config.parent.child written) = .ok target ∧
      target.name ≠ "" := by
  cases h with
  | written hrefers htarget hsuffix =>
    exact ⟨_, _, hrefers, htarget,
      fun hname => suffix_of_name_eq_empty hname hsuffix⟩
  | completed hrefers htarget _ hnext =>
    refine ⟨_, _, hrefers, htarget, fun hname => ?_⟩
    rw [withName?_eq_none.2 hname] at hnext
    cases hnext

/-- To extend a configuration and to lead nowhere exclude each other. -/
theorem Extends.not_leadsNowhere {config next : Path} {data : Table Value}
    (h : Extends fs config data next) : ¬ LeadsNowhere fs config data := by
  obtain ⟨written, target, hrefers, htarget, hname⟩ := h.exists_target
  rintro (⟨hrefers', hcircle⟩ | ⟨hrefers', htarget', hroot⟩)
  · obtain rfl := hrefers.unique hrefers'
    cases htarget.symm.trans hcircle
  · obtain rfl := hrefers.unique hrefers'
    obtain rfl := Except.ok.inj (htarget.symm.trans htarget')
    exact hname hroot

/-- A configuration extends nothing, extends one other, or names one that
cannot be found. -/
theorem extended?_cases (fs : FileSystem) (config : Path) (data : Table Value) :
    (extended? fs config data = .ok none ∧ ¬ ∃ written, RefersTo data written) ∨
      (∃ next, extended? fs config data = .ok (some next) ∧
        Extends fs config data next) ∨
      ∃ e, extended? fs config data = .error e ∧
        LeadsNowhere fs config data := by
  unfold extended?
  split
  · next written hwritten =>
    split
    · next hrelative =>
      have hrefers : RefersTo data written := ⟨by rw [hwritten]; rfl, hrelative⟩
      right
      cases htarget : fs.realPath (config.parent.child written) with
      | error e => exact .inr ⟨e, rfl, .unresolved hrefers htarget⟩
      | ok target =>
        by_cases hsuffix : target.suffix = ".json"
        · refine .inl ⟨target, ?_, .written hrefers htarget hsuffix⟩
          exact bind_eq_ok.2 ⟨target, rfl, if_pos (beq_iff_eq.2 hsuffix)⟩
        · cases hnext : target.withName? (target.name ++ ".json") with
          | some next =>
            refine .inl ⟨next, bind_eq_ok.2 ⟨target, rfl, ?_⟩,
              .completed hrefers htarget hsuffix hnext⟩
            rw [if_neg (mt beq_iff_eq.1 hsuffix), hnext]
            rfl
          | none =>
            refine .inr ⟨.emptyName target, ?_,
              .root hrefers htarget (withName?_eq_none.1 hnext)⟩
            refine bind_eq_error.2 (.inr ⟨target, rfl, ?_⟩)
            rw [if_neg (mt beq_iff_eq.1 hsuffix), hnext]
    · next hrelative =>
      refine .inl ⟨rfl, ?_⟩
      rintro ⟨other, hother, hdot⟩
      rw [hwritten] at hother
      cases hother
      exact hrelative hdot
  · next hnone =>
    refine .inl ⟨rfl, ?_⟩
    rintro ⟨written, hwritten, -⟩
    obtain ⟨v, hv, htext⟩ := Option.bind_eq_some_iff.1 hwritten
    exact hnone written (hv.trans (congrArg some (eq_text_of_asText? htext)))

/-- There is a chain from every configuration. -/
theorem exists_chain (fs : FileSystem) (length : Nat) (config : Path) :
    ∃ members, Chain fs length config members := by
  induction length generalizing config with
  | zero => exact ⟨[], .full config⟩
  | succ length ih =>
    by_cases hdata : ∃ data, Holds fs config data
    · obtain ⟨data, hdata⟩ := hdata
      by_cases hnext : ∃ next, Extends fs config data next
      · obtain ⟨next, hnext⟩ := hnext
        obtain ⟨rest, hrest⟩ := ih next
        exact ⟨_, .next hdata hnext hrest⟩
      · exact ⟨_, .last hdata fun next h => hnext ⟨next, h⟩⟩
    · exact ⟨[], .unreadable fun data h => hdata ⟨data, h⟩⟩

/-- There is only one chain from a configuration. -/
theorem Chain.unique {length : Nat} {config : Path}
    {members others : List (Path × Value)} (h : Chain fs length config members)
    (h' : Chain fs length config others) : members = others := by
  induction h generalizing others with
  | full config => cases h'; rfl
  | unreadable hdata =>
    cases h' with
    | unreadable _ => rfl
    | last hdata' _ => exact absurd hdata' (hdata _)
    | next hdata' _ _ => exact absurd hdata' (hdata _)
  | last hdata hlast =>
    cases h' with
    | unreadable hdata' => exact absurd hdata (hdata' _)
    | last hdata' _ => rw [hdata.unique hdata']
    | next hdata' hnext _ =>
      obtain rfl := hdata.unique hdata'
      exact absurd hnext (hlast _)
  | next hdata hnext _ ih =>
    cases h' with
    | unreadable hdata' => exact absurd hdata (hdata' _)
    | last hdata' hlast =>
      obtain rfl := hdata.unique hdata'
      exact absurd hnext (hlast _)
    | next hdata' hnext' hrest' =>
      obtain rfl := hdata.unique hdata'
      obtain rfl := hnext.unique hnext'
      rw [ih hrest']

/-- Every member of a chain stands there with the options it holds. -/
theorem Chain.options_eq {length : Nat} {config : Path}
    {members : List (Path × Value)} (h : Chain fs length config members)
    {m : Path × Value} (hm : m ∈ members) :
    ∃ data, Holds fs m.1 data ∧ m.2 = optionsOf data := by
  induction h with
  | full config => cases hm
  | unreadable _ => cases hm
  | last hdata _ =>
    obtain rfl := List.mem_singleton.1 hm
    exact ⟨_, hdata, rfl⟩
  | next hdata _ _ ih =>
    rcases List.mem_cons.1 hm with rfl | hm
    · exact ⟨_, hdata, rfl⟩
    · exact ih hm

/-- A configuration that a chain meets twice holds the same options both
times. -/
theorem Chain.options_eq_of_path_eq {length : Nat} {config : Path}
    {members : List (Path × Value)} (h : Chain fs length config members)
    {m m' : Path × Value} (hm : m ∈ members) (hm' : m' ∈ members)
    (hpath : m.1 = m'.1) : m.2 = m'.2 := by
  obtain ⟨data, hdata, hoptions⟩ := h.options_eq hm
  obtain ⟨data', hdata', hoptions'⟩ := h.options_eq hm'
  rw [hpath] at hdata
  rw [hoptions, hoptions', hdata.unique hdata']

/-! ### Following a chain -/

/-- A configuration that cannot be read ends the chain before it. -/
theorem chain_of_unreadable {length : Nat} {config : Path}
    (h : data? fs config = .ok none) :
    chain fs (length + 1) config = .ok [] := by
  unfold chain
  rw [h]
  rfl

/-- One that can be read is a member, followed by the chain from what it
extends. -/
theorem chain_of_readable {length : Nat} {config : Path} {data : Table Value}
    (h : Holds fs config data) : chain fs (length + 1) config =
      extended? fs config data >>= fun found =>
        found.elim (.ok [(config, optionsOf data)]) fun next =>
          chain fs length next >>= fun rest =>
            .ok ((config, optionsOf data) :: rest) := by
  conv => lhs; unfold chain
  rw [data?_eq_some.2 h]
  show extended? fs config data >>= _ = _
  refine congrArg _ (funext fun found => ?_)
  cases found <;> rfl

theorem Extends.extended?_eq {config next : Path} {data : Table Value}
    (h : Extends fs config data next) :
    extended? fs config data = .ok (some next) := by
  rcases extended?_cases fs config data with ⟨-, hrefers⟩ |
    ⟨other, hother, hextends⟩ | ⟨e, -, hlost⟩
  · obtain ⟨written, _, hwritten, -, -⟩ := h.exists_target
    exact absurd ⟨written, hwritten⟩ hrefers
  · rw [hother, hextends.unique h]
  · exact absurd hlost h.not_leadsNowhere

/-- One configuration fewer: a chain breaks at its first configuration or
behind it. -/
theorem breaks_succ {length : Nat} {config : Path} {data : Table Value}
    (hdata : Holds fs config data) :
    Breaks fs (length + 1) config ↔ LeadsNowhere fs config data ∨
      ∃ next, Extends fs config data next ∧ Breaks fs length next := by
  constructor
  · intro h
    cases h with
    | refused h => cases (data?_eq_some.2 hdata).symm.trans (data?_eq_error.2 h)
    | stuck hdata' hlost => exact .inl (hdata.unique hdata' ▸ hlost)
    | later hdata' hnext h => exact .inr ⟨_, hdata.unique hdata' ▸ hnext, h⟩
  · rintro (hlost | ⟨next, hnext, h⟩)
    · exact .stuck hdata hlost
    · exact .later hdata hnext h

/-- The chain that is followed is the chain there is, unless it breaks. -/
theorem Chain.chain_cases {length : Nat} {config : Path}
    {members : List (Path × Value)} (h : Chain fs length config members) :
    (chain fs length config = .ok members ∧ ¬ Breaks fs length config) ∨
      (∃ e, chain fs length config = .error e) ∧ Breaks fs length config := by
  induction h with
  | full config =>
    refine .inl ⟨rfl, fun h => ?_⟩
    cases h
  | @unreadable length config hdata =>
    cases hread : data? fs config with
    | error e =>
      refine .inr ⟨⟨e, ?_⟩, .refused (data?_eq_error.1 hread)⟩
      unfold chain
      exact bind_eq_error.2 (.inl hread)
    | ok found =>
      cases found with
      | some data => exact absurd (data?_eq_some.1 hread) (hdata data)
      | none =>
        refine .inl ⟨chain_of_unreadable hread, fun h => ?_⟩
        cases h with
        | refused h => cases hread.symm.trans (data?_eq_error.2 h)
        | stuck hheld _ => exact hdata _ hheld
        | later hheld _ _ => exact hdata _ hheld
  | @last length config data hdata hlast =>
    rw [chain_of_readable hdata, breaks_succ hdata]
    rcases extended?_cases fs config data with ⟨hnone, hrefers⟩ |
      ⟨next, -, hnext⟩ | ⟨e, herror, hlost⟩
    · refine .inl ⟨bind_eq_ok.2 ⟨none, hnone, rfl⟩, ?_⟩
      rintro ((⟨h, -⟩ | ⟨h, -, -⟩) | ⟨next, hnext, -⟩)
      · exact hrefers ⟨_, h⟩
      · exact hrefers ⟨_, h⟩
      · exact hlast next hnext
    · exact absurd hnext (hlast next)
    · exact .inr ⟨⟨e, bind_eq_error.2 (.inl herror)⟩, .inl hlost⟩
  | @next length config next data rest hdata hnext _ ih =>
    rw [chain_of_readable hdata, breaks_succ hdata, hnext.extended?_eq]
    -- the step itself succeeds, so that only the rest of the chain can fail
    rcases ih with ⟨hok, hfree⟩ | ⟨⟨e, herror⟩, hbreaks⟩
    · refine .inl ⟨bind_eq_ok.2 ⟨_, rfl, bind_eq_ok.2 ⟨rest, hok, rfl⟩⟩, ?_⟩
      rintro (hlost | ⟨other, hother, h⟩)
      · exact hnext.not_leadsNowhere hlost
      · exact hfree (hnext.unique hother ▸ h)
    · refine .inr
        ⟨⟨e, bind_eq_error.2 (.inr ⟨_, rfl, bind_eq_error.2 (.inl herror)⟩)⟩,
        .inr ?_⟩
      exact ⟨next, hnext, hbreaks⟩

/-! ### Settings -/

/-- The base directory that options set, as written. -/
def base? (options : Value) : Option String :=
  (options.get? "baseUrl").bind Value.asText?

/-- The table of aliases that options set. -/
def paths? (options : Value) : Option (Table Value) :=
  (options.get? "paths").bind Value.asTable?

/-- Options in a table, with a base directory that is a text. -/
def WellTyped (options : Value) : Prop :=
  options.asTable?.isSome ∧ ∀ v ∈ options.get? "baseUrl", v.asText?.isSome

instance (options : Value) : Decidable (WellTyped options) :=
  inferInstanceAs (Decidable (_ ∧ _))

/-- The first of several configurations that has a setting, with what it
sets. -/
def nearest {α : Type} (setting : Value → Option α)
    (members : List (Path × Value)) :
    Option (Path × α) :=
  members.findSome? fun m => (setting m.2).map fun v => (m.1, v)

/-- A resolver has each setting of the nearest configuration with that
setting, seen from there. -/
structure TakesNearest (fs : FileSystem) (members : List (Path × Value))
    (r : Resolver) : Prop where
  files : r.files = fs
  base_unset : nearest base? members = none → r.baseUrl = none
  base_set : ∀ config written, nearest base? members = some (config, written) →
    ∃ directory, fs.realPath (config.parent.child written) = .ok directory ∧
      r.baseUrl = some directory
  aliases : r.aliases =
    ((nearest paths? members).map fun found => targetsOf found.2).getD []
  aliasBase : r.aliasBase = (nearest paths? members).map fun found =>
    found.1.parent

/-- The base directory of every configuration can be found. -/
def BasesResolve (fs : FileSystem) (members : List (Path × Value)) : Prop :=
  ∀ m ∈ members, ∀ written, base? m.2 = some written →
    ∃ directory, fs.realPath (m.1.parent.child written) = .ok directory

/-- Takes over the options of several configurations, the nearest first in the
list and last to be taken. -/
def overlay (fs : FileSystem) (members : List (Path × Value)) :
    Except ProjectError Resolver :=
  members.reverse.foldlM (fun r m => r.withOptions m.1 m.2) { files := fs }

/-- The nearest setting is that of the first member, if it has one. -/
theorem nearest_cons {α : Type} (setting : Value → Option α) (m : Path × Value)
    (rest : List (Path × Value)) : nearest setting (m :: rest) =
      ((setting m.2).map fun v => (m.1, v)).or (nearest setting rest) := by
  unfold nearest
  rw [List.findSome?_cons]
  cases setting m.2 <;> rfl

/-- The options of a member are laid over those of all the members behind
it. -/
theorem overlay_cons (fs : FileSystem) (m : Path × Value)
    (rest : List (Path × Value)) :
    overlay fs (m :: rest) = overlay fs rest >>= fun r =>
      r.withOptions m.1 m.2 := by
  unfold overlay
  rw [List.reverse_cons, List.foldlM_append]
  refine congrArg _ (funext fun r => ?_)
  rw [List.foldlM_cons]
  exact bind_pure _

/-- The two nearest settings determine the resolver. -/
theorem TakesNearest.unique {members : List (Path × Value)} {r r' : Resolver}
    (h : TakesNearest fs members r) (h' : TakesNearest fs members r') :
    r = r' := by
  have hbase : r.baseUrl = r'.baseUrl := by
    cases hnearest : nearest base? members with
    | none => rw [h.base_unset hnearest, h'.base_unset hnearest]
    | some found =>
      obtain ⟨directory, hdirectory, hr⟩ := h.base_set found.1 found.2 hnearest
      obtain ⟨directory', hdirectory', hr'⟩ :=
        h'.base_set found.1 found.2 hnearest
      rw [hr, hr', Except.ok.inj (hdirectory.symm.trans hdirectory')]
  obtain ⟨files, baseUrl, aliases, aliasBase⟩ := r
  obtain ⟨files', baseUrl', aliases', aliasBase'⟩ := r'
  obtain rfl : baseUrl = baseUrl' := hbase
  obtain rfl : files = files' := h.files.trans h'.files.symm
  obtain rfl : aliases = aliases' := h.aliases.trans h'.aliases.symm
  obtain rfl : aliasBase = aliasBase' := h.aliasBase.trans h'.aliasBase.symm
  rfl

/-! ### Taking options over -/

/-- Well-typed options settle the base directory, the only thing that can
fail, and then the aliases. -/
theorem WellTyped.withOptions_eq {options : Value} (h : WellTyped options)
    (r : Resolver) (config : Path) : r.withOptions config options =
      ((base? options).elim (.ok r.baseUrl) fun written =>
        some <$> r.files.realPath (config.parent.child written)) >>=
          fun baseUrl =>
      .ok { r with
        baseUrl
        aliases := ((paths? options).map targetsOf).getD r.aliases
        aliasBase := ((paths? options).map fun _ => config.parent).or
          r.aliasBase } := by
  obtain ⟨htable, htext⟩ := h
  obtain ⟨entries, hentries⟩ := Option.isSome_iff_exists.1 htable
  obtain rfl := eq_table_of_asTable? hentries
  simp only [withOptions, base?, paths?, Value.get?] at htext ⊢
  generalize Table.get? entries "paths" = paths
  generalize Table.get? entries "baseUrl" = base at htext ⊢
  cases base with
  | none =>
    cases paths with
    | none => rfl
    | some v => cases v <;> rfl
  | some v =>
    obtain ⟨written, hwritten⟩ := Option.isSome_iff_exists.1 (htext v rfl)
    obtain rfl := eq_text_of_asText? hwritten
    cases paths with
    | none => rfl
    | some v => cases v <;> rfl

/-- Well typed options can be laid over a resolver exactly when the base they
name resolves. -/
theorem WellTyped.exists_withOptions {options : Value} (h : WellTyped options)
    (r : Resolver) (config : Path) :
    (∃ r', r.withOptions config options = .ok r') ↔
      ∀ written, base? options = some written →
        ∃ directory, r.files.realPath (config.parent.child written) =
          .ok directory := by
  rw [h.withOptions_eq]
  cases base? options with
  | none =>
    exact ⟨fun _ _ hwritten => absurd hwritten (by simp), fun _ => ⟨_, rfl⟩⟩
  | some written =>
    constructor
    · rintro ⟨r', h⟩ _ hwritten
      cases hwritten
      obtain ⟨baseUrl, hbase, -⟩ := bind_eq_ok.1 h
      obtain ⟨directory, hdirectory, -⟩ := bind_eq_ok.1 hbase
      exact ⟨directory, hdirectory⟩
    · intro h
      obtain ⟨directory, hdirectory⟩ := h written rfl
      exact ⟨_, bind_eq_ok.2 ⟨some directory,
        bind_eq_ok.2 ⟨directory, hdirectory, rfl⟩, rfl⟩⟩

/-- A nearer configuration overrides what it sets itself and leaves the rest
as it was. -/
theorem TakesNearest.withOptions {m : Path × Value} {rest : List (Path × Value)}
    {r r' : Resolver} (h : TakesNearest fs rest r) (hm : WellTyped m.2)
    (hstep : r.withOptions m.1 m.2 = .ok r') :
    TakesNearest fs (m :: rest) r' := by
  rw [hm.withOptions_eq] at hstep
  obtain ⟨baseUrl, hbase, hr'⟩ := bind_eq_ok.1 hstep
  cases hr'
  refine ⟨h.files, fun hnone => ?_, fun config written hsome => ?_, ?_, ?_⟩
  · rw [nearest_cons, Option.or_eq_none_iff, Option.map_eq_none_iff] at hnone
    rw [hnone.1] at hbase
    cases hbase
    exact h.base_unset hnone.2
  · rw [nearest_cons] at hsome
    cases hset : base? m.2 with
    | none =>
      rw [hset] at hbase hsome
      cases hbase
      exact h.base_set config written hsome
    | some own =>
      rw [hset] at hbase hsome
      cases hsome
      obtain ⟨directory, hdirectory, hbase⟩ := bind_eq_ok.1 hbase
      cases hbase
      exact ⟨directory, h.files ▸ hdirectory, rfl⟩
  · simp only [nearest_cons]
    cases paths? m.2 with
    | none => exact h.aliases
    | some _ => rfl
  · simp only [nearest_cons]
    cases paths? m.2 with
    | none => exact h.aliasBase
    | some _ => rfl

theorem takesNearest_nil (fs : FileSystem) :
    TakesNearest fs [] { files := fs } where
  files := rfl
  base_unset _ := rfl
  base_set _ _ h := by cases h
  aliases := rfl
  aliasBase := rfl

/-- Whatever the configurations, what is taken over in the end is the nearest
of each setting. -/
theorem takesNearest_of_overlay {members : List (Path × Value)} {r : Resolver}
    (hmembers : ∀ m ∈ members, WellTyped m.2) (h : overlay fs members = .ok r) :
    TakesNearest fs members r := by
  induction members generalizing r with
  | nil =>
    cases h
    exact takesNearest_nil fs
  | cons m rest ih =>
    obtain ⟨hm, hrest⟩ := List.forall_mem_cons.1 hmembers
    rw [overlay_cons] at h
    obtain ⟨far, hfar, h⟩ := bind_eq_ok.1 h
    exact (ih hrest hfar).withOptions hm h

/-- A chain of well typed options gives a resolver exactly when all its bases
resolve. -/
theorem exists_overlay {members : List (Path × Value)}
    (hmembers : ∀ m ∈ members, WellTyped m.2) :
    (∃ r, overlay fs members = .ok r) ↔ BasesResolve fs members := by
  induction members with
  | nil => exact ⟨fun _ _ hm => absurd hm List.not_mem_nil, fun _ => ⟨_, rfl⟩⟩
  | cons m rest ih =>
    obtain ⟨hm, hrest⟩ := List.forall_mem_cons.1 hmembers
    unfold BasesResolve at ih ⊢
    rw [overlay_cons, List.forall_mem_cons, ← ih hrest]
    constructor
    · rintro ⟨r, h⟩
      obtain ⟨far, hfar, h⟩ := bind_eq_ok.1 h
      have hfiles := (takesNearest_of_overlay hrest hfar).files
      exact ⟨hfiles ▸ (hm.exists_withOptions far m.1).1 ⟨r, h⟩, far, hfar⟩
    · rintro ⟨hown, far, hfar⟩
      have hfiles := (takesNearest_of_overlay hrest hfar).files
      obtain ⟨r, h⟩ := (hm.exists_withOptions far m.1).2 (hfiles ▸ hown)
      exact ⟨r, bind_eq_ok.2 ⟨far, hfar, h⟩⟩

/-! ### Configurations met twice -/

/-- Each configuration at the first place where it is met. -/
def distinct : List (Path × Value) → List (Path × Value)
  | [] => []
  | m :: rest => m :: (distinct rest).filter fun other => other.1 != m.1

theorem mem_of_mem_distinct {m : Path × Value} :
    ∀ {members : List (Path × Value)}, m ∈ distinct members → m ∈ members
  | [], h => h
  | first :: rest, h => by
    rcases List.mem_cons.1 h with rfl | h
    · exact List.mem_cons_self
    · exact List.mem_cons_of_mem _ (mem_of_mem_distinct (List.mem_filter.1 h).1)

/-- Whatever a chain holds is kept once. -/
theorem exists_mem_distinct {m : Path × Value} {members : List (Path × Value)}
    (h : m ∈ members) :
    ∃ first ∈ distinct members, first.1 = m.1 := by
  induction members with
  | nil => cases h
  | cons first rest ih =>
    by_cases hpath : first.1 = m.1
    · exact ⟨first, List.mem_cons_self, hpath⟩
    · rcases List.mem_cons.1 h with rfl | h
      · exact absurd rfl hpath
      · obtain ⟨found, hfound, heq⟩ := ih h
        refine ⟨found, List.mem_cons_of_mem _
          (List.mem_filter.2 ⟨hfound, bne_iff_ne.2 ?_⟩), heq⟩
        exact fun h => hpath (h.symm.trans heq)

/-- Members without a setting can be left out when its nearest value is looked
for. -/
theorem nearest_filter {α : Type} {setting : Value → Option α}
    {keep : Path × Value → Bool} {members : List (Path × Value)}
    (h : ∀ m ∈ members, keep m = false → setting m.2 = none) :
    nearest setting (members.filter keep) = nearest setting members := by
  induction members with
  | nil => rfl
  | cons m rest ih =>
    obtain ⟨hm, hrest⟩ := List.forall_mem_cons.1 h
    cases hkeep : keep m with
    | true =>
      rw [List.filter_cons_of_pos hkeep, nearest_cons, nearest_cons, ih hrest]
    | false =>
      rw [List.filter_cons_of_neg (by simp [hkeep]), nearest_cons,
        hm hkeep, ih hrest]
      rfl

/-- A configuration that stands with the same options wherever it is met
decides at its first place. -/
theorem nearest_distinct {α : Type} (setting : Value → Option α)
    {members : List (Path × Value)}
    (hsame : ∀ m ∈ members, ∀ m' ∈ members, m.1 = m'.1 → m.2 = m'.2) :
    nearest setting (distinct members) = nearest setting members := by
  induction members with
  | nil => rfl
  | cons m rest ih =>
    have hrest : nearest setting (distinct rest) = nearest setting rest :=
      ih fun a ha b hb =>
        hsame a (List.mem_cons_of_mem _ ha) b (List.mem_cons_of_mem _ hb)
    rw [distinct, nearest_cons, nearest_cons, ← hrest]
    cases hset : setting m.2 with
    | some v => rfl
    | none =>
      -- what is dropped behind a configuration has its options, and those lack
      -- the setting
      refine congrArg _ (nearest_filter fun other hother hdropped => ?_)
      have hpath : m.1 = other.1 := (bne_eq_false_iff_eq.1 hdropped).symm
      have hmem := List.mem_cons_of_mem m (mem_of_mem_distinct hother)
      rw [← hsame m List.mem_cons_self other hmem hpath, hset]

/-- Only the nearest settings of a chain count. -/
theorem TakesNearest.congr {members others : List (Path × Value)} {r : Resolver}
    (hbase : nearest base? members = nearest base? others)
    (hpaths : nearest paths? members = nearest paths? others)
    (h : TakesNearest fs members r) :
    TakesNearest fs others r where
  files := h.files
  base_unset hnone := h.base_unset (hbase.trans hnone)
  base_set config written hsome := h.base_set config written (hbase.trans hsome)
  aliases := hpaths ▸ h.aliases
  aliasBase := hpaths ▸ h.aliasBase

/-- Members that repeat a configuration change nothing: what they set was set
by the first of them. -/
theorem overlay_distinct {members : List (Path × Value)}
    (hmembers : ∀ m ∈ members, WellTyped m.2)
    (hsame : ∀ m ∈ members, ∀ m' ∈ members, m.1 = m'.1 → m.2 = m'.2)
    (r : Resolver) :
    overlay fs (distinct members) = .ok r ↔ overlay fs members = .ok r := by
  have hdistinct : ∀ m ∈ distinct members, WellTyped m.2 :=
    fun m hm => hmembers m (mem_of_mem_distinct hm)
  -- an overridden base directory is still looked up, so that both lists have to
  -- fail alike
  have hbases : BasesResolve fs (distinct members) ↔
      BasesResolve fs members := by
    refine ⟨fun h m hm written hset => ?_,
      fun h m hm => h m (mem_of_mem_distinct hm)⟩
    obtain ⟨first, hfirst, hpath⟩ := exists_mem_distinct hm
    have hoptions := hsame first (mem_of_mem_distinct hfirst) m hm hpath
    exact hpath ▸ h first hfirst written (hoptions ▸ hset)
  have hbase := nearest_distinct base? hsame
  have hpaths := nearest_distinct paths? hsame
  constructor
  · intro h
    obtain ⟨r', h'⟩ :=
      (exists_overlay hmembers).2
        (hbases.1 ((exists_overlay hdistinct).1 ⟨r, h⟩))
    have hr := (takesNearest_of_overlay hdistinct h).congr hbase hpaths
    rw [hr.unique (takesNearest_of_overlay hmembers h'), h']
  · intro h
    obtain ⟨r', h'⟩ :=
      (exists_overlay hdistinct).2
        (hbases.2 ((exists_overlay hmembers).1 ⟨r, h⟩))
    have hr := (takesNearest_of_overlay hdistinct h').congr hbase hpaths
    rw [(takesNearest_of_overlay hmembers h).unique hr, h']

/-! ### The options of a configuration -/

/-- The resolver of a configuration: its chain is followed, then the options
are laid over one another. -/
theorem ofConfig_eq {config start : Path} (h : fs.realPath config = .ok start) :
    ofConfig fs config = chain fs maxChain start >>= overlay fs := by
  unfold ofConfig
  rw [h]
  rfl

/-- It is made when the chain does not break and the members can be laid over
one another. -/
theorem ofConfig_eq_ok {config start : Path}
    (hstart : fs.realPath config = .ok start) {members : List (Path × Value)}
    (hchain : Chain fs maxChain start members) {r : Resolver} :
    ofConfig fs config = .ok r ↔ ¬ Breaks fs maxChain start ∧
      overlay fs members = .ok r := by
  rw [ofConfig_eq hstart]
  rcases hchain.chain_cases with ⟨hok, hfree⟩ | ⟨⟨e, herror⟩, hbreaks⟩
  · rw [hok]
    exact ⟨fun h => ⟨hfree, h⟩, fun h => h.2⟩
  · rw [herror]
    refine ⟨fun h => ?_, fun h => absurd hbreaks h.1⟩
    cases h

/-- Each compiler option is that of the nearest configuration on the chain
that sets it, seen from the directory of that configuration, and the two
options are independent of each other. A configuration met again changes
nothing. There are no options iff the chain breaks or a base directory, be it
one that is overridden, cannot be resolved. -/
theorem ofConfig_takes_nearest (fs : FileSystem) (config start : Path)
    (hstart : fs.realPath config = .ok start) :
    (∃! members, Chain fs maxChain start members) ∧
      ∀ members, Chain fs maxChain start members →
        (∀ m ∈ members, WellTyped m.2) → ((∃ r, ofConfig fs config = .ok r) ↔
          ¬ Breaks fs maxChain start ∧ BasesResolve fs members) ∧
        ∀ r, (ofConfig fs config = .ok r → TakesNearest fs members r) ∧
          (ofConfig fs config = .ok r ↔
            ¬ Breaks fs maxChain start ∧
              overlay fs (distinct members) = .ok r) := by
  refine ⟨?_, fun members hchain htyped => ⟨?_, fun r => ⟨fun h => ?_, ?_⟩⟩⟩
  · obtain ⟨members, hchain⟩ := exists_chain fs maxChain start
    exact ⟨members, hchain, fun others hothers => hothers.unique hchain⟩
  · simp only [ofConfig_eq_ok hstart hchain, exists_and_left,
      exists_overlay htyped]
  · exact takesNearest_of_overlay htyped ((ofConfig_eq_ok hstart hchain).1 h).2
  · rw [ofConfig_eq_ok hstart hchain, overlay_distinct htyped]
    exact fun m hm m' hm' hpath => hchain.options_eq_of_path_eq hm hm' hpath

namespace Layers

theorem linkAt?_linkless (hfs : ∀ e ∈ fs.items, ∀ target, e.2 ≠ .link target)
    (place : Place) :
    fs.linkAt? place = none := by
  refine FileSystem.linkAt?_of_item fun target => ?_
  unfold FileSystem.itemAt?
  split
  · simp
  · intro h
    obtain ⟨e, he, hlink⟩ := Option.map_eq_some_iff.1 h
    exact hfs e (List.mem_of_find?_eq_some he) target hlink

/-- Without links a path that does not climb is its own real path. -/
theorem realPath_linkless (hfs : ∀ e ∈ fs.items, ∀ target, e.2 ≠ .link target)
    {place : Place} (hup : ".." ∉ place)
    (hnames : ∀ name ∈ place, Path.nameFault? name = none) :
    fs.realPath ⟨.root, place⟩ = .ok ⟨.root, place⟩ :=
  FileSystem.realPath_of_plain ⟨hup, fun spot _ => linkAt?_linkless hfs spot⟩
    hnames

/-- A configuration that leaves its base directory to another. -/
def own : StoredFile where
  bytes := "\x7b\"extends\": \"./shared/base\",
    \"compilerOptions\": \x7b\"paths\": \x7b\"@/*\": [\"app/*\"]\x7d\x7d\x7d".toUTF8

/-- A configuration that extends the one it is extended by. -/
def shared : StoredFile where
  bytes := "\x7b\"extends\": \"../tsconfig.json\",
    \"compilerOptions\": \x7b\"baseUrl\": \"src\"\x7d\x7d".toUTF8

/-- Two configurations in two directories. -/
def files : FileSystem where
  items := [(["tsconfig.json"], .file own), (["shared"], .directory),
    (["shared", "base.json"], .file shared)]

def ownPath : Path := ⟨.root, ["tsconfig.json"]⟩

def sharedPath : Path := ⟨.root, ["shared", "base.json"]⟩

theorem exists_data {config : Path} {file : StoredFile} {p : Table Value → Prop}
    [DecidablePred p] (hfile : fs.file? config = some file)
    (h : (file.text?.bind fun text =>
    (Jsonc.read fs.limits.nesting text).toOption).any
      (fun data => decide (p data)) = true) :
    ∃ data, Holds fs config data ∧ p data := by
  obtain ⟨data, hdata, hp⟩ := (Option.any_eq_true _ _).1 h
  obtain ⟨text, htext, hread⟩ := Option.bind_eq_some_iff.1 hdata
  refine ⟨data, ⟨text, ?_, toOption_eq_some.1 hread⟩, of_decide_eq_true hp⟩
  rw [hfile, Option.bind_some, htext]

/-- The first configuration refers to the second and sets the aliases. -/
theorem exists_own :
    ∃ data, Holds files ownPath data ∧ RefersTo data "./shared/base" ∧
    WellTyped (optionsOf data) ∧ base? (optionsOf data) = none ∧
    (paths? (optionsOf data)).map (fun entries => (targetsOf entries).names) =
      some ["@/*"] := by
  have hfile : files.file? ownPath = some own :=
    FileSystem.file?_of_look
      (FileSystem.look_of_item (by decide) (by decide) (by decide) rfl rfl)
  exact exists_data hfile (by decide +kernel)

/-- The second one refers back to the first and sets the base. -/
theorem exists_shared : ∃ data, Holds files sharedPath data ∧
    RefersTo data "../tsconfig.json" ∧ WellTyped (optionsOf data) ∧
    base? (optionsOf data) = some "src" := by
  have hwalk : files.walk FileSystem.maxLinks [] sharedPath.names =
      .ok (some (sharedPath.names, .file shared)) := by
    rw [FileSystem.walk.eq_def]
    change files.walk FileSystem.maxLinks ["shared"] ["base.json"] = _
    rw [FileSystem.walk.eq_def]
    rfl
  have hfile : files.file? sharedPath = some shared :=
    FileSystem.file?_of_look
      (FileSystem.look_of_walk (by decide) (by decide) hwalk)
  exact exists_data hfile (by decide +kernel)

/-- Two configurations that extend each other never break their chain. -/
theorem not_breaks_of_turns {a b : Path} {dataA dataB : Table Value}
    (ha : Holds fs a dataA) (hab : Extends fs a dataA b) (hb : Holds fs b dataB)
    (hba : Extends fs b dataB a) (length : Nat) :
    ¬ Breaks fs length a ∧ ¬ Breaks fs length b := by
  induction length with
  | zero =>
    constructor <;> intro h <;> cases h
  | succ length ih =>
    rw [breaks_succ ha, breaks_succ hb]
    constructor
    · rintro (hlost | ⟨next, hnext, h⟩)
      · exact hab.not_leadsNowhere hlost
      · exact ih.2 (hab.unique hnext ▸ h)
    · rintro (hlost | ⟨next, hnext, h⟩)
      · exact hba.not_leadsNowhere hlost
      · exact ih.1 (hba.unique hnext ▸ h)

/-- Two configurations that extend each other: the chain is cut, the aliases
are those of the first and the base that of the second. -/
theorem ofConfig_takes_nearest_cyclic :
    ∃ r, ofConfig files ownPath = .ok r ∧
      r.baseUrl = some ⟨.root, ["shared", "src"]⟩ ∧
      r.aliasBase = some ⟨.root, []⟩ ∧ r.aliases.names = ["@/*"] := by
  obtain ⟨own, hown, hownRefers, hownTyped, hownBase, hownPaths⟩ := exists_own
  obtain ⟨shared, hshared, hsharedRefers, hsharedTyped, hsharedBase⟩ :=
    exists_shared
  have hlinkless : ∀ e ∈ files.items, ∀ target, e.2 ≠ .link target := by
    simp [files]
  have hforth : Extends files ownPath own sharedPath := by
    have htarget : files.realPath (ownPath.parent.child "./shared/base") =
        .ok ⟨.root, ["shared", "base"]⟩ :=
          realPath_linkless hlinkless (by decide) (by decide)
    exact .completed hownRefers htarget (by decide) (by decide)
  have hback : Extends files sharedPath shared ownPath := by
    refine .written hsharedRefers
      (FileSystem.realPath_of_leads (n := 0) (by decide) ?_) (by decide)
    refine .down (by decide) (linkAt?_linkless hlinkless _) (.up ?_)
    exact .down (by decide) (linkAt?_linkless hlinkless _) .here
  have hsrc : files.realPath (sharedPath.parent.child "src") =
      .ok ⟨.root, ["shared", "src"]⟩ :=
    realPath_linkless hlinkless (by decide) (by decide)
  -- the two configurations take turns until the chain is full
  have hchain : Chain files maxChain ownPath [(ownPath, optionsOf own),
      (sharedPath, optionsOf shared), (ownPath, optionsOf own),
      (sharedPath, optionsOf shared), (ownPath, optionsOf own)] :=
    .next hown hforth (.next hshared hback
      (.next hown hforth (.next hshared hback (.next hown hforth (.full _)))))
  have hstart : files.realPath ownPath = .ok ownPath :=
    realPath_linkless hlinkless (by decide) (by decide)
  obtain ⟨-, htakes⟩ := ofConfig_takes_nearest files ownPath ownPath hstart
  obtain ⟨hexists, htakes⟩ :=
    htakes _ hchain (by simp [hownTyped, hsharedTyped])
  have hfree : ¬ Breaks files maxChain ownPath :=
    (not_breaks_of_turns hown hforth hshared hback maxChain).1
  obtain ⟨r, hr⟩ :=
    hexists.2 ⟨hfree, by simp [BasesResolve, hownBase, hsharedBase, hsrc]⟩
  have hnearest := (htakes r).1 hr
  refine ⟨r, hr, ?_, ?_, ?_⟩
  · obtain ⟨directory, hdirectory, hbase⟩ :=
      hnearest.base_set sharedPath "src" (by
      simp [nearest_cons, hownBase, hsharedBase])
    rw [hbase, Except.ok.inj (hdirectory.symm.trans hsrc)]
  · obtain ⟨entries, hentries, -⟩ := Option.map_eq_some_iff.1 hownPaths
    rw [hnearest.aliasBase, nearest_cons, hentries]
    rfl
  · obtain ⟨entries, hentries, hnames⟩ := Option.map_eq_some_iff.1 hownPaths
    rw [hnearest.aliases, nearest_cons, hentries]
    exact hnames

/-- A configuration that extends the directory of the whole system. -/
def lost : StoredFile where
  bytes :=
    "\x7b\"extends\": \"..\", \"compilerOptions\": \x7b\"baseUrl\": \"src\"\x7d\x7d".toUTF8

def lostFiles : FileSystem where
  items := [(["tsconfig.json"], .file lost)]

/-- The base directory of the only configuration on the chain is found, and
yet there are no options. -/
theorem ofConfig_lost :
    ∃ options, Chain lostFiles maxChain ownPath [(ownPath, options)] ∧
    WellTyped options ∧ nearest base? [(ownPath, options)] =
      some (ownPath, "src") ∧
    lostFiles.realPath (ownPath.parent.child "src") = .ok ⟨.root, ["src"]⟩ ∧
    ¬ ∃ r, ofConfig lostFiles ownPath = .ok r := by
  have hlinkless : ∀ e ∈ lostFiles.items, ∀ target, e.2 ≠ .link target := by
    simp [lostFiles]
  have hfile : lostFiles.file? ownPath = some lost :=
    FileSystem.file?_of_look
      (FileSystem.look_of_item (by decide) (by decide) (by decide) rfl rfl)
  obtain ⟨data, hdata, hrefers, htyped, hbase⟩ :
      ∃ data, Holds lostFiles ownPath data ∧ RefersTo data ".." ∧
      WellTyped (optionsOf data) ∧ base? (optionsOf data) = some "src" :=
    exists_data hfile (by decide +kernel)
  have hroot : LeadsNowhere lostFiles ownPath data :=
    .root hrefers (FileSystem.realPath_of_leads (by decide) (.up .here))
      (by decide)
  have hchain : Chain lostFiles maxChain ownPath [(ownPath, optionsOf data)] :=
    .last hdata fun next hnext => hnext.not_leadsNowhere hroot
  have hstart : lostFiles.realPath ownPath = .ok ownPath :=
    realPath_linkless hlinkless (by decide) (by decide)
  refine ⟨optionsOf data, hchain, htyped, by simp [nearest_cons, hbase], ?_, ?_⟩
  · exact realPath_linkless hlinkless (by decide) (by decide)
  · rintro ⟨r, hr⟩
    exact ((ofConfig_eq_ok hstart hchain).1 hr).1 (.stuck hdata hroot)

end Layers

end RenderLoop.Resolver
