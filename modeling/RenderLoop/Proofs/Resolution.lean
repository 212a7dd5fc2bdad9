import RenderLoop.Proofs.Links
import RenderLoop.Proofs.Outcome

/-!
# When a specifier gets no answer

A specifier that names no source resolves to nothing, which is an answer.
There are three ways in which it gets none:

* it stands for the root, which has no name that an ending could be added to;
* one of its alias targets is not a text;
* a path that has to be looked at on the way to an answer may not be looked
  at, since a directory is closed or something is too long.

A candidate is looked for under one path after the other, and only those that
come before the first hit matter. `Resolver.Asks` says which paths the search
gets to, `Resolver.Halts` when it ends without an answer, and
`Resolver.StopsAt` the same for a specifier, which may have several
candidates.

> `Resolver.probe_eq_error`: a candidate gets no answer iff its search halts.

> `Resolver.resolve_eq_error`: nothing else stops a resolution.

What a specifier resolves to is again a path that can be written down and
resolved (`Resolver.legible_of_resolve`), for every resolver that is
made from the configurations of a project (`Resolver.legible_ofProject`). So a
file that was taken in by its resolved path can be asked for its own imports.
-/

namespace RenderLoop

/-! ### Legible paths -/

namespace Path

variable {p q : Path}

theorem Legible.parent (h : p.Legible) : p.parent.Legible := fun name hname =>
  h name (List.dropLast_subset _ hname)

/-- What is added to a legible path is legible. -/
theorem Legible.child (h : p.Legible) (written : String) :
    (p.child written).Legible := by
  unfold Path.child join
  split
  · exact legible_ofString written
  · intro name hname
    rcases List.mem_append.1 hname with hname | hname
    · exact h name hname
    · exact legible_ofString written name hname

theorem Legible.slash_not_mem_name (h : p.Legible) : '/' ∉ p.name.toList := by
  unfold name
  cases hlast : p.names.getLast? with
  | none => simp
  | some name => exact (h name (List.mem_of_mem_getLast? hlast)).2.2

/-- An ending of file names. -/
def IsEnding (ending : String) : Prop :=
  2 ≤ ending.toList.length ∧ '/' ∉ ending.toList

instance (ending : String) : Decidable (IsEnding ending) :=
  inferInstanceAs (Decidable (_ ∧ _))

/-- A name with an ending is a name. -/
theorem isName_append {front ending : String} (hfront : '/' ∉ front.toList)
    (hending : IsEnding ending) :
    IsName (front ++ ending) := by
  have hlength : 2 ≤ (front ++ ending).toList.length := by
    rw [String.toList_append, List.length_append]
    exact Nat.le_add_left_of_le hending.1
  refine ⟨?_, ?_, ?_⟩
  · intro hempty
    rw [hempty] at hlength
    exact absurd hlength (by decide)
  · intro hdot
    rw [hdot] at hlength
    exact absurd hlength (by decide)
  · rw [String.toList_append]
    exact List.mem_append.not.2 (not_or.2 ⟨hfront, hending.2⟩)

theorem Legible.withName? {name : String} (h : p.Legible) (hname : IsName name)
    (hq : p.withName? name = some q) : q.Legible := by
  unfold Path.withName? at hq
  split at hq
  · cases hq
  · cases hq
    intro other hother
    rcases List.mem_append.1 hother with hother | hother
    · exact h other (List.dropLast_subset _ hother)
    · rw [List.mem_singleton.1 hother]
      exact hname

theorem Legible.slash_not_mem_stem (h : p.Legible) : '/' ∉ p.stem.toList := by
  unfold stem
  rw [String.toList_ofList]
  exact fun hslash => h.slash_not_mem_name (List.mem_of_mem_take hslash)

end Path

namespace Resolver

open RenderLoop.Path (IsEnding isName_append)

theorem isEnding_sourceExtensions :
    ∀ ending ∈ sourceExtensions, IsEnding ending := by decide

theorem isEnding_compiledFrom {suffix ending : String}
    (h : ending ∈ compiledFrom suffix) :
    IsEnding ending := by
  have hall : ∀ endings ∈ [[".ts", ".tsx"], [".tsx"], [".mts"], [".cts"], []],
      ∀ ending ∈ endings, IsEnding ending := by decide
  refine hall (compiledFrom suffix) ?_ ending h
  unfold compiledFrom
  split <;> decide

/-- The files that a candidate may stand for are legible. -/
theorem legible_filesFor {c q : Path} (hc : c.Legible) (hq : q ∈ filesFor c) :
    q.Legible := by
  unfold filesFor at hq
  simp only [List.mem_append, List.mem_filterMap] at hq
  rcases hq with (hself | ⟨ending, hending, hq⟩) | ⟨ending, hending, hq⟩
  · split at hself
    · rw [List.mem_singleton.1 hself]
      exact hc
    · cases hself
  · exact hc.withName?
      (isName_append hc.slash_not_mem_stem (isEnding_compiledFrom hending)) hq
  · exact hc.withName?
      (isName_append hc.slash_not_mem_name
      (isEnding_sourceExtensions _ hending)) hq

/-- So are those in its directory. -/
theorem legible_indexFiles {c q : Path} (hc : c.Legible)
    (hq : q ∈ indexFiles c) : q.Legible := by
  obtain ⟨ending, -, rfl⟩ := List.mem_map.1 hq
  exact hc.child _

variable {r : Resolver}

/-! ### Candidates -/

/-- The search for a candidate gets to a path: all that come before it lead to
no file, and the files of a directory are looked for only if there is one. -/
inductive Asks (r : Resolver) (c : Path) : Path → Prop
  | file {front rest : List Path} {q : Path}
      (hfiles : filesFor c = front ++ q :: rest)
      (hfront : ∀ p ∈ front, r.files.isFile p = .ok false) : Asks r c q
  | directory (hfiles : ∀ p ∈ filesFor c, r.files.isFile p = .ok false) :
      Asks r c c
  | index {front rest : List Path} {q : Path}
      (hfiles : ∀ p ∈ filesFor c, r.files.isFile p = .ok false)
      (hdirectory : r.files.isDirectory c = .ok true)
      (hindex : indexFiles c = front ++ q :: rest)
      (hfront : ∀ p ∈ front, r.files.isFile p = .ok false) : Asks r c q

/-- The search for a candidate ends without an answer. -/
inductive Halts (r : Resolver) (c : Path) : ProjectError → Prop
  | nameless (hname : c.name = "") : Halts r c (.emptyName c)
  | refused {q : Path} {e : PathError} (hname : c.name ≠ "")
      (hasks : r.Asks c q) (hlook : r.files.look q = .error e) :
      Halts r c (.badPath e)

/-- The root has no name to add an ending to. -/
theorem probe_nameless {c : Path} (hname : c.name = "") :
    r.probe c = .error (.emptyName c) := by
  unfold probe
  rw [if_pos (by simpa using hname)]

theorem probe_named {c : Path} (hname : c.name ≠ "") : r.probe c =
    (r.found c).mapError .badPath >>= fun found =>
      found.mapM r.files.realPath := by
  unfold probe
  rw [if_neg (by simpa using hname)]

/-- The search for a file fails at the first path that may not be looked at,
if there is no file before it. -/
theorem firstFile_eq_error {fs : FileSystem} {paths : List Path}
    {e : PathError} :
    fs.firstFile paths = .error e ↔ ∃ front q rest, paths = front ++ q :: rest ∧
      (∀ p ∈ front, fs.isFile p = .ok false) ∧ fs.look q = .error e := by
  simp only [FileSystem.firstFile, findM?_eq_error, FileSystem.isFile_eq_error]

theorem firstFile_eq_none {fs : FileSystem} {paths : List Path} :
    fs.firstFile paths = .ok none ↔ ∀ p ∈ paths, fs.isFile p = .ok false :=
  findM?_eq_none

/-- A candidate fails to be found at the first path that may not be looked
at. -/
theorem found_eq_error {c : Path} {e : PathError} :
    r.found c = .error e ↔ ∃ q, r.Asks c q ∧ r.files.look q = .error e := by
  unfold found
  rw [bind_eq_error, firstFile_eq_error]
  constructor
  · rintro (⟨front, q, rest, hfiles, hfront, hlook⟩ | ⟨found, hfound, h⟩)
    · exact ⟨q, .file hfiles hfront, hlook⟩
    · cases found with
      | some p => cases h
      | none =>
        have hfiles := firstFile_eq_none.1 hfound
        rcases bind_eq_error.1 h with h | ⟨isDirectory, hdirectory, h⟩
        · exact ⟨c, .directory hfiles, FileSystem.isDirectory_eq_error.1 h⟩
        · cases isDirectory with
          | false => cases h
          | true =>
            obtain ⟨front, q, rest, hindex, hfront, hlook⟩ :=
              firstFile_eq_error.1 h
            exact ⟨q, .index hfiles hdirectory hindex hfront, hlook⟩
  · rintro ⟨q, hasks, hlook⟩
    cases hasks with
    | file hfiles hfront => exact .inl ⟨_, q, _, hfiles, hfront, hlook⟩
    | directory hfiles =>
      refine .inr ⟨none, firstFile_eq_none.2 hfiles, bind_eq_error.2 (.inl ?_)⟩
      exact FileSystem.isDirectory_eq_error.2 hlook
    | index hfiles hdirectory hindex hfront =>
      refine .inr ⟨none, firstFile_eq_none.2 hfiles,
        bind_eq_error.2 (.inr ⟨true, hdirectory, ?_⟩)⟩
      exact firstFile_eq_error.2 ⟨_, q, _, hindex, hfront, hlook⟩

/-- What is found for a candidate is one of its files. -/
theorem mem_of_found {c q : Path} (h : r.found c = .ok (some q)) :
    (q ∈ filesFor c ∨ q ∈ indexFiles c) ∧ r.files.isFile q = .ok true := by
  unfold found at h
  obtain ⟨found, hfound, h⟩ := bind_eq_ok.1 h
  cases found with
  | some p =>
    cases h
    exact (mem_of_findM? hfound).imp_left .inl
  | none =>
    obtain ⟨isDirectory, -, h⟩ := bind_eq_ok.1 h
    cases isDirectory with
    | true => exact (mem_of_findM? h).imp_left .inr
    | false => cases h

/-- A candidate gets no answer iff its search halts: what is found can be
resolved. -/
theorem probe_eq_error (hfs : r.files.Regular) {c : Path} {e : ProjectError} :
    r.probe c = .error e ↔ r.Halts c e := by
  by_cases hname : c.name = ""
  · rw [probe_nameless hname]
    constructor
    · rintro ⟨⟩
      exact .nameless hname
    · intro h
      cases h with
      | nameless => rfl
      | refused hnamed => exact absurd hname hnamed
  · rw [probe_named hname, bind_eq_error, mapError_eq_error]
    constructor
    · rintro (⟨cause, hfound, rfl⟩ | ⟨found, hfound, h⟩)
      · obtain ⟨q, hasks, hlook⟩ := found_eq_error.1 hfound
        exact .refused hname hasks hlook
      · cases found with
        | none => cases h
        | some q =>
          obtain ⟨real, hreal, -⟩ :=
            hfs.exists_realPath (mem_of_found (mapError_eq_ok.1 hfound)).2
          rcases bind_eq_error.1 h with h | ⟨other, -, h⟩
          · cases hreal.symm.trans h
          · cases h
    · intro h
      cases h with
      | nameless hnameless => exact absurd hnameless hname
      | refused _ hasks hlook =>
        exact .inl ⟨_, found_eq_error.2 ⟨_, hasks, hlook⟩, rfl⟩

/-- What is found is the real path of a file that the candidate may stand
for. -/
theorem exists_of_probe {c p : Path} (h : r.probe c = .ok (some p)) :
    ∃ q, (q ∈ filesFor c ∨ q ∈ indexFiles c) ∧ r.files.isFile q = .ok true ∧
      r.files.realPath q = .ok p := by
  by_cases hname : c.name = ""
  · rw [probe_nameless hname] at h
    cases h
  · rw [probe_named hname] at h
    obtain ⟨found, hfound, h⟩ := bind_eq_ok.1 h
    cases found with
    | none => cases h
    | some q =>
      obtain ⟨real, hreal, h⟩ := bind_eq_ok.1 h
      cases h
      obtain ⟨hq, hfile⟩ := mem_of_found (mapError_eq_ok.1 hfound)
      exact ⟨q, hq, hfile, hreal⟩

/-- A source file that is named in full stands for itself. -/
theorem probe_eq_self {r : Resolver} {p : Path} (hname : p.name ≠ "")
    (hsuffix : sourceSuffixes.contains p.suffix = true)
    (hfile : r.files.isFile p = .ok true)
    (hreal : r.files.realPath p = .ok p) : r.probe p = .ok (some p) := by
  have hfirst : r.files.firstFile (filesFor p) = .ok (some p) := by
    unfold filesFor FileSystem.firstFile
    rw [if_pos hsuffix]
    refine bind_eq_ok.2 ⟨true, hfile, rfl⟩
  have hfound : r.found p = .ok (some p) := bind_eq_ok.2 ⟨some p, hfirst, rfl⟩
  rw [probe_named hname, hfound]
  exact bind_eq_ok.2 ⟨some p, rfl, bind_eq_ok.2 ⟨p, hreal, rfl⟩⟩

/-! ### Aliases -/

/-- A target of the specifier is not a text. -/
def Malformed (r : Resolver) (specifier : String) : Prop :=
  ∃ base filling targets, r.baseUrl.or r.aliasBase = some base ∧
    aliasTargets? r.aliases specifier = some (filling, targets) ∧
    ∃ v ∈ targets, ∀ target, v ≠ .text target

/-- The path that a target stands for. -/
def targetPath (base : Path) (filling : List Char) :
    Value → Except ProjectError Path
  | .text target => .ok (base.child (fillStars target filling))
  | _ => .error .malformedTarget

theorem targetPath_eq_error {base : Path} {filling : List Char} {v : Value}
    {e : ProjectError} :
    targetPath base filling v = .error e ↔ (∀ target, v ≠ .text target) ∧
      e = .malformedTarget := by
  cases v <;> simp [targetPath, eq_comm]

/-- Alias targets cannot be read iff one of them is not a text. -/
theorem mapM_targetPath_eq_error {base : Path} {filling : List Char}
    {targets : List Value} {e : ProjectError} :
    targets.mapM (targetPath base filling) = .error e ↔
      (∃ v ∈ targets, ∀ target, v ≠ .text target) ∧ e = .malformedTarget := by
  have honly : ∀ {e}, targets.mapM (targetPath base filling) = .error e →
      (∃ v ∈ targets, ∀ target, v ≠ .text target) ∧ e = .malformedTarget := by
    intro e h
    obtain ⟨v, hv, herror⟩ := exists_of_mapM_error h
    obtain ⟨hmalformed, rfl⟩ := targetPath_eq_error.1 herror
    exact ⟨⟨v, hv, hmalformed⟩, rfl⟩
  refine ⟨honly, ?_⟩
  rintro ⟨⟨v, hv, hmalformed⟩, rfl⟩
  cases h : targets.mapM (targetPath base filling) with
  | error e => rw [(honly h).2]
  | ok found =>
    obtain ⟨p, hp⟩ := exists_of_mapM h hv
    rw [targetPath_eq_error.2 ⟨hmalformed, rfl⟩] at hp
    cases hp

theorem aliasCandidates_eq {specifier : String} : r.aliasCandidates specifier =
    match r.baseUrl.or r.aliasBase, aliasTargets? r.aliases specifier with
    | some base, some (filling, targets) =>
      targets.mapM (targetPath base filling)
    | _, _ => .ok [] := rfl

/-- So a specifier has no candidates iff its alias is malformed. -/
theorem aliasCandidates_eq_error {specifier : String} {e : ProjectError} :
    r.aliasCandidates specifier = .error e ↔ r.Malformed specifier ∧
      e = .malformedTarget := by
  rw [aliasCandidates_eq]
  unfold Malformed
  cases hbase : r.baseUrl.or r.aliasBase with
  | none => simp
  | some base =>
    cases htargets : aliasTargets? r.aliases specifier with
    | none => simp
    | some found =>
      obtain ⟨filling, targets⟩ := found
      simp only [mapM_targetPath_eq_error]
      simp

/-! ### Resolvers -/

/-- A resolver with legible directories. -/
structure Legible (r : Resolver) : Prop where
  baseUrl : ∀ base, r.baseUrl = some base → base.Legible
  aliasBase : ∀ base, r.aliasBase = some base → base.Legible

theorem Legible.base {base : Path} (hr : r.Legible)
    (h : r.baseUrl.or r.aliasBase = some base) :
    base.Legible := by
  rcases Option.or_eq_some_iff.1 h with h | ⟨-, h⟩
  · exact hr.baseUrl base h
  · exact hr.aliasBase base h

/-- The candidates of a specifier are legible. -/
theorem Legible.candidates {specifier : String} {cs : List Path}
    (hr : r.Legible) (h : r.aliasCandidates specifier = .ok cs) :
    ∀ c ∈ cs, c.Legible := by
  intro c hc
  rw [aliasCandidates_eq] at h
  split at h
  · next base filling targets hbase htargets =>
    obtain ⟨v, -, hv⟩ := (mem_of_mapM h).1 hc
    unfold targetPath at hv
    split at hv
    · cases hv
      exact (hr.base hbase).child _
    · cases hv
  · cases h
    cases hc

/-! ### Specifiers -/

/-- A specifier that goes through the aliases and the base directory. -/
structure IsBare (specifier : String) : Prop where
  nonempty : specifier ≠ ""
  dot : specifier.startsWith "." = false
  slash : specifier.startsWith "/" = false

/-- What stops the resolution of a specifier in the file with the resolved
path `home`. -/
inductive StopsAt (r : Resolver) (home : Path) (specifier : String)
    (e : ProjectError) : Prop
  | relative (hdot : specifier.startsWith "." = true)
      (hhalts : r.Halts (home.parent.child specifier) e)
  | absolute (hdot : specifier.startsWith "." = false)
      (hslash : specifier.startsWith "/" = true)
      (hhalts : r.Halts (.ofString specifier) e)
  | malformed (hbare : IsBare specifier) (h : r.Malformed specifier)
      (he : e = .malformedTarget)
  | aliased {front rest : List Path} {c : Path} (hbare : IsBare specifier)
      (hcs : r.aliasCandidates specifier = .ok (front ++ c :: rest))
      (hfront : ∀ d ∈ front, r.probe d = .ok none) (hhalts : r.Halts c e)
  | based {cs : List Path} {base : Path} (hbare : IsBare specifier)
      (hcs : r.aliasCandidates specifier = .ok cs)
      (hnone : ∀ d ∈ cs, r.probe d = .ok none)
      (hbase : r.baseUrl = some base)
      (hhalts : r.Halts (base.child specifier) e)

theorem nonempty_of_startsWith_dot {s : String} (h : s.startsWith "." = true) :
    s ≠ "" := by
  rintro rfl
  exact absurd h (by decide)

theorem nonempty_of_startsWith_slash {s : String}
    (h : s.startsWith "/" = true) : s ≠ "" := by
  rintro rfl
  exact absurd h (by decide)

/-- A specifier that starts with a point is looked for beside the file. -/
theorem resolve_relative {file home : Path} {s : String}
    (hdot : s.startsWith "." = true)
    (hhome : r.files.realPath file = .ok home) :
    r.resolve file s = r.probe (home.parent.child s) := by
  unfold resolve
  rw [if_neg (by simpa using nonempty_of_startsWith_dot hdot),
    if_pos hdot, hhome]
  rfl

/-- One that starts with a slash is looked for where it says. -/
theorem resolve_absolute {file : Path} {s : String}
    (hdot : s.startsWith "." = false) (hslash : s.startsWith "/" = true) :
    r.resolve file s = r.probe (.ofString s) := by
  unfold resolve
  rw [if_neg (by simpa using nonempty_of_startsWith_slash hslash),
    if_neg (by simp [hdot]), if_pos hslash]

/-- Where a bare specifier is looked for when no alias stands for a source. -/
def resolveBased (r : Resolver) (s : String) :
    Option Path → Except ProjectError (Option Path)
  | some p => .ok (some p)
  | none =>
    match r.baseUrl with
    | some base => r.probe (base.child s)
    | none => .ok none

/-- All others go through the aliases first. -/
theorem resolve_bare {file : Path} {s : String} (hbare : IsBare s) :
    r.resolve file s = r.aliasCandidates s >>= fun cs =>
    r.probeFirst cs >>= r.resolveBased s := by
  unfold resolve
  rw [if_neg (by simpa using hbare.nonempty), if_neg (by simp [hbare.dot]),
    if_neg (by simp [hbare.slash])]
  rfl

/-- If no alias leads to a source, the base directory may still fail. -/
theorem resolveBased_eq_error {s : String} {answer : Option Path}
    {e : ProjectError} :
    r.resolveBased s answer = .error e ↔
      answer = none ∧ ∃ base, r.baseUrl = some base ∧
        r.probe (base.child s) = .error e := by
  unfold resolveBased
  cases answer with
  | some p => simp
  | none => cases r.baseUrl <;> simp

section

variable {file home : Path} {s : String} {e : ProjectError}

theorem StopsAt.nonempty (h : r.StopsAt home s e) : s ≠ "" := by
  cases h with
  | relative hdot => exact nonempty_of_startsWith_dot hdot
  | absolute _ hslash => exact nonempty_of_startsWith_slash hslash
  | malformed hbare => exact hbare.nonempty
  | aliased hbare => exact hbare.nonempty
  | based hbare => exact hbare.nonempty

/-- What stops a relative specifier. -/
theorem stopsAt_relative (hdot : s.startsWith "." = true) :
    r.StopsAt home s e ↔ r.Halts (home.parent.child s) e := by
  have hother : s.startsWith "." ≠ false := by simp [hdot]
  refine ⟨fun h => ?_, .relative hdot⟩
  cases h with
  | relative _ hhalts => exact hhalts
  | absolute hdot => exact absurd hdot hother
  | malformed hbare => exact absurd hbare.dot hother
  | aliased hbare => exact absurd hbare.dot hother
  | based hbare => exact absurd hbare.dot hother

/-- What stops an absolute one. -/
theorem stopsAt_absolute (hdot : s.startsWith "." = false)
    (hslash : s.startsWith "/" = true) :
    r.StopsAt home s e ↔ r.Halts (.ofString s) e := by
  have hother : s.startsWith "/" ≠ false := by simp [hslash]
  refine ⟨fun h => ?_, .absolute hdot hslash⟩
  cases h with
  | relative hdot' => exact absurd (hdot'.symm.trans hdot) (by decide)
  | absolute _ _ hhalts => exact hhalts
  | malformed hbare => exact absurd hbare.slash hother
  | aliased hbare => exact absurd hbare.slash hother
  | based hbare => exact absurd hbare.slash hother

/-- A bare specifier gets no answer iff something stops it. -/
theorem resolve_bare_eq_error (hfs : r.files.Regular) (hbare : IsBare s) :
    r.resolve file s = .error e ↔ r.StopsAt home s e := by
  rw [resolve_bare hbare, bind_eq_error, aliasCandidates_eq_error]
  simp only [bind_eq_error, probeFirst, findSomeM?_eq_error,
    resolveBased_eq_error, probe_eq_error hfs]
  constructor
  · rintro (⟨hmalformed, rfl⟩ | ⟨cs, hcs, hsearch | hbased⟩)
    · exact .malformed hbare hmalformed rfl
    · obtain ⟨front, c, rest, rfl, hfront, hhalts⟩ := hsearch
      exact .aliased hbare hcs hfront hhalts
    · obtain ⟨answer, hnone, rfl, base, hbase, hhalts⟩ := hbased
      exact .based hbare hcs (findSomeM?_eq_none.1 hnone) hbase hhalts
  · intro h
    cases h with
    | relative hdot => exact absurd (hdot.symm.trans hbare.dot) (by decide)
    | absolute _ hslash =>
      exact absurd (hslash.symm.trans hbare.slash) (by decide)
    | malformed _ h he => exact .inl ⟨h, he⟩
    | aliased _ hcs hfront hhalts =>
      exact .inr ⟨_, hcs, .inl ⟨_, _, _, rfl, hfront, hhalts⟩⟩
    | based _ hcs hnone hbase hhalts =>
      exact .inr ⟨_, hcs,
        .inr ⟨none, findSomeM?_eq_none.2 hnone, rfl, _, hbase, hhalts⟩⟩

/-- Nothing else stops a resolution. -/
theorem resolve_eq_error (hfs : r.files.Regular)
    (hhome : r.files.realPath file = .ok home) :
    r.resolve file s = .error e ↔ r.StopsAt home s e := by
  by_cases hempty : s = ""
  · refine ⟨fun h => ?_, fun h => absurd hempty h.nonempty⟩
    subst hempty
    cases h
  · cases hdot : s.startsWith "." with
    | true =>
      rw [resolve_relative hdot hhome, probe_eq_error hfs,
        stopsAt_relative hdot]
    | false =>
      cases hslash : s.startsWith "/" with
      | true =>
        rw [resolve_absolute hdot hslash, probe_eq_error hfs,
          stopsAt_absolute hdot hslash]
      | false => exact resolve_bare_eq_error hfs ⟨hempty, hdot, hslash⟩

/-- What is found for a legible candidate is legible and stands for itself. -/
theorem legible_of_probe {c p : Path} (hfs : r.files.Regular) (hc : c.Legible)
    (h : r.probe c = .ok (some p)) :
    p.Legible ∧ r.files.realPath p = .ok p := by
  obtain ⟨q, hq, hfile, hreal⟩ := exists_of_probe h
  have hlegible : q.Legible :=
    hq.elim (legible_filesFor hc) (legible_indexFiles hc)
  obtain ⟨real, hreal', hself⟩ := hfs.exists_realPath hfile
  obtain rfl := Except.ok.inj (hreal.symm.trans hreal')
  exact ⟨hfs.legible_realPath hreal hlegible, hself⟩

/-- What a specifier resolves to is legible and stands for itself. -/
theorem legible_of_resolve {p : Path} (hfs : r.files.Regular)
    (hr : r.Legible) (hfile : file.Legible)
    (h : r.resolve file s = .ok (some p)) :
    p.Legible ∧ r.files.realPath p = .ok p := by
  by_cases hempty : s = ""
  · subst hempty
    cases h
  · cases hdot : s.startsWith "." with
    | true =>
      unfold resolve at h
      rw [if_neg (by simpa using hempty), if_pos hdot] at h
      obtain ⟨home, hhome, h⟩ := bind_eq_ok.1 h
      exact legible_of_probe hfs ((hfs.legible_realPath hhome hfile).parent.child s) h
    | false =>
      cases hslash : s.startsWith "/" with
      | true =>
        rw [resolve_absolute hdot hslash] at h
        exact legible_of_probe hfs (Path.legible_ofString s) h
      | false =>
        rw [resolve_bare ⟨hempty, hdot, hslash⟩] at h
        obtain ⟨cs, hcs, h⟩ := bind_eq_ok.1 h
        obtain ⟨answer, hanswer, h⟩ := bind_eq_ok.1 h
        unfold resolveBased at h
        cases answer with
        | some q =>
          cases h
          obtain ⟨c, hc, hp⟩ := exists_of_findSomeM? hanswer
          exact legible_of_probe hfs (hr.candidates hcs c hc) hp
        | none =>
          cases hbase : r.baseUrl with
          | none => simp [hbase] at h
          | some base =>
            simp only [hbase] at h
            exact legible_of_probe hfs ((hr.baseUrl base hbase).child s) h

end

/-! ### Resolvers made from configurations -/

section

variable {fs : FileSystem}

theorem legible_compilerConfig? {start config : Path} (hfs : fs.Regular)
    (hstart : start.Legible)
    (h : fs.compilerConfig? start = .ok (some config)) : config.Legible := by
  obtain ⟨real, hreal, h⟩ := bind_eq_ok.1 h
  obtain ⟨here, hhere, h⟩ := bind_eq_ok.1 h
  have hlegible := hfs.legible_realPath hreal hstart
  have hdirectory : here.Legible := by
    obtain ⟨isFile, -, hhere⟩ := bind_eq_ok.1 (mapError_eq_ok.1 hhere)
    cases isFile with
    | true =>
      cases hhere
      exact hlegible.parent
    | false =>
      cases hhere
      exact hlegible
  obtain ⟨d, hd, hconfig⟩ :=
    List.mem_flatMap.1 (mem_of_findM? (mapError_eq_ok.1 h)).1
  obtain ⟨name, -, rfl⟩ := List.mem_map.1 hconfig
  obtain ⟨k, -, rfl⟩ := List.mem_map.1 hd
  refine Path.Legible.child ?_ name
  exact fun name hname => hdirectory name (List.mem_of_mem_take hname)

theorem legible_extended? {config next : Path} {data : Table Value}
    (hfs : fs.Regular) (hconfig : config.Legible)
    (h : extended? fs config data = .ok (some next)) : next.Legible := by
  unfold extended? at h
  split at h
  · next written _ =>
    split at h
    · obtain ⟨target, htarget, h⟩ := bind_eq_ok.1 h
      have hlegible := hfs.legible_realPath htarget
        (hconfig.parent.child written)
      split at h
      · cases h
        exact hlegible
      · split at h
        · next p hp =>
          cases h
          exact hlegible.withName?
            (isName_append hlegible.slash_not_mem_name (by decide)) hp
        · cases h
    · cases h
  · cases h

/-- All the configurations of a chain are legible. -/
theorem legible_chain (hfs : fs.Regular) {length : Nat} {config : Path}
    {found : List (Path × Value)} (hconfig : config.Legible)
    (h : chain fs length config = .ok found) : ∀ e ∈ found, e.1.Legible := by
  induction length generalizing config found with
  | zero =>
    cases h
    exact fun _ he => absurd he List.not_mem_nil
  | succ length ih =>
    obtain ⟨held, -, h⟩ := bind_eq_ok.1 h
    cases held with
    | none =>
      cases h
      exact fun _ he => absurd he List.not_mem_nil
    | some data =>
      obtain ⟨extended, hextended, h⟩ := bind_eq_ok.1 h
      cases extended with
      | none =>
        cases h
        simpa using hconfig
      | some next =>
        obtain ⟨rest, hrest, h⟩ := bind_eq_ok.1 h
        cases h
        exact List.forall_mem_cons.2 ⟨hconfig,
          ih (legible_extended? hfs hconfig hextended) hrest⟩

/-- What one configuration may set: the directory of the aliases is its own,
and the base directory is written in it. -/
theorem withOptions_sets {config : Path} {options : Value} {r' : Resolver}
    (h : r.withOptions config options = .ok r') : r'.files = r.files ∧
      (r'.aliasBase = r.aliasBase ∨ r'.aliasBase = some config.parent) ∧
      (r'.baseUrl = r.baseUrl ∨ ∃ written real,
        r.files.realPath (config.parent.child written) = .ok real ∧
          r'.baseUrl = some real) := by
  unfold Resolver.withOptions at h
  split at h
  · split at h
    · split at h
      · cases h
        exact ⟨rfl, .inr rfl, .inl rfl⟩
      · next written _ =>
        obtain ⟨baseUrl, hbaseUrl, h⟩ := bind_eq_ok.1 h
        obtain ⟨real, hreal, hsome⟩ := bind_eq_ok.1 hbaseUrl
        cases hsome
        cases h
        exact ⟨rfl, .inr rfl, .inr ⟨written, real, hreal, rfl⟩⟩
      · cases h
    · split at h
      · cases h
        exact ⟨rfl, .inl rfl, .inl rfl⟩
      · next written _ =>
        obtain ⟨baseUrl, hbaseUrl, h⟩ := bind_eq_ok.1 h
        obtain ⟨real, hreal, hsome⟩ := bind_eq_ok.1 hbaseUrl
        cases hsome
        cases h
        exact ⟨rfl, .inl rfl, .inr ⟨written, real, hreal, rfl⟩⟩
      · cases h
  all_goals cases h

/-- Options that are laid over a resolver keep it legible. -/
theorem Legible.withOptions {config : Path} {options : Value} {r' : Resolver}
    (hfs : r.files.Regular) (hr : r.Legible) (hconfig : config.Legible)
    (h : r.withOptions config options = .ok r') :
    r'.Legible ∧ r'.files = r.files := by
  obtain ⟨hfiles, halias, hbase⟩ := withOptions_sets h
  refine ⟨⟨fun base hset => ?_, fun base hset => ?_⟩, hfiles⟩
  · rcases hbase with hold | ⟨written, real, hreal, hnew⟩
    · exact hr.baseUrl base (hold ▸ hset)
    · obtain rfl := Option.some.inj (hnew.symm.trans hset)
      exact hfs.legible_realPath hreal (hconfig.parent.child written)
  · rcases halias with hold | hnew
    · exact hr.aliasBase base (hold ▸ hset)
    · obtain rfl := Option.some.inj (hnew.symm.trans hset)
      exact hconfig.parent

theorem legible_empty : ({ files := fs } : Resolver).Legible where
  baseUrl _ h := nomatch h
  aliasBase _ h := nomatch h

/-- So the resolver of a configuration is. -/
theorem legible_ofConfig {config : Path} {r : Resolver} (hfs : fs.Regular)
    (hconfig : config.Legible) (h : ofConfig fs config = .ok r) :
    r.Legible ∧ r.files = fs := by
  obtain ⟨real, hreal, h⟩ := bind_eq_ok.1 h
  obtain ⟨configs, hconfigs, h⟩ := bind_eq_ok.1 h
  have hall := legible_chain hfs (hfs.legible_realPath hreal hconfig) hconfigs
  have hfold : ∀ (cs : List (Path × Value)) (start : Resolver),
      (∀ e ∈ cs, e.1.Legible) → start.Legible ∧ start.files = fs →
      cs.foldlM (fun r e => r.withOptions e.1 e.2) start = .ok r → r.Legible ∧
        r.files = fs := by
    intro cs
    induction cs with
    | nil =>
      intro start _ hstart h
      cases h
      exact hstart
    | cons e cs ih =>
      intro start hcs hstart h
      obtain ⟨he, hcs⟩ := List.forall_mem_cons.1 hcs
      rw [List.foldlM_cons] at h
      obtain ⟨next, hnext, h⟩ := bind_eq_ok.1 h
      obtain ⟨hlegible, hfiles⟩ :=
        hstart.1.withOptions (hstart.2 ▸ hfs) he hnext
      exact ih next hcs ⟨hlegible, hfiles.trans hstart.2⟩ h
  refine hfold _ _ (fun e he => hall e (List.mem_reverse.1 he))
    ⟨legible_empty, rfl⟩ h

/-- The resolver of a project is legible. -/
theorem legible_ofProject {root config : Option Path} {r : Resolver}
    (hfs : fs.Regular) (hroot : ∀ p, root = some p → p.Legible)
    (hconfig : ∀ p, config = some p → p.Legible)
    (h : ofProject fs root config = .ok r) : r.Legible ∧ r.files = fs := by
  obtain ⟨real, hreal, h⟩ := bind_eq_ok.1 h
  cases config with
  | some c => exact legible_ofConfig hfs (hconfig c rfl) h
  | none =>
    cases real with
    | none =>
      cases h
      exact ⟨legible_empty, rfl⟩
    | some start =>
      obtain ⟨found, hfound, h⟩ := bind_eq_ok.1 h
      cases found with
      | none =>
        cases h
        exact ⟨legible_empty, rfl⟩
      | some c =>
        refine legible_ofConfig hfs (legible_compilerConfig? hfs ?_ hfound) h
        cases root with
        | none => cases hreal
        | some p =>
          obtain ⟨q, hq, hsome⟩ := bind_eq_ok.1 hreal
          cases hsome
          exact hfs.legible_realPath hq (hroot p rfl)

end

end Resolver

end RenderLoop
