import RenderLoop.Proofs.Depths
import RenderLoop.Proofs.Reach

/-!
# Where an analysis can fail

An analysis of files whose own paths are resolved to paths that stand for
themselves (`Located`) fails only while the import closure is worked out, and
only at an import of a file in reach that stops the resolution
(`Resolver.StopsAt`):

* its specifier stands for the root,
* one of its alias targets is not a text, or
* a path that the search for its source gets to may not be looked at, since a
  directory on the way is closed or something is too long.

All other specifiers get an answer. If none stops, the files are put in
relation as well, and the edges of the import graph are exactly the imports
that lead to a file taken in: one that leads nowhere is dropped and changes
nothing else.

> `Analysis.run_fails_only_at_imports`: an analysis fails only at an import
> that stops, and returns if there is none.

The argument goes file by file. The path of a file in reach can be resolved
again (`exists_home`), because it was written down from a resolved path; so
each of its imports gets an answer or stops (`failsIn_iff`). What the closure
does with the answers is told in `RenderLoop.Proofs.Reach`.
-/

namespace RenderLoop

namespace Analysis

open Closure (InReach FailsIn Parse)

/-! ### The requested files -/

section

variable {fs : FileSystem} {sources : List SourceFile} {requested : SourceSet}

/-- A keyed source is one of those asked for, under its real path. -/
theorem mem_keyed (h : keyed fs sources = .ok requested) {file : String}
    {f : SourceFile} (hf : (file, f) ∈ requested) :
    f ∈ sources ∧ ∃ p, fs.realPath (.ofString f.path) = .ok p ∧
      p.text = file := by
  obtain ⟨entries, hentries, h⟩ := bind_eq_ok.1 h
  cases h
  obtain ⟨g, hg, hentry⟩ :=
    (mem_of_mapM hentries).1 (Table.mem_of_mem_ofEntries hf)
  obtain ⟨p, hp, hentry⟩ := bind_eq_ok.1 hentry
  cases hentry
  exact ⟨hg, p, hp, rfl⟩

/-- Two sources with the same real path are one entry. -/
theorem nodup_keyed (h : keyed fs sources = .ok requested) :
    requested.names.Nodup := by
  obtain ⟨entries, -, h⟩ := bind_eq_ok.1 h
  cases h
  exact Table.nodup_names_ofEntries entries

/-- Keying succeeds when every source has a real path. -/
theorem exists_keyed
    (h : ∀ f ∈ sources, ∃ p, fs.realPath (.ofString f.path) = .ok p) :
    ∃ requested, keyed fs sources = .ok requested := by
  refine exists_bind (exists_mapM fun f hf => ?_) fun entries => ⟨_, rfl⟩
  obtain ⟨p, hp⟩ := h f hf
  exact ⟨_, bind_eq_ok.2 ⟨p, hp, rfl⟩⟩

end

/-- The sources have real paths that stand for themselves. -/
def Located (fs : FileSystem) (sources : List SourceFile) : Prop :=
  ∀ f ∈ sources, ∃ p, fs.realPath (.ofString f.path) = .ok p ∧
    fs.realPath p = .ok p

/-! ### Imports that stop -/

section

variable {r : Resolver} {parse : Parse} {sources : List SourceFile}
  {requested : SourceSet}

/-- The path of a file in reach can be resolved. -/
theorem exists_home (hfs : r.files.Regular) (hr : r.Legible)
    (hsources : Located r.files sources)
    (hkeyed : keyed r.files sources = .ok requested) {file : String}
    {f : SourceFile}
    (h : InReach r parse requested file f) :
    ∃ home, r.files.realPath (.ofString file) = .ok home := by
  cases h with
  | requested hf =>
    obtain ⟨hsource, p, hp, rfl⟩ := mem_keyed hkeyed hf
    obtain ⟨q, hq, hself⟩ := hsources f hsource
    obtain rfl := Except.ok.inj (hp.symm.trans hq)
    have hlegible := hfs.legible_realPath hp (Path.legible_ofString _)
    exact ⟨p, FileSystem.realPath_text hself hlegible⟩
  | imported _ _ hp _ _ _ =>
    obtain ⟨hlegible, hself⟩ :=
      Resolver.legible_of_resolve hfs hr (Path.legible_ofString _) hp
    exact ⟨_, FileSystem.realPath_text hself hlegible⟩

/-- An import of a file in reach stops with a failure. -/
def StoppedBy (r : Resolver) (parse : Parse) (requested : SourceSet)
    (e : ProjectError) : Prop :=
  ∃ file f, InReach r parse requested file f ∧ ∃ i ∈ f.imports,
    ∃ home, r.files.realPath (.ofString file) = .ok home ∧
      r.StopsAt home i.source e

/-- What stops the closure and what stops the build is the same set of
failures, described by the import that causes them. -/
theorem failsIn_iff (hfs : r.files.Regular) (hr : r.Legible)
    (hsources : Located r.files sources)
    (hkeyed : keyed r.files sources = .ok requested) {e : ProjectError} :
    FailsIn r parse requested e ↔ StoppedBy r parse requested e := by
  constructor
  · rintro ⟨file, f, hf, i, hi, hfails⟩
    obtain ⟨home, hhome⟩ := exists_home hfs hr hsources hkeyed hf
    exact ⟨file, f, hf, i, hi, home, hhome,
      (Resolver.resolve_eq_error hfs hhome).1 hfails⟩
  · rintro ⟨file, f, hf, i, hi, home, hhome, hstops⟩
    exact ⟨file, f, hf, i, hi, (Resolver.resolve_eq_error hfs hhome).2 hstops⟩

/-- If no import stops, those of the files taken in get an answer. -/
theorem answered_of_not_failsIn (hnone : ∀ e, ¬ FailsIn r parse requested e)
    {files : SourceSet}
    (hfiles : ∀ file f, (file, f) ∈ files → InReach r parse requested file f) :
    ImportGraph.Answered files r := by
  intro file f hf i hi
  cases hresolve : r.resolve (.ofString file) i.source with
  | ok answer => exact ⟨answer, rfl⟩
  | error e =>
    exact absurd ⟨file, f, hfiles file f hf, i, hi, hresolve⟩ (hnone e)

end

/-! ### The analysis -/

/-- Once the sources are keyed, a run is its closure followed by the checks;
facts that cannot be built are left out, not reported. -/
theorem run_eq {ctx : Context} {r : Resolver} {parse : Parse}
    {sources : List SourceFile} {requested : SourceSet}
    (hkeyed : keyed r.files sources = .ok requested) :
    run ctx r parse sources =
      Closure.expand r parse ctx.options.maxImportClosure requested >>=
      fun everything => .ok
        (ofFiles ctx (ProjectFacts.build ctx r everything).toOption
        requested) := by
  unfold run
  rw [hkeyed]
  rfl

/-- If no import fails the analysis returns, with the files put in relation. -/
theorem exists_run {r : Resolver} {parse : Parse} {sources : List SourceFile}
    {requested : SourceSet} (ctx : Context)
    (hkeyed : keyed r.files sources = .ok requested)
    (hnone : ∀ e, ¬ FailsIn r parse requested e) : ∃ everything facts,
      Closure.expand r parse ctx.options.maxImportClosure requested =
        .ok everything ∧
      ProjectFacts.build ctx r everything = .ok facts ∧
      run ctx r parse sources = .ok (ofFiles ctx (some facts) requested) := by
  have hnames := nodup_keyed hkeyed
  cases hexpand : Closure.expand r parse ctx.options.maxImportClosure
    requested with
  | error e => exact absurd (Closure.fails_of_expand hnames hexpand).2 (hnone e)
  | ok everything =>
    have hanswered := answered_of_not_failsIn hnone
      (Closure.inReach_expand hnames hexpand).2
    obtain ⟨facts, hfacts⟩ :
        ∃ facts, ProjectFacts.build ctx r everything = .ok facts :=
      ProjectFacts.exists_build hanswered
    refine ⟨everything, facts, rfl, hfacts, ?_⟩
    rw [run_eq hkeyed, hexpand]
    show Except.ok (ofFiles ctx (ProjectFacts.build ctx r everything).toOption
      requested) = _
    rw [hfacts]
    rfl

/-- An analysis fails only at an import that stops. If there is none it
returns, with the imports that lead to files as the edges of the graph. -/
theorem run_fails_only_at_imports (ctx : Context) {fs : FileSystem}
    (hfs : fs.Regular) {root config : Option Path}
    (hroot : ∀ p, root = some p → p.Legible)
    (hconfig : ∀ p, config = some p → p.Legible) {r : Resolver}
    (hmade : Resolver.ofProject fs root config = .ok r) (parse : Parse)
    (sources : List SourceFile)
    (hsources : Located fs sources) :
    ∃ requested, keyed fs sources = .ok requested ∧
      (∀ e, run ctx r parse sources = .error e →
        ctx.options.maxImportClosure ≠ 0 ∧ StoppedBy r parse requested e) ∧
      ((∀ e, ¬ StoppedBy r parse requested e) → ∃ everything facts,
        Closure.expand r parse ctx.options.maxImportClosure requested =
          .ok everything ∧
        ProjectFacts.build ctx r everything = .ok facts ∧
        run ctx r parse sources = .ok (ofFiles ctx (some facts) requested) ∧
        ∀ a b, b ∈ facts.graph.importsOf a ↔
          ImportGraph.Imports everything r a b) := by
  obtain ⟨hr, rfl⟩ := Resolver.legible_ofProject hfs hroot hconfig hmade
  obtain ⟨requested, hkeyed⟩ := exists_keyed fun f hf =>
    (hsources f hf).imp fun _ h => h.1
  refine ⟨requested, hkeyed, fun e hrun => ?_, fun hnone => ?_⟩
  · rw [run_eq hkeyed] at hrun
    rcases bind_eq_error.1 hrun with hexpand | ⟨everything, -, hrest⟩
    · obtain ⟨hlimit, hfails⟩ :=
        Closure.fails_of_expand (nodup_keyed hkeyed) hexpand
      exact ⟨hlimit, (failsIn_iff hfs hr hsources hkeyed).1 hfails⟩
    · cases hrest
  · obtain ⟨everything, facts, hexpand, hfacts, hrun⟩ :=
      exists_run ctx hkeyed fun e hfails =>
        hnone e ((failsIn_iff hfs hr hsources hkeyed).1 hfails)
    refine ⟨everything, facts, hexpand, hfacts, hrun, fun a b => ?_⟩
    exact ImportGraph.mem_importsOf_build (ProjectFacts.graph_build hfacts)

/-! ### Two files that import each other -/

open ImportGraph (ring ringResolver itemAt?_ring realPath_ring isFile_ring
  ofString_ring text_ring resolve_ring ring_imports)

/-- Nothing but the requested files can be read. -/
def unreadable : Parse := fun path => .error (.unreadable path)

theorem regular_ring : ringResolver.files.Regular where
  plain := FileSystem.plain_nil
  opened := FileSystem.opened_nil
  named _ h := absurd h List.not_mem_nil
  targets spot target h := absurd h (itemAt?_ring spot target)
  fits spot target h := absurd h (itemAt?_ring spot target)

theorem realPath_a : ringResolver.files.realPath (.ofString "/a.ts") =
    .ok ⟨.root, ["a.ts"]⟩ := by
  rw [ofString_ring.1]
  exact realPath_ring (by decide) (by decide)

theorem realPath_b : ringResolver.files.realPath (.ofString "/b.ts") =
    .ok ⟨.root, ["b.ts"]⟩ := by
  rw [ofString_ring.2]
  exact realPath_ring (by decide) (by decide)

theorem located_ring : Located ringResolver.files (ring.map (·.2)) := by
  intro f hf
  rcases List.mem_cons.1 hf with rfl | hf
  · exact ⟨_, realPath_a, realPath_ring (by decide) (by decide)⟩
  · rw [List.mem_singleton.1 hf]
    exact ⟨_, realPath_b, realPath_ring (by decide) (by decide)⟩

/-- The two files of the ring import one another and nothing else. -/
theorem source_of_mem_ring {f : SourceFile} (hf : f ∈ ring.map (·.2))
    {i : Import} (hi : i ∈ f.imports) :
    i.source = "/a.ts" ∨ i.source = "/b.ts" := by
  obtain ⟨e, he, rfl⟩ := List.mem_map.1 hf
  have hlisted : (e.1, e.2.imports) ∈ ring.map fun e => (e.1, e.2.imports) :=
    List.mem_map.2 ⟨e, he, rfl⟩
  rw [ring_imports] at hlisted
  rcases List.mem_cons.1 hlisted with h | h
  · rw [(Prod.mk.inj h).2, List.mem_singleton] at hi
    exact .inr (by rw [hi])
  · rw [(Prod.mk.inj (List.mem_singleton.1 h)).2, List.mem_singleton] at hi
    exact .inl (by rw [hi])

/-- Nothing in the ring can stop a run. -/
theorem not_failsIn_ring {requested : SourceSet}
    (hkeyed : keyed ringResolver.files (ring.map (·.2)) = .ok requested)
    (e : ProjectError) :
    ¬ FailsIn ringResolver unreadable requested e := by
  rintro ⟨file, f, hf, i, hi, hfails⟩
  cases hf with
  | requested hf =>
    have hanswer := resolve_ring (a := file)
      (source_of_mem_ring (mem_keyed hkeyed hf).1 hi)
    cases hanswer.symm.trans hfails
  | imported _ _ _ _ _ hparse => cases hparse

theorem run_ring : ∃ requested everything facts,
    keyed ringResolver.files (ring.map (·.2)) = .ok requested ∧
    Closure.expand ringResolver unreadable
      Context.usual.options.maxImportClosure requested =
      .ok everything ∧
    ProjectFacts.build .usual ringResolver everything = .ok facts ∧
    run .usual ringResolver unreadable (ring.map (·.2)) =
      .ok (ofFiles .usual (some facts) requested) := by
  have hmade : Resolver.ofProject ringResolver.files none none =
    .ok ringResolver := rfl
  have hnone : ∀ p, (none : Option Path) = some p → p.Legible :=
    fun p h => nomatch h
  obtain ⟨requested, hkeyed, -, hreturns⟩ :=
    run_fails_only_at_imports .usual regular_ring hnone hnone hmade unreadable
      (ring.map (·.2)) located_ring
  have hfree : ∀ e, ¬ StoppedBy ringResolver unreadable requested e :=
    fun e hstopped => not_failsIn_ring hkeyed e
      ((failsIn_iff regular_ring Resolver.legible_empty located_ring hkeyed).2
        hstopped)
  obtain ⟨everything, facts, hexpand, hfacts, hrun, -⟩ := hreturns hfree
  exact ⟨requested, everything, facts, hkeyed, hexpand, hfacts, hrun⟩

/-! ### An import of the root -/

/-- A file with an import that stands for the root. -/
def rootImport : SourceFile := Sketch.file "/a.ts" [.importFrom ["x"] "/"]

theorem rootImport_imports :
    rootImport.imports =
      [{ source := "/", line := 1, specifiers := [("x", "x")] }] := by
  decide +kernel

/-- The path of the root has no name to add an ending to. -/
theorem resolve_root (file : Path) :
    ringResolver.resolve file "/" = .error (.emptyName ⟨.root, []⟩) := by
  have hpath : Path.ofString "/" = ⟨.root, []⟩ := by decide
  rw [Resolver.resolve_absolute (by decide +kernel) (by decide +kernel), hpath]
  exact Resolver.probe_nameless rfl

theorem targets_rootImport :
    Closure.targets ringResolver "/a.ts" rootImport =
      .error (.emptyName ⟨.root, []⟩) := by
  refine bind_eq_error.2 (.inl ?_)
  rw [rootImport_imports, List.mapM_cons]
  exact bind_eq_error.2 (.inl (resolve_root _))

theorem keyed_rootImport :
    keyed ringResolver.files [rootImport] = .ok [("/a.ts", rootImport)] := by
  refine bind_eq_ok.2 ⟨[("/a.ts", rootImport)],
    mapM_cons_eq_ok.2 ⟨_, [], ?_, rfl, rfl⟩, rfl⟩
  refine bind_eq_ok.2 ⟨⟨.root, ["a.ts"]⟩, realPath_a, ?_⟩
  rw [text_ring.1]
  rfl

/-- A file that can be read, with one import that names no source, ends the
analysis. -/
theorem run_rootImport :
    Resolver.ofProject ringResolver.files none none = .ok ringResolver ∧
    ringResolver.files.isFile (.ofString rootImport.path) = .ok true ∧
    run .usual ringResolver unreadable [rootImport] =
      .error (.emptyName ⟨.root, []⟩) := by
  have hpath : Path.ofString rootImport.path = ⟨.root, ["a.ts"]⟩ := by
    decide +kernel
  have hlimit : Context.usual.options.maxImportClosure ≠ 0 := by decide +kernel
  refine ⟨rfl, ?_, ?_⟩
  · rw [hpath]
    exact isFile_ring.1
  · rw [run_eq keyed_rootImport, Closure.expand, if_neg hlimit]
    refine bind_eq_error.2 (.inl ?_)
    show Closure.grow _ _ _ _ ["/a.ts"] = _
    rw [Closure.grow]
    exact bind_eq_error.2 (.inl targets_rootImport)

end Analysis

end RenderLoop
