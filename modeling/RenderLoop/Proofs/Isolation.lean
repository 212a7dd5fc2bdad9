import RenderLoop.Proofs.Anchors
import RenderLoop.Proofs.Completion
import RenderLoop.Proofs.FindingOrder
import Mathlib.Data.Set.Card

/-!
# A failure stays in its file

The checks of a file are a list of stages, and they stop at the first that
fails. What was found before is kept, less the silenced lines, and the file is
listed as failed. That holds of any list of stages:

> `Check.stopsAtFirst_ofStages`: stages stop at the first that fails, with
> what those before it found.

Of the stages there are today, only those before the render phase and those of
the hooks can fail, so that more can be said:

> `Check.ends_allFindings`: the stages of a file end in one of four ways, and
> each says what was found.

No other file takes notice. The analysis adds up one report per requested
file, and `Analysis.Accounts` is what holds after each of them:

> `Analysis.Accounts.add`, `Analysis.Accounts.foldl`: one more report, and all
> of them.

> `Analysis.run_isolates_failures`: every requested file is either analysed or
> failed, the hooks are those of the analysed files, and the findings about a
> file are those of its own report.
-/

namespace RenderLoop

/-- Files without imports are all that the closure takes in. -/
theorem Closure.expand_of_no_imports {r : Resolver} {parse : Parse}
    {limit : Nat} {requested : SourceSet}
    (h : ∀ e ∈ requested, e.2.imports = []) :
    expand r parse limit requested = .ok requested := by
  have hgrow : ∀ (queue : List String) (room : Nat) (attempted : List String),
      grow r parse room ⟨requested, attempted⟩ queue = .ok requested := by
    intro queue
    induction queue with
    | nil =>
      intro room attempted
      rw [grow]
    | cons file queue ih =>
      intro room attempted
      have htargets : targetsOf r ⟨requested, attempted⟩ file = .ok [] := by
        unfold targetsOf
        split
        · next f hf =>
          unfold targets
          rw [h (file, f) (Table.mem_of_get? hf)]
          rfl
        · rfl
      rw [grow]
      refine bind_eq_ok.2 ⟨[], htargets, ?_⟩
      rw [takeIn, List.append_nil]
      exact ih room attempted
  unfold expand
  split
  · rfl
  · exact hgrow _ _ _

/-! ### The stages of a file -/

namespace Check

section

variable {ctx : Context} {f : SourceFile}
  {imported : String → Option SetterTaker} {facts : Facts}
  {helpers : HelperMap}

/-- What all stages of a file start from is known. -/
structure Known (ctx : Context) (f : SourceFile) (facts : Facts)
    (helpers : HelperMap) : Prop where
  extracted : Facts.extract ctx f.path f.root = .ok facts
  built : HelperMap.build ctx facts.setters f.root = .ok helpers

/-- Stages are done one after another, up to the first that fails; what was
found by then is kept. -/
inductive StopsAtFirst (stages : List (Except Fault (List Finding))) :
    FileReport → Prop where
  | failed {found : List (List Finding)} {e : Fault}
      {rest : List (Except Fault (List Finding))}
      (hstages : stages = found.map .ok ++ .error e :: rest) :
      StopsAtFirst stages ⟨found.flatten, true⟩
  | complete {found : List (List Finding)} (hstages : stages = found.map .ok) :
      StopsAtFirst stages ⟨found.flatten, false⟩

/-- How the stages of a file end, with what they have found by then. -/
inductive Ends (ctx : Context) (f : SourceFile)
    (imported : String → Option SetterTaker) :
    FileReport → Prop where
  /-- The facts of the file cannot be had. -/
  | withoutFacts {e : Fault} (h : Facts.extract ctx f.path f.root = .error e) :
      Ends ctx f imported ⟨[], true⟩
  /-- The helpers of the file cannot be had. -/
  | withoutHelpers {facts : Facts} {e : Fault}
      (h : Facts.extract ctx f.path f.root = .ok facts)
      (hhelpers : HelperMap.build ctx facts.setters f.root = .error e) :
        Ends ctx f imported ⟨[], true⟩
  /-- A hook fails. The render phase and the hooks before it are done. -/
  | atHook {facts : Facts} {helpers : HelperMap}
      (hknown : Known ctx f facts helpers) {before after : List Hook} {h : Hook}
      (hhooks : f.hooks = before ++ h :: after)
      {found : List (List Finding)}
      (hbefore : before.mapM (hookStage ctx f.path imported facts helpers
        f.root.origins) = .ok found)
      {e : Fault} (hfails : hookStage ctx f.path imported facts helpers
        f.root.origins h = .error e) :
      Ends ctx f imported
        ⟨renderPhase ⟨ctx, f.path, facts, helpers, f.root.origins⟩ f.root ++
          found.flatten, true⟩
  /-- All stages are done. -/
  | complete {facts : Facts} {helpers : HelperMap}
      (hknown : Known ctx f facts helpers) {found : List (List Finding)}
      (hhooks : f.hooks.mapM (hookStage ctx f.path imported facts helpers
        f.root.origins) = .ok found) :
      Ends ctx f imported
        ⟨renderPhase ⟨ctx, f.path, facts, helpers, f.root.origins⟩ f.root ++
          found.flatten ++ unstableProps ctx f.path facts f.root ++
          freshSnapshots ctx f.path f.root ++
          unstableKeys ctx f.path f.root, false⟩

/-- Whatever the stages are, they stop at the first that fails. -/
theorem stopsAtFirst_ofStages (stages : List (Except Fault (List Finding))) :
    StopsAtFirst stages (FileReport.ofStages stages) := by
  induction stages with
  | nil =>
    have hnone : [] = ([] : List (List Finding)).map
      (.ok : _ → Except Fault _) := rfl
    exact .complete hnone
  | cons stage rest ih =>
    cases stage with
    | error e =>
      have hfirst : .error e :: rest = ([] : List (List Finding)).map .ok ++
        .error e :: rest := rfl
      exact .failed hfirst
    | ok first =>
      rw [FileReport.ofStages]
      generalize FileReport.ofStages rest = report at ih ⊢
      -- the first stage stands in front of what the others found
      cases ih with
      | @failed found e after hrest =>
        have hall : .ok first :: rest = (first :: found).map .ok ++
            .error e :: after := by
          rw [hrest]
          rfl
        exact .failed hall
      | @complete found hrest =>
        have hall : .ok first :: rest = (first :: found).map .ok := by
          rw [hrest]
          rfl
        exact .complete hall

/-- Stages that succeed stand in front of what the others come to. -/
theorem ofStages_append (found : List (List Finding))
    (rest : List (Except Fault (List Finding))) :
    FileReport.ofStages (found.map .ok ++ rest) =
      ⟨found.flatten ++ (FileReport.ofStages rest).findings,
        (FileReport.ofStages rest).failed⟩ := by
  induction found with
  | nil => rfl
  | cons first found ih =>
    rw [List.map_cons, List.cons_append, FileReport.ofStages, ih,
      List.flatten_cons, List.append_assoc]

/-- With the facts and helpers at hand, the report of a file is that of its
stages. -/
theorem allFindings_of_known (hknown : Known ctx f facts helpers) :
    allFindings ctx f imported =
      FileReport.ofStages (stages ctx f imported facts helpers) := by
  have hstart : (do
      let facts ← Facts.extract ctx f.path f.root
      return (facts, ← HelperMap.build ctx facts.setters f.root) :
        Except Fault (Facts × HelperMap)) = .ok (facts, helpers) :=
    bind_eq_ok.2 ⟨facts, hknown.extracted,
      bind_eq_ok.2 ⟨helpers, hknown.built, rfl⟩⟩
  unfold allFindings
  simp only [hstart]

/-- Once the facts and the helpers are there, only a hook can stop the
stages. -/
theorem ends_ofStages (hknown : Known ctx f facts helpers) :
    Ends ctx f imported
      (FileReport.ofStages (stages ctx f imported facts helpers)) := by
  unfold stages
  simp only
  generalize hrender :
    renderPhase ⟨ctx, f.path, facts, helpers, f.root.origins⟩ f.root = render
  cases hmap : f.hooks.mapM
    (hookStage ctx f.path imported facts helpers f.root.origins) with
  | ok found =>
    have hstages : [.ok render] ++ f.hooks.map
        (hookStage ctx f.path imported facts helpers f.root.origins) =
          (render :: found).map .ok := by
      rw [map_eq_of_mapM hmap]
      rfl
    rw [hstages, ofStages_append]
    have hends := Ends.complete hknown hmap
    rw [hrender] at hends
    simpa [FileReport.ofStages] using hends
  | error e =>
    obtain ⟨before, h, after, found, hhooks, hbefore, hfails⟩ :=
      exists_first_error hmap
    rw [hhooks, List.map_append, List.map_cons, map_eq_of_mapM hbefore, hfails]
    -- the stages behind the hook that fails play no part
    have hstages : ∀ rest last : List (Except Fault (List Finding)),
        [.ok render] ++ (found.map .ok ++ .error e :: rest) ++ last =
          (render :: found).map .ok ++ .error e :: (rest ++ last) := by
      intro rest last
      simp
    rw [hstages, ofStages_append]
    have hends := Ends.atHook hknown hhooks hbefore hfails
    rw [hrender] at hends
    simpa [FileReport.ofStages] using hends

/-- The stages of a file end at the first failure, or when all are done. -/
theorem ends_allFindings (ctx : Context) (f : SourceFile)
    (imported : String → Option SetterTaker) :
    Ends ctx f imported (allFindings ctx f imported) := by
  cases hfacts : Facts.extract ctx f.path f.root with
  | error e =>
    have hnone : allFindings ctx f imported = ⟨[], true⟩ := by
      unfold allFindings
      rw [hfacts]
      rfl
    rw [hnone]
    exact .withoutFacts hfacts
  | ok facts =>
    cases hhelpers : HelperMap.build ctx facts.setters f.root with
    | error e =>
      have hstart : (do
          let facts ← Facts.extract ctx f.path f.root
          return (facts, ← HelperMap.build ctx facts.setters f.root) :
            Except Fault (Facts × HelperMap)) = .error e :=
        bind_eq_error.2 (.inr ⟨facts, hfacts, bind_eq_error.2 (.inl hhelpers)⟩)
      unfold allFindings
      simp only [hstart]
      exact .withoutHelpers hfacts hhelpers
    | ok helpers =>
      rw [allFindings_of_known ⟨hfacts, hhelpers⟩]
      exact ends_ofStages ⟨hfacts, hhelpers⟩

end

end Check

/-! ### Adding up reports -/

namespace Analysis

section

variable {ctx : Context} {facts : Option ProjectFacts} {seen : SourceSet}
  {a : Analysis}

/-- The checks of a file stop before their end. -/
def fails (ctx : Context) (facts : Option ProjectFacts)
    (e : String × SourceFile) : Bool :=
  (reportOn ctx facts e.1 e.2).failed

/-- An analysis has taken note of the reports on some files, and of nothing
else. -/
structure Accounts (ctx : Context) (facts : Option ProjectFacts)
    (seen : SourceSet) (a : Analysis) :
    Prop where
  findings : a.findings = seen.flatMap fun e =>
    (reportOn ctx facts e.1 e.2).findings
  analyzed : a.filesAnalyzed = (seen.filter (!fails ctx facts ·)).length
  hooks : a.hooksAnalyzed =
    ((seen.filter (!fails ctx facts ·)).map (·.2.hooks.length)).sum
  failed : a.failedFiles = (seen.filter (fails ctx facts)).map (·.2.path)

/-- One more report. -/
theorem Accounts.add (h : Accounts ctx facts seen a) (e : String × SourceFile) :
    Accounts ctx facts (seen ++ [e])
      (a.add e.2 (reportOn ctx facts e.1 e.2)) := by
  by_cases hfails : fails ctx facts e = true
  · have hadd : a.add e.2 (reportOn ctx facts e.1 e.2) = { a with
        findings := a.findings ++ (reportOn ctx facts e.1 e.2).findings
        failedFiles := a.failedFiles ++ [e.2.path] } := by
      unfold Analysis.add
      exact if_pos hfails
    rw [hadd]
    constructor
    · simp [h.findings]
    · simpa [hfails] using h.analyzed
    · simpa [hfails] using h.hooks
    · simpa [hfails] using h.failed
  · have hadd : a.add e.2 (reportOn ctx facts e.1 e.2) = { a with
        findings := a.findings ++ (reportOn ctx facts e.1 e.2).findings
        filesAnalyzed := a.filesAnalyzed + 1
        hooksAnalyzed := a.hooksAnalyzed + e.2.hooks.length } := by
      unfold Analysis.add
      exact if_neg hfails
    rw [hadd]
    constructor
    · simp [h.findings]
    · simpa [hfails] using h.analyzed
    · simpa [hfails] using h.hooks
    · simpa [hfails] using h.failed

/-- All reports, one after another. -/
theorem Accounts.foldl (h : Accounts ctx facts seen a) (files : SourceSet) :
    Accounts ctx facts (seen ++ files)
      (files.foldl (fun a e => a.add e.2 (reportOn ctx facts e.1 e.2)) a) := by
  induction files generalizing seen a with
  | nil =>
    rw [List.append_nil]
    exact h
  | cons e files ih =>
    rw [List.append_cons]
    exact ih (h.add e)

/-- The analysis adds up the reports on the requested files. -/
theorem exists_accounts (ctx : Context) (facts : Option ProjectFacts)
    (requested : SourceSet) :
    ∃ ordered b, ordered.Perm requested ∧ Accounts ctx facts ordered b ∧
      ofFiles ctx facts requested =
        { b with findings := Finding.sort b.findings } := by
  have hstart : Accounts ctx facts []
      { cycles := (facts.map (·.cycles)).getD [] } :=
    ⟨rfl, rfl, rfl, rfl⟩
  exact ⟨_, _, List.mergeSort_perm requested fun a b => decide (a.1 ≤ b.1),
    hstart.foldl _, rfl⟩

end

/-! ### The files of a run -/

section

variable {ctx : Context} {facts : Option ProjectFacts} {fs : FileSystem}
  {sources : List SourceFile} {requested : SourceSet}

/-- The paths that files are given under, resolved. -/
def resolvedPaths (fs : FileSystem) (sources : List SourceFile) : Set String :=
  {path | ∃ f ∈ sources, ∃ p, fs.realPath (.ofString f.path) = .ok p ∧
    p.text = path}

/-- One file is requested for every resolved path. -/
theorem ncard_resolvedPaths (h : keyed fs sources = .ok requested) :
    (resolvedPaths fs sources).ncard = requested.length := by
  have hpaths : resolvedPaths fs sources = requested.names.toFinset := by
    obtain ⟨entries, hentries, h⟩ := bind_eq_ok.1 h
    cases h
    ext path
    rw [Finset.mem_coe, List.mem_toFinset, Table.mem_names_ofEntries,
      List.mem_map]
    constructor
    · rintro ⟨f, hf, p, hp, rfl⟩
      exact ⟨(p.text, f),
        (mem_of_mapM hentries).2 ⟨f, hf, bind_eq_ok.2 ⟨p, hp, rfl⟩⟩, rfl⟩
    · rintro ⟨e, he, rfl⟩
      obtain ⟨f, hf, hentry⟩ := (mem_of_mapM hentries).1 he
      obtain ⟨p, hp, hentry⟩ := bind_eq_ok.1 hentry
      cases hentry
      exact ⟨f, hf, p, hp, rfl⟩
  rw [hpaths, Set.ncard_coe_finset, List.toFinset_card_of_nodup (nodup_keyed h),
    Table.names, List.length_map]

/-- No path is requested twice, since it decides the name a file is requested
under. -/
theorem nodup_paths (h : keyed fs sources = .ok requested) :
    (requested.map (·.2.path)).Nodup := by
  have hnames : requested.Pairwise fun a b => a.1 ≠ b.1 :=
    List.pairwise_map.1 (nodup_keyed h)
  refine List.pairwise_map.2
    (hnames.imp_of_mem fun {a b} ha hb hne heq => hne ?_)
  obtain ⟨-, p, hp, hpa⟩ := mem_keyed h ha
  obtain ⟨-, q, hq, hqb⟩ := mem_keyed h hb
  rw [heq, hq] at hp
  obtain rfl := Except.ok.inj hp
  exact hpa.symm.trans hqb

/-- What is found in a file names that file. -/
theorem file_of_mem_reportOn {file : String} {f : SourceFile} {x : Finding}
    (hx : x ∈ (reportOn ctx facts file f).findings) : x.file = f.path := by
  obtain ⟨n, -, hstands⟩ := Check.exists_standsAt (List.mem_filter.1 hx).1
  exact hstands.file

/-- Of the findings of files with different paths, those about one file are
its own. -/
theorem filter_flatMap_reportOn {files : SourceSet}
    (hpaths : (files.map (·.2.path)).Nodup) {e : String × SourceFile}
    (he : e ∈ files) :
    (files.flatMap fun e => (reportOn ctx facts e.1 e.2).findings).filter
      (·.file == e.2.path) = (reportOn ctx facts e.1 e.2).findings := by
  have hown : (reportOn ctx facts e.1 e.2).findings.filter
      (·.file == e.2.path) = (reportOn ctx facts e.1 e.2).findings := by
    refine List.filter_eq_self.2 fun x hx => ?_
    rw [file_of_mem_reportOn hx]
    exact beq_self_eq_true _
  have hothers : ∀ others : SourceSet, e.2.path ∉ others.map (·.2.path) →
      (others.flatMap fun e => (reportOn ctx facts e.1 e.2).findings).filter
        (·.file == e.2.path) = [] := by
    intro others hnew
    refine List.filter_eq_nil_iff.2 fun x hx => ?_
    obtain ⟨other, hother, hx⟩ := List.mem_flatMap.1 hx
    rw [file_of_mem_reportOn hx, beq_iff_eq]
    intro heq
    exact hnew (List.mem_map.2 ⟨other, hother, heq⟩)
  obtain ⟨before, after, rfl⟩ := List.append_of_mem he
  rw [List.map_append, List.map_cons] at hpaths
  have hbefore : e.2.path ∉ before.map (·.2.path) := by
    intro hmem
    exact (List.nodup_append.1 hpaths).2.2 _ hmem _ List.mem_cons_self rfl
  have hafter : e.2.path ∉ after.map (·.2.path) :=
    (List.nodup_cons.1 (List.nodup_append.1 hpaths).2.1).1
  rw [List.flatMap_append, List.flatMap_cons, List.filter_append,
    List.filter_append, hothers before hbefore, hown, hothers after hafter,
    List.nil_append, List.append_nil]

end

/-! ### The analysis -/

/-- The files of an analysis are accounted for one by one, whichever of them
fail. -/
structure Isolated (ctx : Context) (facts : Option ProjectFacts)
    (paths : Set String) (requested : SourceSet) (a : Analysis) : Prop where
  /-- Every path counts once, as analysed or as failed. -/
  total : a.filesAnalyzed + a.failedFiles.length = paths.ncard
  hooks : a.hooksAnalyzed =
    ((requested.filter (!fails ctx facts ·)).map (·.2.hooks.length)).sum
  failedOnce : a.failedFiles.Nodup
  failed : ∀ path, path ∈ a.failedFiles ↔ ∃ e ∈ requested, e.2.path = path ∧
    fails ctx facts e = true
  /-- The findings about a file are those of its own report, -/
  own : ∀ e ∈ requested,
    a.findings.filter (·.file == e.2.path) =
      Finding.sort (reportOn ctx facts e.1 e.2).findings
  /-- and there are no others. -/
  covered : ∀ x ∈ a.findings, ∃ e ∈ requested, x.file = e.2.path
  /-- The stages of a file, whatever they are, stop at the first that fails. -/
  stopped : ∀ e ∈ requested, ∀ known helpers,
    Check.Known ctx e.2 known helpers → Check.StopsAtFirst
      (Check.stages ctx e.2 (fun called => facts.bind (·.taker? e.1 called))
        known helpers)
      (Check.allFindings ctx e.2 fun called => facts.bind (·.taker? e.1 called))
  /-- A report holds what the stages found before they ended, less the silenced
  lines. -/
  kept : ∀ e ∈ requested, ∃ report : Check.FileReport,
    Check.Ends ctx e.2 (fun called => facts.bind (·.taker? e.1 called)) report ∧
    (reportOn ctx facts e.1 e.2).failed = report.failed ∧
    (reportOn ctx facts e.1 e.2).findings =
      report.findings.filter (!isLineIgnored e.2.lines ·.line)

/-- Checking the keyed files one by one keeps them apart. -/
theorem isolated_ofFiles (ctx : Context) (facts : Option ProjectFacts)
    {fs : FileSystem} {sources : List SourceFile} {requested : SourceSet}
    (hkeyed : keyed fs sources = .ok requested) :
    Isolated ctx facts (resolvedPaths fs sources) requested
      (ofFiles ctx facts requested) := by
  obtain ⟨ordered, b, hperm, hb, heq⟩ := exists_accounts ctx facts requested
  have hpaths : (ordered.map (·.2.path)).Nodup :=
    (hperm.map _).nodup_iff.2 (nodup_paths hkeyed)
  rw [heq]
  constructor
  · show b.filesAnalyzed + b.failedFiles.length = _
    have hsplit := List.length_eq_length_filter_add (l := ordered)
      (fails ctx facts)
    rw [hb.analyzed, hb.failed, List.length_map,
      ncard_resolvedPaths hkeyed, ← hperm.length_eq]
    omega
  · show b.hooksAnalyzed = _
    rw [hb.hooks]
    exact ((hperm.filter _).map _).sum_nat
  · show b.failedFiles.Nodup
    rw [hb.failed]
    exact hpaths.sublist (List.filter_sublist.map _)
  · intro path
    show path ∈ b.failedFiles ↔ _
    rw [hb.failed, List.mem_map]
    constructor
    · rintro ⟨e, he, rfl⟩
      obtain ⟨hmem, hfails⟩ := List.mem_filter.1 he
      exact ⟨e, hperm.mem_iff.1 hmem, rfl, hfails⟩
    · rintro ⟨e, hmem, rfl, hfails⟩
      exact ⟨e, List.mem_filter.2 ⟨hperm.mem_iff.2 hmem, hfails⟩, rfl⟩
  · intro e he
    show (Finding.sort b.findings).filter _ = _
    rw [Finding.filter_sort, hb.findings,
      filter_flatMap_reportOn hpaths (hperm.mem_iff.2 he)]
  · intro x hx
    have hx : x ∈ b.findings := List.mem_mergeSort.1 hx
    rw [hb.findings] at hx
    obtain ⟨e, he, hx⟩ := List.mem_flatMap.1 hx
    exact ⟨e, hperm.mem_iff.1 he, file_of_mem_reportOn hx⟩
  · intro e _ known helpers hknown
    rw [Check.allFindings_of_known hknown]
    exact Check.stopsAtFirst_ofStages _
  · intro e _
    exact ⟨_, Check.ends_allFindings ctx e.2 _, rfl, rfl⟩

/-- If the files can be named and their imports followed, the analysis
returns, and a file that fails changes neither the counts nor the findings of
the others. -/
theorem run_isolates_failures (ctx : Context) {r : Resolver}
    {parse : Closure.Parse} {sources : List SourceFile}
    {requested everything : SourceSet}
    (hkeyed : keyed r.files sources = .ok requested)
    (hexpand : Closure.expand r parse ctx.options.maxImportClosure requested =
      .ok everything) :
    ∃ a, run ctx r parse sources = .ok a ∧
      Isolated ctx (ProjectFacts.build ctx r everything).toOption
        (resolvedPaths r.files sources) requested a := by
  refine ⟨_, ?_, isolated_ofFiles ctx _ hkeyed⟩
  rw [run_eq hkeyed, hexpand]
  rfl

/-! ### A file that stops halfway -/

open ImportGraph (ringResolver)

/-- Settings with an entry that cannot be read, which only some calls make
known. -/
def tripping : Context :=
  { Context.usual with
    options := { Context.usual.options with overrides :=
      [("later", .malformed .null)] } }

/-- A component that sets its state while it renders, and does something in an
effect. -/
def eager (path : String) (inEffect : List Sketch) : SourceFile :=
  Sketch.file path [.function "A" [] [.useState "v" "setV",
    .run (.call "setV" [.number "1"]),
    .run (.call "useEffect" [.arrow inEffect])]]

/-- Only the effect of the first file calls a function. -/
def eagerPair : SourceSet :=
  [("/a.ts", eager "/a.ts" [.run (.call "setV" [.number "2"])]),
    ("/b.ts", eager "/b.ts" [])]

/-- The two files are keyed under their own paths. -/
theorem keyed_eagerPair :
    keyed ringResolver.files (eagerPair.map (·.2)) = .ok eagerPair := by
  refine bind_eq_ok.2 ⟨eagerPair,
    mapM_cons_eq_ok.2 ⟨_, _, ?_, mapM_cons_eq_ok.2 ⟨_, [], ?_, rfl, rfl⟩,
    rfl⟩, rfl⟩
  · refine bind_eq_ok.2 ⟨⟨.root, ["a.ts"]⟩, realPath_a, ?_⟩
    rw [ImportGraph.text_ring.1]
    rfl
  · refine bind_eq_ok.2 ⟨⟨.root, ["b.ts"]⟩, realPath_b, ?_⟩
    rw [ImportGraph.text_ring.2]
    rfl

theorem imports_eagerPair : ∀ e ∈ eagerPair, e.2.imports = [] := by
  have himports : eagerPair.map (·.2.imports) = [[], []] := by decide +kernel
  intro e he
  have hmem : e.2.imports ∈ eagerPair.map (·.2.imports) :=
    List.mem_map.2 ⟨e, he, rfl⟩
  rw [himports] at hmem
  simpa using hmem

/-- The first file fails at its effect and keeps what was found in its render
phase; the second is analysed. -/
theorem run_eagerPair :
    ∃ a, run tripping ringResolver unreadable (eagerPair.map (·.2)) = .ok a ∧
    a.filesAnalyzed + a.failedFiles.length =
      (resolvedPaths ringResolver.files (eagerPair.map (·.2))).ncard ∧
    a.hooksAnalyzed = 1 ∧ "/a.ts" ∈ a.failedFiles ∧ "/b.ts" ∉ a.failedFiles ∧
    ∀ e ∈ eagerPair, ∃ x, a.findings.filter (·.file == e.2.path) = [x] ∧
      x.code = .renderUpdate := by
  have hexpand : Closure.expand ringResolver unreadable
      tripping.options.maxImportClosure eagerPair = .ok eagerPair :=
      Closure.expand_of_no_imports imports_eagerPair
  obtain ⟨a, hrun, h⟩ := run_isolates_failures tripping keyed_eagerPair hexpand
  generalize hfacts :
    (ProjectFacts.build tripping ringResolver eagerPair).toOption = facts at h
  have hfails : eagerPair.map (fails tripping facts) = [true, false] := by
    rw [← hfacts]
    decide +kernel
  have hcodes : eagerPair.map
    (fun e => (reportOn tripping facts e.1 e.2).findings.map (·.code)) =
      [[.renderUpdate], [.renderUpdate]] := by
    rw [← hfacts]
    decide +kernel
  refine ⟨a, hrun, h.total, ?_, ?_, ?_, ?_⟩
  · rw [h.hooks, ← hfacts]
    decide +kernel
  · exact (h.failed "/a.ts").2 ⟨_, List.mem_cons_self, rfl,
      (List.cons.inj hfails).1⟩
  · intro hmem
    obtain ⟨e, he, hpath, hfailed⟩ := (h.failed "/b.ts").1 hmem
    rcases List.mem_cons.1 he with rfl | he
    · exact absurd hpath (by decide)
    · rw [List.mem_singleton.1 he, (List.cons.inj (List.cons.inj hfails).2).1]
        at hfailed
      cases hfailed
  · intro e he
    have hcode : (reportOn tripping facts e.1 e.2).findings.map (·.code) =
        [.renderUpdate] := by
      have hmem := List.mem_map_of_mem (f := fun e : String × SourceFile =>
        (reportOn tripping facts e.1 e.2).findings.map (·.code)) he
      rw [hcodes] at hmem
      simpa using hmem
    obtain ⟨x, hx, hxcode⟩ := List.map_eq_singleton_iff.1 hcode
    refine ⟨x, ?_, hxcode⟩
    rw [h.own e he, hx]
    exact List.mergeSort_singleton x

end Analysis

end RenderLoop
