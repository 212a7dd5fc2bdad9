import RenderLoop.Proofs.Completion
import RenderLoop.Proofs.HandedSetters
import Mathlib.Data.Set.Card

/-!
# The order of the input does not matter

An analysis says the same about files in whatever order they are given, as
long as they have different paths and the import closure stays below its
limit. Each stage is taken apart from the order it works in:

> `Closure.exists_expand_perm`: below the limit the closure takes in the files
> in reach, which are determined by the requested files as a set.

> `ImportGraph.cycles_perm`: the cycles are listed in the order of their
> files, and their files and names in order as well.

> `ProjectFacts.depthOf?_perm`: the depths of parameters are lengths of
> shortest chains.

> `Analysis.ofFiles_perm`: the requested files are checked in the order of
> their paths.

The limit matters: which files are taken in before it is reached depends on
the order of the input.

The proof is a chain of permutations. Files with different paths keep their
keys in any order (`keyed_perm`); the closures of two orders are permutations
of each other; and everything that is built from a closure is read by name or
by shortest length, so it does not tell the two apart. The last stage sorts,
which leaves no trace of the order at all.

Only `run_of_perm` needs an order to start with. Both directions of the main
statement are that lemma, applied to a permutation and to its inverse.
-/

namespace RenderLoop

/-! ### Files in reach -/

namespace Closure

variable {r : Resolver} {parse : Parse} {requested other : SourceSet}

/-- What is in reach depends on the requested files as a set. -/
theorem InReach.of_mem_iff (h : ∀ e, e ∈ requested ↔ e ∈ other) {file : String}
    {f : SourceFile} (hf : InReach r parse requested file f) :
    InReach r parse other file f := by
  induction hf with
  | requested hf => exact .requested ((h _).1 hf)
  | imported _ hi hp hsource hnew hparse ih =>
    refine .imported ih hi hp hsource (fun hmem => hnew ?_) hparse
    obtain ⟨e, he, hname⟩ := List.mem_map.1 hmem
    exact List.mem_map.2 ⟨e, (h e).2 he, hname⟩

theorem inReach_perm (hperm : requested.Perm other) :
    InReach r parse requested = InReach r parse other := by
  funext file f
  refine propext ⟨fun h => h.of_mem_iff fun e => hperm.mem_iff,
    fun h => h.of_mem_iff fun e => ?_⟩
  exact hperm.mem_iff.symm

/-- The files that the closure adds to the requested ones if there is no
limit. -/
def added (r : Resolver) (parse : Parse) (requested : SourceSet) : Set String :=
  {file | file ∉ requested.names ∧ ∃ f, InReach r parse requested file f}

/-- So does what the closure adds. -/
theorem added_perm (hperm : requested.Perm other) :
    added r parse requested = added r parse other := by
  have hnames : ∀ file, file ∈ requested.names ↔
    file ∈ other.names := fun file =>
    (hperm.map (·.1)).mem_iff
  unfold added
  simp only [hnames, inReach_perm hperm]

theorem limit_ne_zero {limit : Nat}
    (hroom : (added r parse requested).encard < limit) : limit ≠ 0 := by
  rintro rfl
  simp at hroom

/-- Files in reach, each listed once, are fewer than the requested files and
the limit together. -/
theorem length_lt_of_added {limit : Nat}
    (hroom : (added r parse requested).encard < limit)
    {files : SourceSet} (hnodup : files.names.Nodup)
    (hfiles : ∀ file f, (file, f) ∈ files → InReach r parse requested file f) :
    files.length < requested.length + limit := by
  let old := files.names.filter fun file => requested.names.contains file
  let new := files.names.filter fun file => !requested.names.contains file
  have hlength : files.length = old.length + new.length := by
    have hsplit := List.length_eq_length_filter_add (l := files.names)
      requested.names.contains
    rwa [Table.names, List.length_map] at hsplit
  have hold : old.length ≤ requested.length := by
    have hsub : old ⊆ requested.names := fun file hfile =>
      List.contains_iff_mem.1 (List.mem_filter.1 hfile).2
    have hle := ((hnodup.filter _).subperm hsub).length_le
    rwa [Table.names, List.length_map] at hle
  have hnew : new.length < limit := by
    have hsub : (new.toFinset : Set String) ⊆ added r parse requested := by
      intro file hfile
      obtain ⟨hmem, hfresh⟩ := List.mem_filter.1 (List.mem_toFinset.1 hfile)
      obtain ⟨⟨_, f⟩, hf, rfl⟩ := List.mem_map.1 hmem
      exact ⟨by simpa using hfresh, f, hfiles _ f hf⟩
    have hcard : (new.toFinset : Set String).encard = new.length := by
      rw [Set.encard_coe_eq_coe_finsetCard,
        List.toFinset_card_of_nodup (hnodup.filter _)]
    have hlt := (Set.encard_le_encard hsub).trans_lt hroom
    rw [hcard] at hlt
    exact_mod_cast hlt
  omega

/-- Below the limit the closure takes in the same files, whatever order they
are requested in. -/
theorem exists_expand_perm {limit : Nat} {everything : SourceSet}
    (hperm : requested.Perm other) (hnames : requested.names.Nodup)
    (hroom : (added r parse requested).encard < limit)
    (h : expand r parse limit requested = .ok everything) :
    ∃ everything', expand r parse limit other = .ok everything' ∧
      everything.Perm everything' := by
  have hlimit := limit_ne_zero hroom
  have hnames' : other.names.Nodup := (hperm.map _).nodup_iff.1 hnames
  have hroom' : (added r parse other).encard < limit := by
    rw [← added_perm hperm]
    exact hroom
  obtain ⟨honce, hreach⟩ := inReach_expand hnames h
  have hmem : ∀ file f, (file, f) ∈ everything ↔
    InReach r parse requested file f := fun file f =>
    mem_expand hnames hlimit h (length_lt_of_added hroom honce hreach)
  cases h' : expand r parse limit other with
  | error e =>
    -- the import that fails belongs to a file that was taken in before, with an
    -- answer
    obtain ⟨-, file, f, hf, i, hi, hfails⟩ := fails_of_expand hnames' h'
    rw [← inReach_perm hperm] at hf
    obtain ⟨answer, hanswer⟩ :=
      answered_expand hnames hlimit h file f ((hmem file f).2 hf) i hi
    cases hfails.symm.trans hanswer
  | ok everything' =>
    obtain ⟨honce', hreach'⟩ := inReach_expand hnames' h'
    refine ⟨everything', rfl, ?_⟩
    refine (List.perm_ext_iff_of_nodup honce.of_map honce'.of_map).2 fun e => ?_
    rw [hmem e.1 e.2, mem_expand hnames' hlimit h'
      (length_lt_of_added hroom' honce' hreach'), inReach_perm hperm]

end Closure

/-! ### Cycles -/

namespace ImportGraph

variable {files other : SourceSet} {r : Resolver} {g g' : ImportGraph}

/-- Which import leads where does not depend on the order of the files. -/
theorem leadsTo_perm (hperm : files.Perm other) :
    LeadsTo files r = LeadsTo other r := by
  have hnames : ∀ file, file ∈ files.names ↔ file ∈ other.names := fun file =>
    (hperm.map (·.1)).mem_iff
  funext a i b
  unfold LeadsTo
  simp only [hperm.mem_iff, hnames]

/-- The group of a file lists its members in order, so it is the same for both
graphs. -/
theorem cycleOf_perm (hperm : files.Perm other) (h : build files r = .ok g)
    (h' : build other r = .ok g') (file : String) :
    g.cycleOf file = g'.cycleOf file := by
  refine eq_of_pairwise_lt (pairwise_cycleOf g file)
    (pairwise_cycleOf g' file) fun a => ?_
  rw [mem_cycleOf h, mem_cycleOf h']
  unfold Imports
  rw [leadsTo_perm hperm]

/-- And so are the names that are shared in a group. -/
theorem namesAmong_perm (hperm : files.Perm other) (h : build files r = .ok g)
    (h' : build other r = .ok g') (group : List String) :
    g.namesAmong group = g'.namesAmong group := by
  refine eq_of_pairwise_lt (pairwise_sortedUnique _)
    (pairwise_sortedUnique _) fun a => ?_
  exact ((mem_namesAmong h).trans (by rw [leadsTo_perm hperm])).trans
    (mem_namesAmong h').symm

/-- The cycles do not depend on the order of the files. -/
theorem cycles_perm (hperm : files.Perm other) (h : build files r = .ok g)
    (h' : build other r = .ok g') : g.cycles = g'.cycles := by
  have hfiles : sortedUnique g.files = sortedUnique g'.files := by
    refine sortedUnique_congr fun file => ?_
    rw [files_build h, files_build h']
    exact (hperm.map (·.1)).mem_iff
  unfold cycles
  rw [hfiles]
  simp only [cycleOf_perm hperm h h', namesAmong_perm hperm h h']

end ImportGraph

/-! ### Facts about all files -/

namespace ProjectFacts

open HandOff

variable {ctx : Context} {r : Resolver} {files other : SourceSet}
  {facts facts' : ProjectFacts}

/-- The function behind a called name is the same for every order of the
files. -/
theorem callee?_perm (hperm : files.Perm other) (hnames : files.names.Nodup)
    (h : build ctx r files = .ok facts) (h' : build ctx r other = .ok facts') :
    ExportTable.callee? facts.exports = ExportTable.callee? facts'.exports :=
  ExportTable.callee?_congr
    (ExportTable.fileExports_perm hperm hnames (build_eq_ok h).1
      (build_eq_ok h').1)

/-- The recorded depths do not depend on the order of the files. -/
theorem depthOf?_perm (hperm : files.Perm other) (hnames : files.names.Nodup)
    (h : build ctx r files = .ok facts) (h' : build ctx r other = .ok facts')
    (p : Parameter) :
    facts.depthOf? p = facts'.depthOf? p := by
  rw [depthOf?_eq h, depthOf?_eq h']
  refine (exact_relaxAll _ _).depth?_eq (exact_relaxAll _ _) ?_ p
  rw [← chain_eq, ← chain_eq]
  exact (chain_perm hperm (callee?_perm hperm hnames h h').symm).symm

end ProjectFacts

/-! ### Reports -/

namespace Analysis

variable {ctx : Context} {requested other : SourceSet}

/-- Files under different names are put in the same order. -/
theorem ordered_perm (hperm : requested.Perm other)
    (hnames : requested.names.Nodup) :
    (requested.mergeSort fun a b => decide (a.1 ≤ b.1)) =
      other.mergeSort fun a b => decide (a.1 ≤ b.1) := by
  have hsorted : ∀ files : SourceSet,
    (files.mergeSort fun a b => decide (a.1 ≤ b.1)).Pairwise
      fun a b => a.1 ≤ b.1 := by
    intro files
    refine (List.pairwise_mergeSort ?_ ?_ files).imp fun h =>
      of_decide_eq_true h
    · intro a b c hab hbc
      exact decide_eq_true
        (String.le_trans (of_decide_eq_true hab) (of_decide_eq_true hbc))
    · intro a b
      simpa using String.le_total a.1 b.1
  refine List.Perm.eq_of_pairwise (fun a b ha hb hab hba => ?_)
    (hsorted requested) (hsorted other) ?_
  · have ha : a ∈ requested := List.mem_mergeSort.1 ha
    have hb : b ∈ requested := hperm.mem_iff.2 (List.mem_mergeSort.1 hb)
    exact List.inj_on_of_nodup_map hnames ha hb (String.le_antisymm hab hba)
  · exact (List.mergeSort_perm requested _).trans
      (hperm.trans (List.mergeSort_perm other _).symm)

/-- The analysis of the requested files does not depend on their order, nor on
that in which the facts about all files were gathered. -/
theorem ofFiles_perm {r : Resolver} {files files' : SourceSet}
    {facts facts' : ProjectFacts} (hperm : requested.Perm other)
    (hnames : requested.names.Nodup) (hfiles : files.Perm files')
    (honce : files.names.Nodup) (h : ProjectFacts.build ctx r files = .ok facts)
    (h' : ProjectFacts.build ctx r files' = .ok facts') :
    ofFiles ctx (some facts) requested = ofFiles ctx (some facts') other := by
  have hcycles : facts.cycles = facts'.cycles :=
    ImportGraph.cycles_perm hfiles (ProjectFacts.graph_build h)
      (ProjectFacts.graph_build h')
  have hreport : reportOn ctx (some facts) = reportOn ctx (some facts') := by
    funext file f
    refine Check.file_congr (ProjectFacts.agreeOnHanded_taker? ?_ ?_) ctx f
    · exact congrFun (ProjectFacts.callee?_perm hfiles honce h h') file
    · exact ProjectFacts.depthOf?_perm hfiles honce h h'
  unfold ofFiles
  rw [ordered_perm hperm hnames, hreport]
  simp only [Option.map_some, hcycles]

/-! ### The analysis -/

/-- Two files have different resolved paths. -/
def PathsDiffer (fs : FileSystem) (f g : SourceFile) : Prop :=
  ∀ p q, fs.realPath (.ofString f.path) = .ok p →
    fs.realPath (.ofString g.path) = .ok q → p.text ≠ q.text

theorem PathsDiffer.symm {fs : FileSystem} {f g : SourceFile}
    (h : PathsDiffer fs f g) :
    PathsDiffer fs g f := fun p q hp hq heq => h q p hq hp heq.symm

/-- Files with different paths keep their keys, in the order in which they are
given. -/
theorem keyed_perm {fs : FileSystem} {sources others : List SourceFile}
    (hperm : sources.Perm others) (hdiffer : sources.Pairwise (PathsDiffer fs))
    (h : keyed fs sources = .ok requested) :
    ∃ requested', keyed fs others = .ok requested' ∧
      requested.Perm requested' := by
  obtain ⟨entries, hentries, h⟩ := bind_eq_ok.1 h
  have hnames : (entries.map (·.1)).Nodup := by
    refine List.pairwise_map.2
      (pairwise_of_mapM (fun f g x y hfg hx hy => ?_) hdiffer hentries)
    obtain ⟨p, hp, hx⟩ := bind_eq_ok.1 hx
    obtain ⟨q, hq, hy⟩ := bind_eq_ok.1 hy
    cases hx
    cases hy
    exact hfg p q hp hq
  -- without repeated names no entry replaces another, in either order
  obtain ⟨entries', hentries', hperm'⟩ := mapM_perm hperm hentries
  have hnames' : (entries'.map (·.1)).Nodup := (hperm'.map _).nodup_iff.1 hnames
  cases h
  refine ⟨_, bind_eq_ok.2 ⟨entries', hentries', rfl⟩, ?_⟩
  rw [Table.ofEntries_eq_self hnames, Table.ofEntries_eq_self hnames']
  exact hperm'

/-- One half of the statement below: a run on files in another order has the
same result. -/
theorem run_of_perm {r : Resolver} {parse : Closure.Parse}
    {sources others : List SourceFile} {a : Analysis}
    (hperm : sources.Perm others)
    (hdiffer : sources.Pairwise (PathsDiffer r.files))
    (hroom : ∀ requested, keyed r.files sources = .ok requested →
      (Closure.added r parse requested).encard < ctx.options.maxImportClosure)
    (h : run ctx r parse sources = .ok a) : run ctx r parse others = .ok a := by
  obtain ⟨requested, hkeyed, -⟩ := bind_eq_ok.1 h
  have hroom := hroom requested hkeyed
  have hlimit := Closure.limit_ne_zero hroom
  rw [run_eq hkeyed] at h
  obtain ⟨everything, hexpand, h⟩ := bind_eq_ok.1 h
  obtain ⟨requested', hkeyed', hrequested⟩ := keyed_perm hperm hdiffer hkeyed
  have hnames := nodup_keyed hkeyed
  obtain ⟨everything', hexpand', hfiles⟩ :=
    Closure.exists_expand_perm hrequested hnames hroom hexpand
  -- all imports were answered, so the files are put in relation in both orders
  obtain ⟨facts, hfacts⟩ :
      ∃ facts, ProjectFacts.build ctx r everything = .ok facts :=
    ProjectFacts.exists_build (Closure.answered_expand hnames hlimit hexpand)
  obtain ⟨facts', hfacts'⟩ :
      ∃ facts, ProjectFacts.build ctx r everything' = .ok facts :=
    ProjectFacts.exists_build
      (Closure.answered_expand (nodup_keyed hkeyed') hlimit hexpand')
  have hsame := ofFiles_perm hrequested hnames hfiles
    (Closure.inReach_expand hnames hexpand).1 hfacts hfacts'
  rw [hfacts] at h
  rw [run_eq hkeyed', bind_eq_ok]
  refine ⟨everything', hexpand', ?_⟩
  rw [hfacts', ← h]
  exact congrArg Except.ok hsame.symm

/-- Files with different paths are analysed alike in every order, as long as
the import closure adds fewer files than its limit: an analysis returns in one
order what it returns in the other. -/
theorem run_perm (ctx : Context) (r : Resolver) (parse : Closure.Parse)
    {sources others : List SourceFile} (hperm : sources.Perm others)
    (hdiffer : sources.Pairwise (PathsDiffer r.files))
    (hroom : ∀ requested, keyed r.files sources = .ok requested →
      (Closure.added r parse requested).encard < ctx.options.maxImportClosure)
    (a : Analysis) :
    run ctx r parse sources = .ok a ↔ run ctx r parse others = .ok a := by
  refine ⟨run_of_perm hperm hdiffer hroom, run_of_perm hperm.symm ?_ ?_⟩
  · exact (hperm.pairwise_iff fun h => h.symm).1 hdiffer
  · intro requested' hkeyed'
    have hdiffer' := (hperm.pairwise_iff fun h => h.symm).1 hdiffer
    obtain ⟨requested, hkeyed, hrequested⟩ :=
      keyed_perm hperm.symm hdiffer' hkeyed'
    rw [Closure.added_perm hrequested]
    exact hroom requested hkeyed

open ImportGraph (ring ringResolver)

theorem pathsDiffer_ring :
    (ring.map (·.2)).Pairwise (PathsDiffer ringResolver.files) := by
  refine List.pairwise_cons.2 ⟨fun g hg p q hp hq => ?_,
    List.pairwise_singleton _ _⟩
  obtain rfl := List.mem_singleton.1 hg
  obtain rfl := Except.ok.inj (hp.symm.trans realPath_a)
  obtain rfl := Except.ok.inj (hq.symm.trans realPath_b)
  decide +kernel

/-- If nothing can be read, nothing is added. -/
theorem added_unreadable (r : Resolver) (requested : SourceSet) :
    Closure.added r unreadable requested = ∅ := by
  refine Set.eq_empty_iff_forall_notMem.2 ?_
  rintro file ⟨hnew, f, hf⟩
  cases hf.parsed hnew

theorem room_unreadable {limit : Nat} (hlimit : 0 < limit) (r : Resolver)
    (requested : SourceSet) :
    (Closure.added r unreadable requested).encard < limit := by
  rw [added_unreadable, Set.encard_empty]
  exact_mod_cast hlimit

/-- Two files that import each other, in both orders. -/
theorem run_ring_swapped :
    ∃ a, run .usual ringResolver unreadable (ring.map (·.2)) = .ok a ∧
    run .usual ringResolver unreadable (ring.map (·.2)).reverse = .ok a := by
  have hlimit : 0 < Context.usual.options.maxImportClosure := by decide +kernel
  have hperm : (ring.map (·.2)).Perm (ring.map (·.2)).reverse :=
    (List.reverse_perm _).symm
  obtain ⟨requested, hkeyed⟩ :
      ∃ requested, keyed ringResolver.files (ring.map (·.2)) = .ok requested :=
    exists_keyed fun f hf => (located_ring f hf).imp fun _ h => h.1
  obtain ⟨everything, facts, -, -, hrun⟩ :=
    exists_run .usual hkeyed (not_failsIn_ring hkeyed)
  have hsame := run_perm .usual ringResolver unreadable hperm pathsDiffer_ring
    (fun requested _ => room_unreadable hlimit ringResolver requested)
    (ofFiles .usual (some facts) requested)
  exact ⟨ofFiles .usual (some facts) requested, hrun, hsame.1 hrun⟩

end Analysis

end RenderLoop
