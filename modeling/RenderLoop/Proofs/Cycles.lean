import RenderLoop.Project.ImportGraph
import RenderLoop.Proofs.Names
import RenderLoop.Proofs.Resolution
import RenderLoop.Proofs.Search
import RenderLoop.Proofs.Sketch
import Mathlib.Data.Set.Function

/-!
# Import cycles are the classes of mutual reachability

Files reach one another by imports. Mutual reachability is an equivalence, and
the cyclic classes are those with at least two files or with one file that
imports itself. `ImportGraph.cycles` lists exactly these classes, each once:

> `carries_build`: the edges of the built graph are the imports that lead from
> file to file, and the names on an edge are those of all imports it stands
> for.

> `mem_cycleOf`: the group of a file holds the files that it reaches and that
> reach it, in one step or more, so files of one group have the same group
> (`cycleOf_eq_of_mem`).

> `mem_cycles`: a group is listed for its first file, hence once.

So the listing is in bijection with the cyclic classes (`bijOn_cycles`) and
covers every file on a cycle (`covers_cycles`).

Names that are shared on a cycle are followed through the same steps: an edge
collects the names of all imports between its two files (`mem_namesOf`), and a
group those of all edges between its files (`mem_namesAmong`). What is proved
of an edge is stated for any property of its names that adds up when names do
(`Carries`), so that being there and carrying a name are two cases of
one lemma.
-/

namespace RenderLoop

/-- An import is about a name: the name of something in the other file, the
name it is given here, or the name of the default or of the whole. -/
def Import.IsAbout (i : Import) (name : String) : Prop :=
  (∃ s ∈ i.specifiers, s.1 = name ∨ s.2 = name) ∨ i.defaultName = some name ∨
    i.namespaceName = some name

namespace ImportGraph

open Relation (ReflTransGen TransGen)

/-- The names listed for an import are those it is about. -/
theorem mem_namesOf {i : Import} {name : String} :
    name ∈ namesOf i ↔ i.IsAbout name := by
  unfold namesOf Import.localNames Import.IsAbout
  simp only [List.mem_append, List.mem_map, Option.mem_toList]
  constructor
  · rintro (((⟨s, hs, rfl⟩ | h) | h) | ⟨s, hs, rfl⟩)
    · exact .inl ⟨s, hs, .inr rfl⟩
    · exact .inr (.inl h)
    · exact .inr (.inr h)
    · exact .inl ⟨s, hs, .inl rfl⟩
  · rintro (⟨s, hs, rfl | rfl⟩ | h | h)
    · exact .inr ⟨s, hs, rfl⟩
    · exact .inl (.inl (.inl ⟨s, hs, rfl⟩))
    · exact .inl (.inl (.inr h))
    · exact .inl (.inr h)

/-! ### Imports between files -/

/-- The import `i` of the file `a` leads to the file `b`. -/
def LeadsTo (files : SourceSet) (r : Resolver) (a : String) (i : Import)
    (b : String) : Prop :=
  (∃ f, (a, f) ∈ files ∧ i ∈ f.imports) ∧
    (∃ p, r.resolve (.ofString a) i.source = .ok (some p) ∧ p.text = b) ∧
      b ∈ files.names

/-- Some import of the file `a` leads to the file `b`. -/
def Imports (files : SourceSet) (r : Resolver) (a b : String) : Prop :=
  ∃ i, LeadsTo files r a i b

theorem mem_names_of_imports {files : SourceSet} {r : Resolver} {a b : String}
    (h : Imports files r a b) : b ∈ files.names := by
  obtain ⟨i, -, -, hb⟩ := h
  exact hb

/-- The resolved imports of a file are those that lead to a file of the
set. -/
theorem mem_resolvedImports {files : SourceSet} {r : Resolver} {a : String}
    {f : SourceFile} {found : List (Import × String)}
    (h : resolvedImports files r a f = .ok found) {i : Import}
    {b : String} :
    (i, b) ∈ found ↔ i ∈ f.imports ∧
      (∃ p, r.resolve (.ofString a) i.source = .ok (some p) ∧ p.text = b) ∧
        b ∈ files.names := by
  unfold resolvedImports at h
  obtain ⟨answers, hanswers, h⟩ := bind_eq_ok.1 h
  cases h
  simp only [List.mem_filter, List.mem_filterMap, id, exists_eq_right,
    mem_of_mapM hanswers, Table.contains_iff]
  constructor
  · rintro ⟨⟨j, hj, hstep⟩, hb⟩
    obtain ⟨answer, hanswer, hstep⟩ := bind_eq_ok.1 hstep
    have hmap : answer.map (fun p => (j, p.text)) = some (i, b) :=
      Except.ok.inj hstep
    obtain ⟨p, rfl, hp⟩ := Option.map_eq_some_iff.1 hmap
    obtain ⟨rfl, rfl⟩ := Prod.mk.inj hp
    exact ⟨hj, ⟨p, hanswer, rfl⟩, hb⟩
  · rintro ⟨hi, ⟨p, hp, rfl⟩, hb⟩
    exact ⟨⟨i, hi, bind_eq_ok.2 ⟨some p, hp, rfl⟩⟩, hb⟩

/-! ### The edges of the graph -/

/-- An edge between two files carries names with a property that adds up when
names do. -/
def Carries (edges : List ImportEdge) (a b : String) (p : List String → Prop) :
    Prop :=
  ∃ e ∈ edges, e.source = a ∧ e.target = b ∧ p e.names

section

variable {edges : List ImportEdge} {e : ImportEdge} {a b : String}
  {p : List String → Prop}

/-- An edge that takes over the names of `e` carries what it carried and, if
it joins the same files, what `e` carries. -/
theorem carries_joined (hp : ∀ xs ys, p (xs ++ ys) ↔ p xs ∨ p ys)
    (x : ImportEdge) :
    let y := if x.source == e.source && x.target == e.target then
      { x with names := x.names ++ e.names } else x
    (y.source = a ∧ y.target = b ∧ p y.names) ↔
      x.source = a ∧ x.target = b ∧
        (p x.names ∨ e.source = a ∧ e.target = b ∧ p e.names) := by
  intro y
  by_cases hjoin : x.source = e.source ∧ x.target = e.target
  · have hy : y = { x with names := x.names ++ e.names } :=
      if_pos (by simpa using hjoin)
    rw [hy, hp, ← hjoin.1, ← hjoin.2]
    refine and_congr_right fun hs => and_congr_right fun ht => or_congr_right ?_
    exact ⟨fun h => ⟨hs, ht, h⟩, fun h => h.2.2⟩
  · have hy : y = x := if_neg (by simpa using hjoin)
    rw [hy]
    refine and_congr_right fun hs => and_congr_right fun ht => ?_
    refine (or_iff_left fun h => hjoin ?_).symm
    exact ⟨hs.trans h.1.symm, ht.trans h.2.1.symm⟩

/-- Adding an edge adds what it carries between its two files. -/
theorem carries_addEdge (hp : ∀ xs ys, p (xs ++ ys) ↔ p xs ∨ p ys) :
    Carries (addEdge edges e) a b p ↔
      Carries edges a b p ∨ e.source = a ∧ e.target = b ∧ p e.names := by
  unfold addEdge Carries
  split
  · next hany =>
    -- the edge exists: its names grow, all other edges stay
    obtain ⟨old, hold, hjoin⟩ := List.any_eq_true.1 hany
    have hjoin : old.source = e.source ∧ old.target = e.target := by
      simpa using hjoin
    constructor
    · rintro ⟨y, hy, hcarries⟩
      obtain ⟨x, hx, rfl⟩ := List.mem_map.1 hy
      obtain ⟨hs, ht, hnames | hnew⟩ := (carries_joined hp x).1 hcarries
      · exact .inl ⟨x, hx, hs, ht, hnames⟩
      · exact .inr hnew
    · rintro (⟨x, hx, hs, ht, hnames⟩ | hnew)
      · exact ⟨_, List.mem_map.2 ⟨x, hx, rfl⟩,
          (carries_joined hp x).2 ⟨hs, ht, .inl hnames⟩⟩
      · refine ⟨_, List.mem_map.2 ⟨old, hold, rfl⟩,
          (carries_joined hp old).2 ?_⟩
        exact ⟨hjoin.1.trans hnew.1, hjoin.2.trans hnew.2.1, .inr hnew⟩
  · -- a new edge comes to the end
    constructor
    · rintro ⟨y, hy, hcarries⟩
      rcases List.mem_append.1 hy with hy | hy
      · exact .inl ⟨y, hy, hcarries⟩
      · obtain rfl := List.mem_singleton.1 hy
        exact .inr hcarries
    · rintro (⟨y, hy, hcarries⟩ | hnew)
      · exact ⟨y, List.mem_append_left _ hy, hcarries⟩
      · exact ⟨e, List.mem_append_right _ List.mem_cons_self, hnew⟩

end

/-- And so does adding edges one after another. -/
theorem carries_foldl_addEdge {new : List ImportEdge} {a b : String}
    {p : List String → Prop} (hp : ∀ xs ys, p (xs ++ ys) ↔ p xs ∨ p ys) :
    ∀ edges : List ImportEdge,
      Carries (new.foldl addEdge edges) a b p ↔ Carries edges a b p ∨
        Carries new a b p := by
  induction new with
  | nil =>
    intro edges
    simp [Carries]
  | cons e new ih =>
    intro edges
    rw [List.foldl_cons, ih, carries_addEdge hp]
    unfold Carries
    constructor
    · rintro ((h | ⟨hs, ht, h⟩) | ⟨x, hx, h⟩)
      · exact .inl h
      · exact .inr ⟨e, List.mem_cons_self, hs, ht, h⟩
      · exact .inr ⟨x, List.mem_cons_of_mem _ hx, h⟩
    · rintro (h | ⟨x, hx, h⟩)
      · exact .inl (.inl h)
      · rcases List.mem_cons.1 hx with rfl | hx
        · exact .inl (.inr h)
        · exact .inr ⟨x, hx, h⟩

/-- The edges of the built graph are the imports between the files, with the
names of all of them. -/
theorem carries_build {files : SourceSet} {r : Resolver} {g : ImportGraph}
    (h : build files r = .ok g) {a b : String} {p : List String → Prop}
    (hp : ∀ xs ys, p (xs ++ ys) ↔ p xs ∨ p ys) :
    Carries g.edges a b p ↔ ∃ i, LeadsTo files r a i b ∧ p (namesOf i) := by
  unfold build at h
  obtain ⟨found, hfound, h⟩ := bind_eq_ok.1 h
  cases h
  have noEdge : ¬ Carries [] a b p := by simp [Carries]
  rw [carries_foldl_addEdge hp, or_iff_right noEdge]
  constructor
  · rintro ⟨e, he, rfl, rfl, hep⟩
    obtain ⟨es, hes, he⟩ := List.mem_flatten.1 he
    obtain ⟨⟨file, f⟩, hf, hstep⟩ := (mem_of_mapM hfound).1 hes
    obtain ⟨resolved, hresolved, hstep⟩ := bind_eq_ok.1 hstep
    cases hstep
    obtain ⟨⟨i, target⟩, hi, rfl⟩ := List.mem_map.1 he
    obtain ⟨himport, hto⟩ := (mem_resolvedImports hresolved).1 hi
    exact ⟨i, ⟨⟨f, hf, himport⟩, hto⟩, hep⟩
  · rintro ⟨i, ⟨⟨f, hf, himport⟩, hto⟩, hip⟩
    -- the build went through, so the imports of this file were resolved
    obtain ⟨es, hes⟩ := exists_of_mapM hfound hf
    obtain ⟨resolved, hresolved, hstep⟩ := bind_eq_ok.1 hes
    cases hstep
    refine ⟨⟨a, b, namesOf i⟩, ?_, rfl, rfl, hip⟩
    refine List.mem_flatten.2 ⟨_, (mem_of_mapM hfound).2 ⟨(a, f), hf, hes⟩, ?_⟩
    exact List.mem_map.2 ⟨(i, b),
      (mem_resolvedImports hresolved).2 ⟨himport, hto⟩, rfl⟩

theorem files_build {files : SourceSet} {r : Resolver} {g : ImportGraph}
    (h : build files r = .ok g) : g.files = files.names := by
  unfold build at h
  obtain ⟨found, -, h⟩ := bind_eq_ok.1 h
  cases h
  rfl

/-- The graph has an edge exactly where a file imports another. -/
theorem mem_importsOf_build {files : SourceSet} {r : Resolver} {g : ImportGraph}
    (h : build files r = .ok g) {a b : String} :
    b ∈ g.importsOf a ↔ Imports files r a b := by
  have hcarries := carries_build h (a := a) (b := b)
    (p := fun _ => True) (by simp)
  unfold Imports
  simp only [and_true] at hcarries
  rw [← hcarries]
  simp [importsOf, Carries, and_assoc]

/-! ### Reachability -/

/-- The search through the graph finds what is reached in one step or more. -/
theorem mem_reachable_build {files : SourceSet} {r : Resolver} {g : ImportGraph}
    (h : build files r = .ok g) {a b : String} :
    b ∈ g.reachable a ↔ TransGen (Imports files r) a b := by
  have hstep : (g.space a).Step = Imports files r := by
    funext x y
    exact propext (mem_importsOf_build h)
  unfold reachable
  rw [Space.mem_visit, hstep, Relation.TransGen.head'_iff]
  constructor
  · rintro ⟨c, hc, hcb⟩
    exact ⟨c, (mem_importsOf_build h).1 hc, hcb⟩
  · rintro ⟨c, hc, hcb⟩
    exact ⟨c, (mem_importsOf_build h).2 hc, hcb⟩

theorem mem_names_of_transGen {files : SourceSet} {r : Resolver} {a b : String}
    (h : TransGen (Imports files r) a b) : b ∈ files.names := by
  obtain ⟨c, -, hcb⟩ := Relation.TransGen.tail'_iff.1 h
  exact mem_names_of_imports hcb

/-- The group of a file: what it reaches and what reaches it, in one step or
more. -/
theorem mem_cycleOf {files : SourceSet} {r : Resolver} {g : ImportGraph}
    (h : build files r = .ok g) {a b : String} :
    b ∈ g.cycleOf a ↔ TransGen (Imports files r) a b ∧
      TransGen (Imports files r) b a := by
  unfold cycleOf importEachOther
  simp only [List.mem_filter, mem_sortedUnique, files_build h, Bool.and_eq_true,
    List.contains_iff_mem, mem_reachable_build h]
  constructor
  · rintro ⟨-, hab, hba⟩
    exact ⟨hab, hba⟩
  · rintro ⟨hab, hba⟩
    exact ⟨mem_names_of_transGen hab, hab, hba⟩

/-- The files of a cycle are listed in order. -/
theorem pairwise_cycleOf (g : ImportGraph) (a : String) :
    (g.cycleOf a).Pairwise (· < ·) :=
  (pairwise_sortedUnique g.files).filter _

/-- Files of one group have the same group. -/
theorem cycleOf_eq_of_mem {files : SourceSet} {r : Resolver} {g : ImportGraph}
    (h : build files r = .ok g) {a b : String} (hb : b ∈ g.cycleOf a) :
    g.cycleOf b = g.cycleOf a := by
  obtain ⟨hab, hba⟩ := (mem_cycleOf h).1 hb
  unfold cycleOf
  refine List.filter_congr fun c _ => ?_
  unfold importEachOther
  rw [Bool.eq_iff_iff]
  simp only [Bool.and_eq_true, List.contains_iff_mem, mem_reachable_build h]
  constructor
  · rintro ⟨hbc, hcb⟩
    exact ⟨hab.trans hbc, hcb.trans hba⟩
  · rintro ⟨hac, hca⟩
    exact ⟨hba.trans hac, hca.trans hab⟩

/-- A cycle is recorded at the first of its files, so it is recorded once. -/
theorem mem_cycles {g : ImportGraph} {c : ImportCycle} :
    c ∈ g.cycles ↔ ∃ a ∈ g.files, (g.cycleOf a).head? = some a ∧
      c = ⟨g.cycleOf a, g.namesAmong (g.cycleOf a)⟩ := by
  unfold cycles
  simp only [List.mem_filterMap, mem_sortedUnique, beq_iff_eq,
    Option.ite_none_right_eq_some, Option.some.injEq]
  constructor
  · rintro ⟨a, ha, hhead, rfl⟩
    exact ⟨a, ha, hhead, rfl⟩
  · rintro ⟨a, ha, hhead, rfl⟩
    exact ⟨a, ha, hhead, rfl⟩

theorem head_mem_cycleOf {g : ImportGraph} {a : String}
    (h : (g.cycleOf a).head? = some a) :
    a ∈ g.cycleOf a :=
  List.mem_of_mem_head? h

/-- A file on a cycle is listed with its group. -/
theorem exists_mem_cycles {files : SourceSet} {r : Resolver} {g : ImportGraph}
    (h : build files r = .ok g) {a : String}
    (ha : TransGen (Imports files r) a a) :
    ∃ c ∈ g.cycles, c.files = g.cycleOf a := by
  have hself : a ∈ g.cycleOf a := (mem_cycleOf h).2 ⟨ha, ha⟩
  -- the first file of the group is the one the group is listed for
  obtain ⟨m, hm⟩ : ∃ m, (g.cycleOf a).head? = some m := by
    cases hgroup : g.cycleOf a with
    | nil => rw [hgroup] at hself; cases hself
    | cons m rest => exact ⟨m, rfl⟩
  have hmem : m ∈ g.cycleOf a := List.mem_of_mem_head? hm
  have hsame : g.cycleOf m = g.cycleOf a := cycleOf_eq_of_mem h hmem
  refine ⟨⟨g.cycleOf m, g.namesAmong (g.cycleOf m)⟩,
    mem_cycles.2 ⟨m, ?_, ?_, rfl⟩, hsame⟩
  · rw [files_build h]
    exact mem_names_of_transGen ((mem_cycleOf h).1 hmem).1
  · rw [hsame]
    exact hm

/-! ### Classes of mutual reachability -/

/-- Each of two files is reached from the other, or they are the same. -/
def MutuallyReach (files : SourceSet) (r : Resolver) (a b : String) : Prop :=
  ReflTransGen (Imports files r) a b ∧ ReflTransGen (Imports files r) b a

theorem mutuallyReach_equivalence (files : SourceSet) (r : Resolver) :
    Equivalence (MutuallyReach files r) where
  refl _ := ⟨.refl, .refl⟩
  symm h := ⟨h.2, h.1⟩
  trans h k := ⟨h.1.trans k.1, k.2.trans h.2⟩

/-- The classes of mutual reachability with at least two files, or with one
that imports itself. -/
def cyclicClasses (files : SourceSet) (r : Resolver) : Set (Set String) :=
  {group | (∃ a ∈ files.names, group = {b | MutuallyReach files r a b}) ∧
    (group.Nontrivial ∨ ∃ a, group = {a} ∧ Imports files r a a)}

/-- Around a file on a cycle, reaching one another takes at least a step. -/
theorem mutuallyReach_iff_of_cycle {files : SourceSet} {r : Resolver}
    {a b : String} (ha : TransGen (Imports files r) a a) :
    MutuallyReach files r a b ↔
      TransGen (Imports files r) a b ∧ TransGen (Imports files r) b a := by
  constructor
  · rintro ⟨hab, hba⟩
    exact ⟨ha.trans_left hab, ha.trans_right hba⟩
  · rintro ⟨hab, hba⟩
    exact ⟨hab.to_reflTransGen, hba.to_reflTransGen⟩

/-- The class of a file is cyclic iff the file is on a cycle. -/
theorem isCyclic_iff {files : SourceSet} {r : Resolver} {a : String} :
    (({b | MutuallyReach files r a b} : Set String).Nontrivial ∨
      ∃ c, {b | MutuallyReach files r a b} = {c} ∧ Imports files r c c) ↔
      TransGen (Imports files r) a a := by
  have hself : a ∈ {b | MutuallyReach files r a b} :=
    (mutuallyReach_equivalence files r).refl a
  constructor
  · rintro (h | ⟨c, hc, hloop⟩)
    · obtain ⟨b, ⟨hab, hba⟩, hne⟩ := h.exists_ne a
      rcases Relation.reflTransGen_iff_eq_or_transGen.1 hab with hb | hab
      · exact absurd hb hne
      · exact hab.trans_left hba
    · have hac : a = c := by
        rw [hc] at hself
        exact hself
      subst hac
      exact .single hloop
  · intro h
    by_cases hmany : ({b | MutuallyReach files r a b} : Set String).Nontrivial
    · exact .inl hmany
    · -- alone in its class, the file is its own next step on the cycle
      have hone : {b | MutuallyReach files r a b} = {a} :=
        (Set.not_nontrivial_iff.1 hmany).eq_singleton_of_mem hself
      obtain ⟨c, hac, hca⟩ := Relation.TransGen.head'_iff.1 h
      have hc : c ∈ {b | MutuallyReach files r a b} := ⟨.single hac, hca⟩
      rw [hone] at hc
      obtain rfl : c = a := hc
      exact .inr ⟨c, hone, hac⟩

/-- The group of a file on a cycle is its class. -/
theorem setOf_mem_cycleOf {files : SourceSet} {r : Resolver} {g : ImportGraph}
    (h : build files r = .ok g) {a : String}
    (ha : TransGen (Imports files r) a a) :
    {b | b ∈ g.cycleOf a} = {b | MutuallyReach files r a b} := by
  ext b
  exact (mem_cycleOf h).trans (mutuallyReach_iff_of_cycle ha).symm

/-! ### The listing -/

/-- What a listing of the cycles among files is: one record for each
cyclic class. -/
structure ListsCycles (files : SourceSet) (r : Resolver)
    (cycles : List ImportCycle) : Prop where
  classes : Set.BijOn (fun c => {a | a ∈ c.files}) {c | c ∈ cycles}
    (cyclicClasses files r)
  once : cycles.Nodup
  filesInOrder : ∀ c ∈ cycles, c.files.Pairwise (· < ·)
  apart : cycles.Pairwise fun c d => ∀ a ∈ c.files, a ∉ d.files
  covers : ∀ a, TransGen (Imports files r) a a ↔ ∃ c ∈ cycles, a ∈ c.files
  empty_of_acyclic : (∀ a, ¬ TransGen (Imports files r) a a) → cycles = []
  inOrder : cycles.Pairwise fun c d => c.files < d.files
  namesInOrder : ∀ c ∈ cycles, c.sharedNames.Pairwise (· < ·)
  /-- The names shared by a class are those that imports inside it are about. -/
  mem_names : ∀ c ∈ cycles, ∀ n, n ∈ c.sharedNames ↔
    ∃ a ∈ c.files, ∃ b ∈ c.files, ∃ i, LeadsTo files r a i b ∧ i.IsAbout n

/-- The names of a group are those its imports of one another are about. -/
theorem mem_namesAmong {files : SourceSet} {r : Resolver} {g : ImportGraph}
    (h : build files r = .ok g) {group : List String} {n : String} :
    n ∈ g.namesAmong group ↔
      ∃ a ∈ group, ∃ b ∈ group, ∃ i, LeadsTo files r a i b ∧ i.IsAbout n := by
  have hcarries := fun a b =>
    carries_build h (a := a) (b := b) (p := (n ∈ ·)) (by simp)
  simp only [← mem_namesOf, ← hcarries]
  simp only [namesAmong, mem_sortedUnique, List.mem_flatMap, List.mem_filter,
    Bool.and_eq_true, List.contains_iff_mem, Carries]
  constructor
  · rintro ⟨e, ⟨he, hs, ht⟩, hn⟩
    exact ⟨e.source, hs, e.target, ht, e, he, rfl, rfl, hn⟩
  · rintro ⟨a, ha, b, hb, e, he, rfl, rfl, hn⟩
    exact ⟨e, ⟨he, ha, hb⟩, hn⟩

/-- Groups are listed in the order of their first files. -/
theorem pairwise_cycles (g : ImportGraph) :
    g.cycles.Pairwise fun c d => c.files < d.files := by
  unfold cycles
  rw [List.pairwise_filterMap]
  refine (pairwise_sortedUnique g.files).imp fun {a b} hab c hc d hd => ?_
  simp only [beq_iff_eq, Option.ite_none_right_eq_some,
    Option.some.injEq] at hc hd
  obtain ⟨hca, rfl⟩ := hc
  obtain ⟨hdb, rfl⟩ := hd
  obtain ⟨xs, hxs⟩ := List.head?_eq_some_iff.1 hca
  obtain ⟨ys, hys⟩ := List.head?_eq_some_iff.1 hdb
  show g.cycleOf a < g.cycleOf b
  rw [hxs, hys]
  exact List.cons_lt_cons_iff.2 (.inl hab)

/-- Two recorded cycles with a file in common are the same. -/
theorem eq_of_shared_file {files : SourceSet} {r : Resolver} {g : ImportGraph}
    (h : build files r = .ok g) {c d : ImportCycle} (hc : c ∈ g.cycles)
    (hd : d ∈ g.cycles)
    {a : String} (hac : a ∈ c.files) (had : a ∈ d.files) : c = d := by
  obtain ⟨x, -, -, rfl⟩ := mem_cycles.1 hc
  obtain ⟨y, -, -, rfl⟩ := mem_cycles.1 hd
  have hsame : g.cycleOf x = g.cycleOf y :=
    (cycleOf_eq_of_mem h hac).symm.trans (cycleOf_eq_of_mem h had)
  rw [hsame]

/-- A file is listed in a cycle exactly when it reaches itself. -/
theorem covers_cycles {files : SourceSet} {r : Resolver} {g : ImportGraph}
    (h : build files r = .ok g) (a : String) :
    TransGen (Imports files r) a a ↔ ∃ c ∈ g.cycles, a ∈ c.files := by
  constructor
  · intro ha
    obtain ⟨c, hc, hfiles⟩ := exists_mem_cycles h ha
    refine ⟨c, hc, ?_⟩
    rw [hfiles]
    exact (mem_cycleOf h).2 ⟨ha, ha⟩
  · rintro ⟨c, hc, ha⟩
    obtain ⟨x, -, -, rfl⟩ := mem_cycles.1 hc
    obtain ⟨hxa, hax⟩ := (mem_cycleOf h).1 ha
    exact hax.trans hxa

/-- The cycles recorded are the cyclic classes, one record for each. -/
theorem bijOn_cycles {files : SourceSet} {r : Resolver} {g : ImportGraph}
    (h : build files r = .ok g) :
    Set.BijOn (fun c => {a | a ∈ c.files}) {c | c ∈ g.cycles}
      (cyclicClasses files r) := by
  refine ⟨?_, ?_, ?_⟩
  · intro c hc
    obtain ⟨x, hx, hhead, rfl⟩ := mem_cycles.1 hc
    obtain ⟨hxx, -⟩ := (mem_cycleOf h).1 (head_mem_cycleOf hhead)
    rw [files_build h] at hx
    show {a | a ∈ g.cycleOf x} ∈ cyclicClasses files r
    rw [setOf_mem_cycleOf h hxx]
    exact ⟨⟨x, hx, rfl⟩, isCyclic_iff.2 hxx⟩
  · intro c hc d hd hcd
    have hsets : {a | a ∈ c.files} = {a | a ∈ d.files} := hcd
    obtain ⟨x, -, hhead, rfl⟩ := mem_cycles.1 hc
    have hxc : x ∈ g.cycleOf x := head_mem_cycleOf hhead
    have hxd : x ∈ {a | a ∈ d.files} := hsets ▸ hxc
    exact eq_of_shared_file h hc hd hxc hxd
  · rintro group ⟨⟨x, -, rfl⟩, hcyclic⟩
    have hxx := isCyclic_iff.1 hcyclic
    obtain ⟨c, hc, hfiles⟩ := exists_mem_cycles h hxx
    refine ⟨c, hc, ?_⟩
    show {a | a ∈ c.files} = _
    rw [hfiles]
    exact setOf_mem_cycleOf h hxx

/-- Every import of every file gets an answer. -/
def Answered (files : SourceSet) (r : Resolver) : Prop :=
  ∀ a f, (a, f) ∈ files →
    ∀ i ∈ f.imports, ∃ answer, r.resolve (.ofString a) i.source = .ok answer

/-- When every import gets an answer, the imports of each file can be
resolved. -/
theorem Answered.exists_resolvedImports {files : SourceSet} {r : Resolver}
    (hr : Answered files r) {a : String} {f : SourceFile}
    (hf : (a, f) ∈ files) :
    ∃ found, resolvedImports files r a f = .ok found := by
  have answered : ∀ i ∈ f.imports, ∃ answer,
      (do return (← r.resolve (.ofString a) i.source).map fun p => (i, p.text) :
        Except ProjectError _) = .ok answer := by
    intro i hi
    obtain ⟨answer, hanswer⟩ := hr a f hf i hi
    exact ⟨_, bind_eq_ok.2 ⟨answer, hanswer, rfl⟩⟩
  obtain ⟨answers, hanswers⟩ := exists_mapM answered
  exact ⟨_, bind_eq_ok.2 ⟨answers, hanswers, rfl⟩⟩

/-- The graph is built as soon as every import gets an answer. -/
theorem Answered.exists_build {files : SourceSet} {r : Resolver}
    (hr : Answered files r) :
    ∃ g, build files r = .ok g := by
  refine exists_bind (exists_mapM fun e he => ?_) fun found => ⟨_, rfl⟩
  obtain ⟨found, hfound⟩ := hr.exists_resolvedImports he
  exact ⟨_, bind_eq_ok.2 ⟨found, hfound, rfl⟩⟩

/-- The cycles of the built graph are the cyclic classes of the files, each
listed once and in order, with the names of the imports inside it. -/
theorem cycles_bijOn_cyclicClasses (files : SourceSet) (r : Resolver)
    (hr : Answered files r) :
    ∃ g, build files r = .ok g ∧ ListsCycles files r g.cycles := by
  obtain ⟨g, h⟩ := hr.exists_build
  have horder := pairwise_cycles g
  have hcovers := covers_cycles h
  have honce : g.cycles.Nodup := horder.imp fun {c d} hlt heq => by
    subst heq
    exact List.lt_irrefl _ hlt
  refine ⟨g, h, bijOn_cycles h, honce, ?_, ?_, hcovers, ?_, horder, ?_, ?_⟩
  · intro c hc
    obtain ⟨x, -, -, rfl⟩ := mem_cycles.1 hc
    exact pairwise_cycleOf g x
  · refine honce.imp_of_mem fun {c d} hc hd hne a hac had => hne ?_
    exact eq_of_shared_file h hc hd hac had
  · intro hacyclic
    refine List.eq_nil_iff_forall_not_mem.2 fun c hc => ?_
    obtain ⟨x, -, hhead, rfl⟩ := mem_cycles.1 hc
    exact hacyclic x ((hcovers x).2 ⟨_, hc, head_mem_cycleOf hhead⟩)
  · intro c hc
    obtain ⟨x, -, -, rfl⟩ := mem_cycles.1 hc
    exact pairwise_sortedUnique _
  · intro c hc n
    obtain ⟨x, -, -, rfl⟩ := mem_cycles.1 hc
    exact mem_namesAmong h

/-- A listed class holds all files that its files reach and are reached from. -/
theorem mem_files_of_mutuallyReach {files : SourceSet} {r : Resolver}
    {cycles : List ImportCycle} (h : ListsCycles files r cycles)
    {c : ImportCycle} (hc : c ∈ cycles) {a b : String}
    (ha : a ∈ c.files) (hab : MutuallyReach files r a b) : b ∈ c.files := by
  obtain ⟨⟨x, -, hclass⟩, -⟩ := h.classes.mapsTo hc
  have hxa : a ∈ {b | MutuallyReach files r x b} := hclass ▸ ha
  have hxb : b ∈ {b | MutuallyReach files r x b} :=
    (mutuallyReach_equivalence files r).trans hxa hab
  rw [← hclass] at hxb
  exact hxb

/-- Two files that import each other. -/
def ring : SourceSet :=
  [("/a.ts", Sketch.file "/a.ts" [.importFrom ["b"] "/b.ts"]),
    ("/b.ts", Sketch.file "/b.ts" [.importFrom ["a"] "/a.ts"])]

def ringResolver : Resolver where
  files :=
    { items := [(["a.ts"], .file { bytes := .empty }),
    (["b.ts"], .file { bytes := .empty })] }

theorem ring_imports : ring.map (fun e => (e.1, e.2.imports)) =
    [("/a.ts", [{ source := "/b.ts", line := 1, specifiers := [("b", "b")] }]),
      ("/b.ts",
        [{ source := "/a.ts", line := 1, specifiers := [("a", "a")] }])] := by
  decide +kernel

theorem itemAt?_ring (spot : Place) (target : Path) :
    ringResolver.files.itemAt? spot ≠ some (.link target) := by
  intro h
  unfold FileSystem.itemAt? at h
  split at h
  · cases h
  · obtain ⟨e, he, hlink⟩ := Option.map_eq_some_iff.1 h
    rcases List.mem_cons.1 (List.mem_of_find?_eq_some he) with rfl | he
    · cases hlink
    · obtain rfl := List.mem_singleton.1 he
      cases hlink

theorem realPath_ring {name : String} (hname : name ≠ "..")
    (hfault : Path.nameFault? name = none) :
    ringResolver.files.realPath ⟨.root, [name]⟩ = .ok ⟨.root, [name]⟩ := by
  refine FileSystem.realPath_of_plain ⟨by simpa using hname.symm,
    fun spot _ => ?_⟩ ?_
  · exact FileSystem.linkAt?_of_item (itemAt?_ring spot)
  · simpa using hfault

theorem isFile_ring : ringResolver.files.isFile ⟨.root, ["a.ts"]⟩ = .ok true ∧
    ringResolver.files.isFile ⟨.root, ["b.ts"]⟩ = .ok true := by
  constructor
  · exact FileSystem.isFile_of_look
      (FileSystem.look_of_item (f := { bytes := .empty }) (by decide)
      (by decide) (by decide) rfl rfl)
  · exact FileSystem.isFile_of_look
      (FileSystem.look_of_item (f := { bytes := .empty }) (by decide)
      (by decide) (by decide) rfl rfl)

theorem ofString_ring : Path.ofString "/a.ts" = ⟨.root, ["a.ts"]⟩ ∧
    Path.ofString "/b.ts" = ⟨.root, ["b.ts"]⟩ := by
  decide

theorem text_ring : (⟨.root, ["a.ts"]⟩ : Path).text = "/a.ts" ∧
    (⟨.root, ["b.ts"]⟩ : Path).text = "/b.ts" := by
  decide

/-- An absolute specifier that names a file of the ring leads there. -/
theorem resolve_ring {a b : String} (hb : b = "/a.ts" ∨ b = "/b.ts") :
    ringResolver.resolve (.ofString a) b = .ok (some (.ofString b)) := by
  rcases hb with rfl | rfl
  · rw [Resolver.resolve_absolute (by decide +kernel) (by decide +kernel),
      ofString_ring.1]
    exact Resolver.probe_eq_self (by decide +kernel) (by decide +kernel)
      isFile_ring.1 (realPath_ring (by decide) (by decide))
  · rw [Resolver.resolve_absolute (by decide +kernel) (by decide +kernel),
      ofString_ring.2]
    exact Resolver.probe_eq_self (by decide +kernel) (by decide +kernel)
      isFile_ring.2 (realPath_ring (by decide) (by decide))

/-- The first file imports something named `b` from the second. -/
theorem leadsTo_ring_a :
    ∃ i, LeadsTo ring ringResolver "/a.ts" i "/b.ts" ∧ i.IsAbout "b" := by
  have hfile : ("/a.ts",
    [{ source := "/b.ts", line := 1, specifiers := [("b", "b")] }]) ∈
      ring.map fun e => (e.1, e.2.imports) := by
    rw [ring_imports]
    exact List.mem_cons_self
  obtain ⟨⟨a, f⟩, hf, heq⟩ := List.mem_map.1 hfile
  obtain ⟨rfl, himports⟩ := Prod.mk.inj heq
  refine ⟨_, ⟨⟨f, hf, himports ▸ List.mem_cons_self⟩,
    ⟨_, resolve_ring (.inr rfl), ?_⟩, by decide⟩, ?_⟩
  · rw [ofString_ring.2]
    exact text_ring.2
  · exact .inl ⟨_, List.mem_cons_self, .inl rfl⟩

/-- The second file imports something named `a` from the first. -/
theorem leadsTo_ring_b :
    ∃ i, LeadsTo ring ringResolver "/b.ts" i "/a.ts" ∧ i.IsAbout "a" := by
  have hfile : ("/b.ts",
    [{ source := "/a.ts", line := 1, specifiers := [("a", "a")] }]) ∈
      ring.map fun e => (e.1, e.2.imports) := by
    rw [ring_imports]
    exact List.mem_cons_of_mem _ List.mem_cons_self
  obtain ⟨⟨a, f⟩, hf, heq⟩ := List.mem_map.1 hfile
  obtain ⟨rfl, himports⟩ := Prod.mk.inj heq
  refine ⟨_, ⟨⟨f, hf, himports ▸ List.mem_cons_self⟩,
    ⟨_, resolve_ring (.inl rfl), ?_⟩, by decide⟩, ?_⟩
  · rw [ofString_ring.1]
    exact text_ring.1
  · exact .inl ⟨_, List.mem_cons_self, .inl rfl⟩

theorem cycles_ring : ∃ g, build ring ringResolver = .ok g ∧
    ListsCycles ring ringResolver g.cycles ∧ ∃ c ∈ g.cycles, "/a.ts" ∈ c.files ∧
      "/b.ts" ∈ c.files ∧ "a" ∈ c.sharedNames ∧ "b" ∈ c.sharedNames := by
  have hlisted : ∀ a f, (a, f) ∈ ring → (a, f.imports) ∈ ring.map fun e =>
    (e.1, e.2.imports) :=
    fun a f hf => List.mem_map.2 ⟨(a, f), hf, rfl⟩
  obtain ⟨g, hg, hlists⟩ :=
    cycles_bijOn_cyclicClasses ring ringResolver fun a f hf i hi => by
    have hmem := hlisted a f hf
    rw [ring_imports] at hmem
    rcases List.mem_cons.1 hmem with hmem | hmem
    · obtain ⟨rfl, himports⟩ := Prod.mk.inj hmem
      rw [himports, List.mem_singleton] at hi
      rw [hi]
      exact ⟨_, resolve_ring (.inr rfl)⟩
    · obtain ⟨rfl, himports⟩ := Prod.mk.inj (List.mem_singleton.1 hmem)
      rw [himports, List.mem_singleton] at hi
      rw [hi]
      exact ⟨_, resolve_ring (.inl rfl)⟩
  obtain ⟨i, hab, hib⟩ := leadsTo_ring_a
  obtain ⟨j, hba, hja⟩ := leadsTo_ring_b
  have hcycle : TransGen (Imports ring ringResolver) "/a.ts" "/a.ts" :=
    (TransGen.single ⟨i, hab⟩).tail ⟨j, hba⟩
  obtain ⟨c, hc, ha⟩ := (hlists.covers _).1 hcycle
  -- both files are in the class of the first, so both imports are inside it
  have hb : "/b.ts" ∈ c.files := mem_files_of_mutuallyReach hlists hc ha
    ⟨.single ⟨i, hab⟩, .single ⟨j, hba⟩⟩
  exact ⟨g, hg, hlists, c, hc, ha, hb,
    (hlists.mem_names c hc _).2 ⟨_, hb, _, ha, j, hba, hja⟩,
    (hlists.mem_names c hc _).2 ⟨_, ha, _, hb, i, hab, hib⟩⟩

end ImportGraph

end RenderLoop
