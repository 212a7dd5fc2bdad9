import RenderLoop.Project.Analysis
import RenderLoop.Proofs.Cycles
import RenderLoop.Proofs.Relaxation

/-!
# The depths recorded for a project

The facts about a set of files record for each parameter the length of its
shortest chain of functions. The relaxation gives that for the hand-offs it is
handed; what remains is what these hand-offs are:

> `mem_called` and `mem_all`: the parameters that functions call, and those
> that they pass on to other functions, said of the calls in their bodies.

> `fileExports_perm`: what is known about a file does not depend on the order
> of the files, so that the function behind a called name does not
> (`callee?_congr`).

What is recorded is then exact (`RecordsDepths`). Exact depths speak of the
hand-offs as a set, which is why neither the order of the files nor that of
the functions matters.

The proof follows the way the facts are built. First the uses of a parameter
are read off the body of its function, as two statements about calls
(`CallsParameter`, `PassesParameter`). Then the called name is looked up among
the exports, which leads to the next function of a chain. Both are said of the
files and not of the order in which they are read, and the relaxation turns
them into depths.

A parameter that has the name of a function hides it: the call then goes to
the parameter, and no chain leads through it (`depthOf?_shadowing`).
-/

namespace RenderLoop

namespace HandOff

/-! ### What functions do with their parameters -/

/-- A function calls one of its parameters: a call in its body has the name of
the parameter. -/
def CallsParameter (fn : LocalFunction) (p : Nat) : Prop :=
  ∃ body, fn.node.functionBody? = some body ∧
    ∃ call ∈ body.walk, call.kind = .call ∧ ∃ f, call.callee? = some f ∧
    f.kind = .identifier ∧ positionOf? fn.params f.text = some p

/-- A function passes one of its parameters on: the parameter is an argument
of a call in its body, and what is called is not itself a parameter. -/
def PassesParameter (fn : LocalFunction) (p : Nat) (callee : String)
    (argument : Nat) : Prop :=
  ∃ body, fn.node.functionBody? = some body ∧
    ∃ call ∈ body.walk, call.kind = .call ∧ call.calleeKey? = some callee ∧
    (∀ f, call.callee? = some f → f.kind = .identifier →
      positionOf? fn.params f.text = none) ∧
    ∃ arg, call.arguments[argument]? = some arg ∧ arg.bare.kind = .identifier ∧
      positionOf? fn.params arg.bare.text = some p

/-- The arguments of a call that are parameters of the function around it, by
their positions on both sides. -/
theorem mem_passedIn {params : List (Option String)} {callee : String}
    {call : Node} {u : Use} :
    u ∈ passedIn params callee call ↔
      ∃ argument p arg, u = .passed callee argument p ∧
      call.arguments[argument]? = some arg ∧ arg.bare.kind = .identifier ∧
      positionOf? params arg.bare.text = some p := by
  unfold passedIn
  rw [List.mem_filterMap]
  constructor
  · rintro ⟨⟨arg, argument⟩, hmem, hu⟩
    simp only at hu
    split at hu
    · next hkind =>
      obtain ⟨p, hp, rfl⟩ := Option.map_eq_some_iff.1 hu
      exact ⟨argument, p, arg, rfl,
        List.mem_zipIdx_iff_getElem?.1 hmem, by simpa using hkind, hp⟩
    · cases hu
  · rintro ⟨argument, p, arg, rfl, harg, hkind, hp⟩
    refine ⟨(arg, argument), List.mem_zipIdx_iff_getElem?.2 harg, ?_⟩
    simp [hkind, hp]

/-- What one call does with parameters: it calls one, or else passes on those
among its arguments. -/
theorem mem_ofCall {params : List (Option String)} {n : Node} {u : Use} :
    u ∈ ofCall params n ↔ n.kind = .call ∧
      ((∃ f p, n.callee? = some f ∧ f.kind = .identifier ∧
        positionOf? params f.text = some p ∧ u = .called p) ∨
        ∃ callee, n.calleeKey? = some callee ∧
        (∀ f, n.callee? = some f → f.kind = .identifier →
          positionOf? params f.text = none) ∧
        u ∈ passedIn params callee n) := by
  by_cases hcall : n.kind = .call
  · unfold ofCall Node.calleeKey?
    rw [hcall]
    cases hf : n.callee? with
    | none => simp
    | some f =>
      by_cases hident : f.kind = .identifier
      · cases hp : positionOf? params f.text <;> simp [hident, hp]
      · by_cases hmember : f.kind = .member
        · cases ho : f.bareChild? .object with
          | none => simp [hmember, ho]
          | some o =>
            by_cases hok : o.kind = .identifier <;> simp [hmember, ho, hok]
        · simp [hident]
  · unfold ofCall
    split
    · exact absurd ‹_› hcall
    · simp [hcall]

theorem any_named_of_positionOf? {params : List (Option String)}
    {name : String} {p : Nat} (h : positionOf? params name = some p) :
    params.any (·.any (· != "")) = true := by
  unfold positionOf? at h
  split at h
  · cases h
  · next hname =>
    obtain ⟨⟨param, i⟩, hlast, -⟩ := Option.map_eq_some_iff.1 h
    obtain ⟨hmem, hparam⟩ := List.mem_filter.1 (List.mem_of_getLast? hlast)
    have hparam : param = some name := by simpa using hparam
    refine List.any_eq_true.2
      ⟨param, List.mem_of_getElem? (List.mem_zipIdx_iff_getElem?.1 hmem), ?_⟩
    rw [hparam]
    simpa using hname

/-- A function uses its parameters in the calls of its body. -/
theorem mem_usesOf {fn : LocalFunction} {u : Use} : u ∈ usesOf fn ↔
    ∃ body, fn.node.functionBody? = some body ∧
      ∃ call ∈ body.walk, u ∈ ofCall fn.params call := by
  unfold usesOf
  cases hbody : fn.node.functionBody? with
  | none => simp
  | some body =>
    simp only [Option.some.injEq, exists_eq_left']
    split
    · exact List.mem_flatMap
    · next hnone =>
      -- without a named parameter there is nothing to call or to pass on
      refine iff_of_false List.not_mem_nil ?_
      rintro ⟨call, -, hu⟩
      obtain ⟨-, ⟨f, p, -, -, hp, -⟩ | ⟨callee, -, -, hpassed⟩⟩ :=
        mem_ofCall.1 hu
      · exact hnone (any_named_of_positionOf? hp)
      · obtain ⟨argument, p, arg, -, -, -, hp⟩ := mem_passedIn.1 hpassed
        exact hnone (any_named_of_positionOf? hp)

/-- Among the uses, being called is `CallsParameter`. -/
theorem called_mem_usesOf {fn : LocalFunction} {p : Nat} :
    .called p ∈ usesOf fn ↔ CallsParameter fn p := by
  rw [mem_usesOf]
  unfold CallsParameter
  simp only [mem_ofCall, mem_passedIn]
  constructor
  · rintro ⟨body, hbody, call, hmem, hcall, ⟨f, q, hf, hkind, hq, hu⟩ |
      ⟨_, _, _, _, _, _, hu, _⟩⟩
    · cases hu
      exact ⟨body, hbody, call, hmem, hcall, f, hf, hkind, hq⟩
    · cases hu
  · rintro ⟨body, hbody, call, hmem, hcall, f, hf, hkind, hp⟩
    exact ⟨body, hbody, call, hmem, hcall, .inl ⟨f, p, hf, hkind, hp, rfl⟩⟩

/-- And being passed on is `PassesParameter`. -/
theorem passed_mem_usesOf {fn : LocalFunction} {callee : String}
    {argument p : Nat} :
    .passed callee argument p ∈ usesOf fn ↔
      PassesParameter fn p callee argument := by
  rw [mem_usesOf]
  unfold PassesParameter
  simp only [mem_ofCall, mem_passedIn]
  constructor
  · rintro ⟨body, hbody, call, hmem, hcall, ⟨_, _, _, _, _, hu⟩ |
      ⟨c, hkey, hother, a, q, arg, hu, harg⟩⟩
    · cases hu
    · cases hu
      exact ⟨body, hbody, call, hmem, hcall, hkey, hother, arg, harg⟩
  · rintro ⟨body, hbody, call, hmem, hcall, hkey, hother, arg, harg⟩
    exact ⟨body, hbody, call, hmem, hcall,
      .inr ⟨callee, hkey, hother, argument, p, arg, rfl, harg⟩⟩

/-! ### The hand-offs of a project -/

section

variable (ctx : Context) (files : SourceSet) (t : ExportTable)

/-- A function of the files calls the parameter itself, and the name marks it
as a setter. -/
def Calls (p : Parameter) : Prop :=
  ∃ fn, (p.owner, fn) ∈ functions files ∧
    isAboutSetter ctx fn p.position = true ∧ CallsParameter fn p.position

/-- A function of the files passes the parameter, whose name marks it as a
setter, to a parameter of another function. -/
def Hands (p q : Parameter) : Prop :=
  ∃ fn callee, (p.owner, fn) ∈ functions files ∧
    isAboutSetter ctx fn p.position = true ∧
    PassesParameter fn p.position callee q.position ∧
    ExportTable.callee? t p.owner.file callee = some q.owner ∧ q.owner ≠ p.owner

variable {ctx files t}

/-- The relaxation starts with the parameters that are called. -/
theorem mem_called {p : Parameter} :
    p ∈ called ctx files ↔ Calls ctx files p := by
  unfold called Calls
  simp only [List.mem_flatMap, List.mem_filterMap, Prod.exists]
  constructor
  · rintro ⟨owner, fn, hfn, u, hu, hp⟩
    split at hp
    · next position =>
      split at hp
      · next habout =>
        cases hp
        exact ⟨fn, hfn, habout, called_mem_usesOf.1 hu⟩
      · cases hp
    · cases hp
  · rintro ⟨fn, hfn, habout, hcalls⟩
    refine ⟨p.owner, fn, hfn, _, called_mem_usesOf.2 hcalls, ?_⟩
    simp only [habout, if_true]

/-- And its hand-offs are those from one function to another. -/
theorem mem_all {p q : Parameter} :
    (⟨p, q⟩ : HandOff) ∈ all ctx files t ↔ Hands ctx files t p q := by
  unfold all Hands
  simp only [List.mem_flatMap, List.mem_filterMap, Prod.exists]
  constructor
  · rintro ⟨owner, fn, hfn, u, hu, hh⟩
    split at hh
    · cases hh
    · next callee argument position =>
      split at hh
      · next habout =>
        split at hh
        · next target htarget =>
          split at hh
          · cases hh
          · next hne =>
            cases hh
            exact ⟨fn, callee, hfn, habout, passed_mem_usesOf.1 hu,
              htarget, hne⟩
        · cases hh
      · cases hh
  · rintro ⟨fn, callee, hfn, habout, hpasses, htarget, hne⟩
    refine ⟨p.owner, fn, hfn, _, passed_mem_usesOf.2 hpasses, ?_⟩
    simp only [habout, htarget, if_true, if_neg hne]

end

/-- The entries of a function, looked up by position. -/
theorem depth?_eq_find?_filter (d : Depths) (o : Symbol) (position : Nat) :
    (((d.filter (·.1.owner == o)).map fun e => (e.1.position, e.2)).find?
      (·.1 == position)).map (·.2) = depth? d ⟨o, position⟩ := by
  have hkey : ∀ e : Parameter × Nat,
      decide ((e.1.owner == o) = true ∧ (e.1.position == position) = true) =
        (e.1 == ⟨o, position⟩) := by
    rintro ⟨⟨owner, i⟩, n⟩
    rw [Bool.eq_iff_iff]
    simp only [decide_eq_true_iff, beq_iff_eq, Parameter.mk.injEq]
  unfold depth?
  rw [List.find?_map, List.find?_filter, Option.map_map]
  simp only [Function.comp_def, hkey]

/-- The takers list the depths by function. -/
theorem depthAt?_takers (d : Depths) (o : Symbol) (position : Nat) :
    ((takers d).find? fun t => t.file == o.file && t.name == o.name).bind
      (·.depthAt? position) = depth? d ⟨o, position⟩ := by
  have hsame : ∀ s : Symbol,
      (s.file == o.file && s.name == o.name) = (s == o) := by
    intro s
    obtain ⟨file, name⟩ := o
    obtain ⟨file', name'⟩ := s
    rw [Bool.eq_iff_iff]
    simp only [Bool.and_eq_true, beq_iff_eq, Symbol.mk.injEq]
  unfold takers
  rw [List.find?_map]
  simp only [Function.comp_def, hsame]
  cases howner : (d.map (·.1.owner)).eraseDups.find? (· == o) with
  | some s =>
    obtain rfl : s = o := by simpa using List.find?_some howner
    exact depth?_eq_find?_filter d s position
  | none =>
    -- a recorded parameter would have its function among the owners
    symm
    refine Option.map_eq_none_iff.2 (List.find?_eq_none.2 fun e he hkey => ?_)
    have hkey : e.1 = ⟨o, position⟩ := by simpa using hkey
    refine List.find?_eq_none.1 howner o
      (List.mem_eraseDups.2 (List.mem_map.2 ⟨e, he, ?_⟩)) (by simp)
    rw [hkey]

end HandOff

/-! ### The order of the files -/

/-- Two searches that begin alike and go on alike are the same. -/
theorem Space.eq_of_next {α : Type} {s u : Space α} (hstart : s.start = u.start)
    (hnext : s.next = u.next) : s = u := by
  cases s
  cases u
  cases hstart
  cases hnext
  rfl

namespace ExportTable

/-- What stands behind a called name depends on what is known about each file
only. -/
theorem callee?_congr {t u : ExportTable}
    (h : ∀ file, fileExports t file = fileExports u file) :
    callee? t = callee? u := by
  have hsources : sources t = sources u := by
    funext s
    unfold sources
    rw [h]
  have hown : own? t = own? u := by
    funext s
    unfold own?
    rw [h]
  have hdefinition : definition? t = definition? u := by
    funext s
    have hspace : space t s = space u s := Space.eq_of_next rfl hsources
    unfold definition?
    rw [hspace, hown]
  funext file called
  unfold callee?
  rw [h, hdefinition]

variable {files other : SourceSet} {r : Resolver} {t u : ExportTable}

/-- The table of exports has an entry for each file, and what it says is read
off that file. -/
theorem mem_ofFiles (h : ofFiles files r = .ok t) {file : String}
    {x : FileExports} :
    (file, x) ∈ t ↔ ∃ f, (file, f) ∈ files ∧
      FileExports.ofFile files r file f = .ok x := by
  unfold ofFiles at h
  rw [mem_of_mapM h]
  constructor
  · rintro ⟨⟨a, f⟩, hf, hx⟩
    obtain ⟨y, hy, hx⟩ := bind_eq_ok.1 hx
    cases hx
    exact ⟨f, hf, hy⟩
  · rintro ⟨f, hf, hx⟩
    exact ⟨(file, f), hf, bind_eq_ok.2 ⟨x, hx, rfl⟩⟩

theorem names_ofFiles (h : ofFiles files r = .ok t) :
    Table.names t = files.names := by
  refine map_of_mapM (fun e x hx => ?_) h
  obtain ⟨exports, -, hx⟩ := bind_eq_ok.1 hx
  cases hx
  rfl

/-- What a file exports is looked up by name, so the order of the files does
not matter to it. -/
theorem ofFile_perm (hperm : files.Perm other) :
    FileExports.ofFile files r = FileExports.ofFile other r := by
  have hcontains : ∀ target, files.contains target = other.contains target :=
    fun target =>
    hperm.any_eq
  funext file f
  unfold FileExports.ofFile ImportGraph.resolvedImports
  simp only [hcontains]

/-- The order of the files does not matter to what is known about each of
them. -/
theorem fileExports_perm (hperm : files.Perm other) (hnames : files.names.Nodup)
    (ht : ofFiles files r = .ok t) (hu : ofFiles other r = .ok u)
    (file : String) :
    fileExports t file = fileExports u file := by
  have hnt : (Table.names t).Nodup := by
    rw [names_ofFiles ht]
    exact hnames
  have hnu : (Table.names u).Nodup := by
    rw [names_ofFiles hu]
    exact (hperm.map _).nodup_iff.1 hnames
  have hget : Table.get? t file = Table.get? u file := by
    refine Option.ext fun x => ?_
    rw [Table.get?_eq_some_iff hnt, Table.get?_eq_some_iff hnu, mem_ofFiles ht,
      mem_ofFiles hu, ofFile_perm hperm]
    simp only [hperm.mem_iff]
  unfold fileExports
  rw [hget]

/-- The exports are known when every import gets an answer. -/
theorem exists_ofFiles (hr : ImportGraph.Answered files r) :
    ∃ t, ofFiles files r = .ok t := by
  refine exists_mapM fun e he => ?_
  obtain ⟨found, hfound⟩ := hr.exists_resolvedImports he
  exact ⟨_, bind_eq_ok.2 ⟨_, bind_eq_ok.2 ⟨found, hfound, rfl⟩, rfl⟩⟩

end ExportTable

/-! ### The recorded depths -/

/-- The depth recorded for a parameter. -/
def ProjectFacts.depthOf? (facts : ProjectFacts) (p : Parameter) : Option Nat :=
  (facts.takers.find? fun t => t.file == p.owner.file && t.name ==
    p.owner.name).bind (·.depthAt? p.position)

open HandOff

/-- The chains of functions in a set of files. -/
abbrev ProjectFacts.Chain (ctx : Context) (files : SourceSet)
    (facts : ProjectFacts) :
    Nat → Parameter → Prop :=
  HandOff.Chain (Calls ctx files) (Hands ctx files facts.exports)

/-- What the facts about a set of files say about depths. -/
structure RecordsDepths (ctx : Context) (r : Resolver) (files : SourceSet)
    (facts : ProjectFacts) :
    Prop where
  /-- The recorded depth is the length of the shortest chain. -/
  recorded : ∀ p n, facts.depthOf? p = some n ↔
    n ≤ maxDepth ∧ IsLeast {n | facts.Chain ctx files n p} n
  absent : ∀ p, (∀ n ≤ maxDepth, ¬ facts.Chain ctx files n p) →
    facts.depthOf? p = none
  /-- The relaxation has ended with a round that changed nothing, before its
  rounds ran out. -/
  settled : ∃ k < maxRounds, ∃ d, d = (round (all ctx files facts.exports))^[k]
    (start (called ctx files)) ∧ round (all ctx files facts.exports) d = d ∧
    facts.takers = takers d
  functionOrder : ∀ cs hs, cs.Perm (called ctx files) →
    hs.Perm (all ctx files facts.exports) →
    ∀ p, depth? (relaxAll hs maxRounds (start cs)) p = facts.depthOf? p
  fileOrder : files.names.Nodup → ∀ other facts', files.Perm other →
    ProjectFacts.build ctx r other = .ok facts' →
      ∀ p, facts'.depthOf? p = facts.depthOf? p

namespace ProjectFacts

variable {ctx : Context} {r : Resolver} {files : SourceSet}
  {facts : ProjectFacts}

/-- So are then the facts. -/
theorem exists_build (hr : ImportGraph.Answered files r) :
    ∃ facts, build ctx r files = .ok facts := by
  obtain ⟨g, hg⟩ := hr.exists_build
  obtain ⟨t, ht⟩ := ExportTable.exists_ofFiles hr
  exact ⟨_, bind_eq_ok.2 ⟨g, hg, bind_eq_ok.2 ⟨t, ht, rfl⟩⟩⟩

/-- What the facts consist of: the exports, and the takers that the relaxation
leaves behind. -/
theorem build_eq_ok (h : build ctx r files = .ok facts) :
    ExportTable.ofFiles files r = .ok facts.exports ∧
      facts.takers = HandOff.takers (depths ctx files facts.exports) := by
  obtain ⟨g, -, h⟩ := bind_eq_ok.1 h
  obtain ⟨t, ht, h⟩ := bind_eq_ok.1 h
  cases h
  exact ⟨ht, rfl⟩

theorem graph_build (h : build ctx r files = .ok facts) :
    ImportGraph.build files r = .ok facts.graph := by
  obtain ⟨g, hg, h⟩ := bind_eq_ok.1 h
  obtain ⟨t, -, h⟩ := bind_eq_ok.1 h
  cases h
  exact hg

/-- The depth that is recorded for a parameter is the one that the relaxation
found. -/
theorem depthOf?_eq (h : build ctx r files = .ok facts) (p : Parameter) :
    facts.depthOf? p = depth? (depths ctx files facts.exports) p := by
  unfold depthOf?
  rw [(build_eq_ok h).2]
  exact depthAt?_takers _ p.owner p.position

/-- The chains of a set of files are those along its listed hand-offs. -/
theorem chain_eq (facts : ProjectFacts) : facts.Chain ctx files =
    ListedChain (called ctx files) (all ctx files facts.exports) := by
  have hcalls : Calls ctx files = (· ∈ called ctx files) :=
    funext fun p => propext mem_called.symm
  have hhands : Hands ctx files facts.exports =
      fun p q => (⟨p, q⟩ : HandOff) ∈ all ctx files facts.exports :=
    funext fun p => funext fun q => propext mem_all.symm
  unfold Chain ListedChain
  rw [hcalls, hhands]

/-- The chains are the same for every order of the files. -/
theorem chain_perm {other : SourceSet} {facts' : ProjectFacts}
    (hperm : files.Perm other)
    (hcallee : ExportTable.callee? facts'.exports =
      ExportTable.callee? facts.exports) :
    facts'.Chain ctx other = facts.Chain ctx files := by
  have hfunctions : ∀ e, e ∈ functions other ↔ e ∈ functions files := fun e =>
    (hperm.symm.flatMap_right _).mem_iff
  unfold Chain Calls Hands
  simp only [hfunctions, hcallee]

/-- The depths recorded for a set of files are the lengths of the shortest
chains, up to the greatest depth; they are settled when the relaxation ends,
and no order has a say in them. -/
theorem build_recordsDepths (ctx : Context) (r : Resolver) (files : SourceSet) :
    (ImportGraph.Answered files r → ∃ facts, build ctx r files = .ok facts) ∧
      ∀ facts, build ctx r files = .ok facts →
        RecordsDepths ctx r files facts := by
  refine ⟨exists_build, fun facts h => ?_⟩
  have hexact : Exact (called ctx files) (all ctx files facts.exports)
      (depths ctx files facts.exports) := exact_relaxAll _ _
  have hrecorded : ∀ p n, facts.depthOf? p = some n ↔
      n ≤ maxDepth ∧ IsLeast {n | facts.Chain ctx files n p} n := by
    intro p n
    rw [depthOf?_eq h, chain_eq]
    exact hexact p n
  refine ⟨hrecorded, fun p hnone => ?_, ?_, fun cs hs hcs hhs p => ?_, ?_⟩
  · cases hdepth : facts.depthOf? p with
    | none => rfl
    | some n =>
      obtain ⟨hle, hchain, -⟩ := (hrecorded p n).1 hdepth
      exact absurd hchain (hnone n hle)
  · obtain ⟨k, hk, hfix, hdepths, -⟩ :=
      relaxAll_settles (called ctx files) (all ctx files facts.exports)
    refine ⟨k, hk, _, rfl, hfix, ?_⟩
    rw [(build_eq_ok h).2]
    exact congrArg HandOff.takers hdepths
  · rw [depthOf?_eq h]
    refine (exact_relaxAll cs hs).depth?_eq hexact ?_ p
    unfold ListedChain
    simp only [hcs.mem_iff, hhs.mem_iff]
  · intro hnames other facts' hperm h' p
    have hcallee := ExportTable.callee?_congr fun file =>
      (ExportTable.fileExports_perm hperm hnames (build_eq_ok h).1
        (build_eq_ok h').1 file).symm
    rw [depthOf?_eq h, depthOf?_eq h']
    refine (exact_relaxAll _ _).depth?_eq hexact ?_ p
    rw [← chain_eq, ← chain_eq]
    exact chain_perm hperm hcallee

/-- Two functions that hand a setter to each other, one of which also calls
it. -/
def delegating : SourceSet :=
  [("/a.ts", Sketch.file "/a.ts"
    [.function "ping" ["setX"] [.run (.call "pong" [.name "setX"])],
      .function "pong" ["setX"] [.run (.call "ping" [.name "setX"]),
        .run (.call "setX" [])]])]

example : (build .usual default delegating).toOption.map (fun facts =>
    (facts.depthOf? ⟨⟨"/a.ts", "ping"⟩, 0⟩,
      facts.depthOf? ⟨⟨"/a.ts", "pong"⟩, 0⟩)) = some (some 2, some 1) := by
  decide +kernel

/-- A function whose parameter has the name of a function, which it calls. -/
def shadowing : SourceSet :=
  [("/a.ts", Sketch.file "/a.ts"
    [.function "store" ["setX"] [.run (.call "setX" [.number "1"])],
      .function "save" ["setX", "store"]
        [.run (.call "store" [.name "setX"])]])]

/-- As `Hands`, but whatever is called counts under its name. -/
def HandsByName (ctx : Context) (files : SourceSet) (t : ExportTable)
    (p q : Parameter) : Prop :=
  ∃ fn callee, (p.owner, fn) ∈ functions files ∧
    isAboutSetter ctx fn p.position = true ∧
    (∃ body, fn.node.functionBody? = some body ∧
      ∃ call ∈ body.walk, call.kind = .call ∧ call.calleeKey? = some callee ∧
      ∃ arg, call.arguments[q.position]? = some arg ∧
        arg.bare.kind = .identifier ∧ positionOf? fn.params arg.bare.text =
          some p.position) ∧
    ExportTable.callee? t p.owner.file callee = some q.owner ∧ q.owner ≠ p.owner

/-- A call of a parameter is no hand-off, even if a function of that name
would take the setter. -/
theorem depthOf?_shadowing :
    ∃ facts, build .usual default shadowing = .ok facts ∧
    IsLeast {n | HandOff.Chain (Calls .usual shadowing)
      (HandsByName .usual shadowing facts.exports) n ⟨⟨"/a.ts", "save"⟩, 0⟩} 2 ∧
    facts.depthOf? ⟨⟨"/a.ts", "save"⟩, 0⟩ = none := by
  have hrun : (build .usual default shadowing).toOption.map (fun facts =>
      (facts.depthOf? ⟨⟨"/a.ts", "save"⟩, 0⟩, facts.callee? "/a.ts" "store")) =
        some (none, some ⟨"/a.ts", "store"⟩) := by
    decide +kernel
  cases hbuild : build .usual default shadowing with
  | error e =>
    rw [hbuild] at hrun
    cases hrun
  | ok facts =>
    rw [hbuild] at hrun
    obtain ⟨hdepth, hcallee⟩ := Prod.mk.inj (Option.some.inj hrun)
    have hcalls : Calls .usual shadowing ⟨⟨"/a.ts", "store"⟩, 0⟩ :=
      mem_called.1 (by decide +kernel)
    have hhands : HandsByName .usual shadowing facts.exports
        ⟨⟨"/a.ts", "save"⟩, 0⟩ ⟨⟨"/a.ts", "store"⟩, 0⟩ :=
      ⟨_, "store", List.mem_of_getElem? (i := 1) rfl, by decide +kernel,
        ⟨_, rfl, _, List.mem_of_getElem? (i := 2) rfl, rfl, rfl, _, rfl,
          rfl, by decide +kernel⟩,
        hcallee, by decide⟩
    refine ⟨facts, rfl, ⟨.hand hhands (.call hcalls), fun n hn => ?_⟩, hdepth⟩
    cases hn with
    | call hself => exact absurd (mem_called.2 hself) (by decide +kernel)
    | hand _ hrest =>
      have := hrest.pos
      omega

end ProjectFacts

end RenderLoop
