import RenderLoop.Project.ImportGraph
import RenderLoop.Expr.Function

/-!
# Functions across files

A function may be exported, exported again by other files under other names,
and imported somewhere else. `ExportTable.definition?` follows a name from the
file that offers it to the function that stands behind it.

Of the ways on from a file, the star exports are taken before the named
re-export, the last of them first, and each way is followed to its end before
the next.
-/

namespace RenderLoop

/-- A name in a file. -/
structure Symbol where
  file : String
  name : String
  deriving DecidableEq, Repr, Inhabited

/-- A function that has a name in its file. -/
structure LocalFunction where
  name : String
  node : Node
  /-- The names of the parameters that are plain names. -/
  params : List (Option String)
  deriving Inhabited

namespace LocalFunction

/-- The parameters of a function by name. -/
def paramNames (fn : Node) : List (Option String) :=
  fn.functionParams.map fun p =>
    if p.kind == .identifier then some p.text else none

/-- The function a node defines under a name. -/
def ofNode? (n : Node) : Option LocalFunction :=
  if n.kind.isFunctionDeclaration then
    let name := n.childText .name
    if name == "" then none else some ⟨name, n, paramNames n⟩
  else if n.kind == .declarator then
    match n.declaredName?, n.bareChild? .value with
    | some name, some fn =>
      if fn.kind.isFunctionLiteral && name != "" then
        some ⟨name, fn, paramNames fn⟩ else none
    | _, _ => none
  else none

/-- The named functions of a file; of several with one name the first. -/
def all (root : Node) : Table LocalFunction :=
  (root.walk.filterMap ofNode?).foldl (fun t f =>
    if t.contains f.name then t else t ++ [(f.name, f)]) []

end LocalFunction

/-! ### Exports of one file -/

namespace Export

/-- The names that an exported declaration offers, with those it has inside. -/
def ofDeclaration (isDefault : Bool) (n : Node) : List (String × String) :=
  if n.kind.isFunctionDeclaration then
    let name := n.childText .name
    [(if isDefault then "default" else name, name)]
  else if n.kind == .lexicalDeclaration || n.kind == .variableDeclaration then
    n.namedChildren.filterMap fun d =>
      if d.kind == .declarator then d.declaredName?.map fun name =>
        (name, name) else none
  else []

/-- The names that a clause of an export offers. -/
def ofClause (clause : Node) : List (String × String) :=
  (clause.namedChildren.filter (·.kind == .exportSpecifier)).map fun spec =>
    let name := spec.childText .name
    (((spec.child? .aliasName).map (·.text)).getD name, name)

/-- The names that an export statement offers for the functions of its own
file. -/
def ofStatement (n : Node) : List (String × String) :=
  if n.kind != .exportStatement || (n.child? .source).isSome then []
  else
    let isDefault := n.children.any (·.kind == .default)
    (match n.child? .declaration with
      | some d => ofDeclaration isDefault d
      | none =>
        match n.bareChild? .value with
        | some v => if v.kind == .identifier then [("default", v.text)] else []
        | none => []) ++
    (n.namedChildren.filter (·.kind == .exportClause)).flatMap ofClause

/-- The names a file offers, with those they have inside. -/
def all (root : Node) : Table String :=
  Table.ofEntries (root.namedChildren.flatMap ofStatement)

end Export

/-- What a file offers and what it takes from others. -/
structure FileExports where
  /-- The names of its functions. -/
  functions : List String := []
  exports : Table String := []
  /-- Names passed on from other files. -/
  reexports : Table Symbol := []
  /-- Files passed on as a whole. -/
  stars : List String := []
  bindings : Table Symbol := []
  namespaces : Table String := []
  deriving Inhabited

namespace FileExports

/-- Adds an import that leads to `target`. -/
def addImport (x : FileExports) (i : Import) (target : String) : FileExports :=
  let symbols (pick : String × String → String × String) :
      List (String × Symbol) :=
    i.specifiers.map fun s => ((pick s).1, ⟨target, (pick s).2⟩)
  let swapped := symbols fun (imported, bound) => (bound, imported)
  if i.reexport then
    { x with
      stars := if i.specifiers.isEmpty then x.stars ++ [target] else x.stars
      reexports := swapped.foldl (fun t e => t.insert e.1 e.2) x.reexports }
  else
    let defaults := i.defaultName.toList.map fun name =>
      (name, (⟨target, "default"⟩ : Symbol))
    { x with
      bindings := (swapped ++ defaults).foldl
        (fun t e => t.insert e.1 e.2) x.bindings
      namespaces := i.namespaceName.toList.foldl
        (fun t name => t.insert name target) x.namespaces }

/-- What a file of a set offers and takes. -/
def ofFile (files : SourceSet) (r : Resolver) (file : String) (f : SourceFile) :
    Except ProjectError FileExports := do
  let imports ← ImportGraph.resolvedImports files r file f
  return imports.foldl (fun x (i, target) => x.addImport i target)
    { functions := (LocalFunction.all f.root).names, exports :=
      Export.all f.root }

end FileExports

/-- What every file of a set offers and takes. -/
abbrev ExportTable := Table FileExports

namespace ExportTable

def ofFiles (files : SourceSet) (r : Resolver) :
    Except ProjectError ExportTable :=
  files.mapM fun (file, f) =>
    do return (file, ← FileExports.ofFile files r file f)

def fileExports (t : ExportTable) (file : String) : FileExports :=
  (Table.get? t file).getD {}

/-- The function of its own that a file offers under a name. -/
def own? (t : ExportTable) (s : Symbol) : Option Symbol :=
  let x := fileExports t s.file
  match x.exports.get? s.name with
  | some name => if x.functions.contains name then some ⟨s.file, name⟩ else none
  | none => none

/-- Where else a name may come from, in the order in which it is looked for. -/
def sources (t : ExportTable) (s : Symbol) : List Symbol :=
  let x := fileExports t s.file
  (x.stars.reverse.map fun file => ⟨file, s.name⟩) ++
    (x.reexports.get? s.name).toList

/-- The files that names are passed on from. -/
def passedFiles (t : ExportTable) : List String :=
  t.flatMap fun (_, x) => x.stars ++ x.reexports.map (·.2.file)

/-- The names under which they are passed on. -/
def passedNames (t : ExportTable) : List String :=
  t.flatMap fun (_, x) => x.reexports.map (·.2.name)

theorem mem_of_fileExports {t : ExportTable} {file : String} {x : FileExports}
    (h : Table.get? t file = some x) : ∃ k, (k, x) ∈ t := by
  unfold Table.get? at h
  obtain ⟨e, he, rfl⟩ := Option.map_eq_some_iff.1 h
  exact ⟨e.1, List.mem_of_find?_eq_some he⟩

/-- A file that is not in the table exports nothing. -/
theorem fileExports_eq (t : ExportTable) (file : String) :
    fileExports t file = {} ∨ ∃ k, (k, fileExports t file) ∈ t := by
  unfold fileExports
  cases h : Table.get? t file with
  | none => exact .inl rfl
  | some x => exact .inr (mem_of_fileExports h)

theorem mem_reexports {x : FileExports} {name : String} {s : Symbol}
    (h : x.reexports.get? name = some s) : s ∈ x.reexports.map (·.2) := by
  unfold Table.get? at h
  obtain ⟨e, he, rfl⟩ := Option.map_eq_some_iff.1 h
  exact List.mem_map.2 ⟨e, List.mem_of_find?_eq_some he, rfl⟩

/-- A symbol that is passed on has one of the files that are passed on, and
its own name or one of the names that are. -/
theorem sources_mem (t : ExportTable) {s u : Symbol} (h : u ∈ sources t s) :
    u.file ∈ passedFiles t ∧ (u.name = s.name ∨ u.name ∈ passedNames t) := by
  rcases fileExports_eq t s.file with hx | ⟨k, hk⟩
  · simp [sources, hx, Table.get?] at h
  · rcases List.mem_append.1 h with h | h
    · obtain ⟨file, hf, rfl⟩ := List.mem_map.1 h
      refine ⟨List.mem_flatMap.2 ⟨_, hk, ?_⟩, .inl rfl⟩
      exact List.mem_append_left _ (List.mem_reverse.1 hf)
    · have hm := mem_reexports (Option.mem_toList.1 h)
      obtain ⟨e, he, rfl⟩ := List.mem_map.1 hm
      refine ⟨List.mem_flatMap.2 ⟨_, hk, ?_⟩,
        .inr (List.mem_flatMap.2 ⟨_, hk, ?_⟩)⟩
      · exact List.mem_append_right _ (List.mem_map.2 ⟨e, he, rfl⟩)
      · exact List.mem_map.2 ⟨e, he, rfl⟩

/-- All that may have to be looked at for a symbol. -/
def domain (t : ExportTable) (s : Symbol) : List Symbol :=
  (s.file :: passedFiles t).flatMap fun file =>
    (s.name :: passedNames t).map fun name => ⟨file, name⟩

/-- The symbols that a search can meet. -/
theorem mem_domain {t : ExportTable} {s u : Symbol} :
    u ∈ domain t s ↔ u.file ∈ s.file :: passedFiles t ∧
      u.name ∈ s.name :: passedNames t := by
  constructor
  · intro h
    obtain ⟨file, hf, h⟩ := List.mem_flatMap.1 h
    obtain ⟨name, hn, rfl⟩ := List.mem_map.1 h
    exact ⟨hf, hn⟩
  · rintro ⟨hf, hn⟩
    exact List.mem_flatMap.2 ⟨u.file, hf, List.mem_map.2 ⟨u.name, hn, rfl⟩⟩

theorem mem_domain_self (t : ExportTable) (s : Symbol) : s ∈ domain t s :=
  mem_domain.2 ⟨List.mem_cons_self, List.mem_cons_self⟩

/-- No step of a search leads out of them. -/
theorem mem_domain_of_mem_sources {t : ExportTable} {s a b : Symbol}
    (ha : a ∈ domain t s) (hb : b ∈ sources t a) : b ∈ domain t s := by
  obtain ⟨hf, hn⟩ := sources_mem t hb
  refine mem_domain.2 ⟨List.mem_cons_of_mem _ hf, ?_⟩
  rcases hn with hn | hn
  · exact hn ▸ (mem_domain.1 ha).2
  · exact List.mem_cons_of_mem _ hn

/-- The search for the function behind a symbol. -/
def space (t : ExportTable) (s : Symbol) : Space Symbol where
  start := [s]
  next := sources t
  bounded :=
    ⟨domain t s, fun _ ha => List.mem_singleton.1 ha ▸ mem_domain_self t s,
    fun _ ha _ hb => mem_domain_of_mem_sources ha hb⟩

/-- The function behind a symbol: the file that defines it and its name
there. -/
def definition? (t : ExportTable) (s : Symbol) : Option Symbol :=
  ((space t s).visit).findSome? (own? t)

/-- The function behind a called name, which may be a member of an
imported namespace. -/
def callee? (t : ExportTable) (file called : String) : Option Symbol :=
  let x := fileExports t file
  let cs := called.toList
  match cs.dropWhile (· != '.') with
  | _ :: member =>
    (x.namespaces.get? (String.ofList (cs.takeWhile (· != '.')))).bind
      fun target =>
      definition? t ⟨target, String.ofList member⟩
  | [] =>
    if x.functions.contains called then some ⟨file, called⟩
    else (x.bindings.get? called).bind (definition? t)

end ExportTable

end RenderLoop
