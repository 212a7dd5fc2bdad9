import RenderLoop.Options.Context
import RenderLoop.Source.File
import RenderLoop.Text.Regex.Parser
import RenderLoop.Proofs.Descent

/-!
# Code and its tree, written together

A `Sketch` is a line of code with the structure a parser finds in it. Laying
it out gives each phrase its bytes, its text and its place, so that the tree
of a small program can be written down without counting.

> `wellSpaced_program`: the tree of laid out code is well-spaced, if no phrase
> is empty.

A tree that is written by hand would have to repeat each text and to count
each byte. A sketch has the code only once, and both the text of a phrase and
its place follow from it. So the programs of the other modules, on which the
statements are tried, are laid out by one definition, about which something
general can be proved. Their constructors have the names of the phrases that
they stand for, and their parts come in the order of the source.
-/

namespace RenderLoop

/-- A piece of code: text between phrases, or a phrase with its pieces. -/
inductive Sketch where
  | between (code : String)
  | phrase (kind : Kind) (named : Bool) (field : Option Field)
      (pieces : List Sketch)

/-- The context of a run without settings. -/
def Context.usual : Context :=
  (ofOptions Regex.compiler {}).toOption.getD default

/-- The node that a path of child positions leads to. -/
def Node.at (n : Node) (path : List Nat) : Node :=
  path.foldl (fun m i => m.children.getD i m) n

/-- A path of child positions stays inside the node. -/
theorem Node.at_mem_walk (n : Node) (path : List Nat) : n.at path ∈ n.walk := by
  induction path generalizing n with
  | nil => exact n.mem_walk_self
  | cons i path ih =>
    show (n.children.getD i n).at path ∈ n.walk
    refine mem_walk_trans (ih _) ?_
    rw [List.getD_eq_getElem?_getD]
    cases hc : n.children[i]? with
    | none => exact n.mem_walk_self
    | some c => exact mem_walk_of_mem_children (List.mem_of_getElem? hc)

namespace Sketch

mutual

/-- The code of a piece. -/
def code : Sketch → String
  | between s => s
  | phrase _ _ _ ps => codeOf ps

/-- The code of pieces that follow one another. -/
def codeOf : List Sketch → String
  | [] => ""
  | p :: ps => p.code ++ codeOf ps

end

/-- The label of a phrase that starts at an offset of the first line. -/
def label (kind : Kind) (named : Bool) (field : Option Field) (start : Nat)
    (code : String) : Label where
  kind := kind
  named := named
  field := field
  start := start
  stop := start + code.utf8ByteSize
  text := code
  line := 1
  column := start
  endLine := 1

mutual

/-- The tree of a piece that starts at an offset, none for the text between
phrases. -/
def layOut (start : Nat) : Sketch → Option Tree
  | between _ => none
  | phrase kind named field ps =>
    some (.node (label kind named field start (codeOf ps)) (layOutAll start ps))

/-- The trees of pieces that follow one another. -/
def layOutAll (start : Nat) : List Sketch → List Tree
  | [] => []
  | p :: ps =>
    (p.layOut start).toList ++ layOutAll (start + p.code.utf8ByteSize) ps

end

/-- The root of a program that consists of the given pieces. -/
def program (ps : List Sketch) : Node :=
  .ofRoot (.node (label (.other "program") true none 0 (codeOf ps))
    (layOutAll 0 ps))

/-- The source file with the given pieces. -/
def file (path : String) (ps : List Sketch) : SourceFile :=
  ⟨path, codeOf ps, program ps⟩

mutual

/-- No phrase is empty. -/
def isSolid : Sketch → Bool
  | between _ => true
  | phrase _ _ _ ps => 0 < (codeOf ps).utf8ByteSize && areSolid ps

def areSolid : List Sketch → Bool
  | [] => true
  | p :: ps => p.isSolid && areSolid ps

end

/-! ### Phrases -/

/-- A phrase with a role in its parent. -/
def as (field : Field) : Sketch → Sketch
  | between s => between s
  | phrase kind named _ ps => phrase kind named (some field) ps

def name (s : String) : Sketch := phrase .identifier true none [between s]

def number (s : String) : Sketch := phrase .number true none [between s]

/-- Pieces with a comma after each but the last. -/
def list : List Sketch → List Sketch
  | [] => []
  | [p] => [p]
  | p :: q :: ps =>
    p :: phrase .comma false none [between ","] :: between " " :: list (q :: ps)

def call (f : String) (args : List Sketch) : Sketch :=
  phrase .call true none [as .function (name f),
    phrase .arguments true (some .arguments)
      (between "(" :: list args ++ [between ")"])]

def binary (left : Sketch) (operator : String) (right : Sketch) : Sketch :=
  phrase .binary true none [as .left left,
    phrase (.other operator) false (some .operator)
    [between operator], as .right right]

def array (elements : List String) : Sketch :=
  phrase .array true none (between "[" :: list (elements.map name) ++
    [between "]"])

def text (s : String) : Sketch := phrase .string true none [between s]

/-- The access `object.property`. -/
def member (object : Sketch) (property : String) : Sketch :=
  phrase .member true none [as .object object, between ".",
    phrase (.other "property_identifier") true (some .property)
      [between property]]

/-- The access `object[index]`. -/
def subscript (object index : Sketch) : Sketch :=
  phrase .subscript true none [as .object object, between "[", as .index index,
    between "]"]

def parenthesized (inner : Sketch) : Sketch :=
  phrase .parenthesized true none [between "(", inner, between ")"]

/-- An expression taken for one of another type. -/
def typed (inner : Sketch) (type : String) : Sketch :=
  phrase .asExpression true none [inner, between " as ",
    phrase (.other "type_identifier") true none [between type]]

/-- An expression that is said to be there. -/
def nonNull (inner : Sketch) : Sketch :=
  phrase .nonNull true none [inner, between "!"]

/-- An expression as a statement. -/
def run (expression : Sketch) : Sketch :=
  phrase (.other "expression_statement") true none [expression, between ";"]

/-- The statement that gives a value back. -/
def giveBack (value : Sketch) : Sketch :=
  phrase .returnStatement true none [between "return ", value, between ";"]

def block (statements : List Sketch) : Sketch :=
  phrase .block true none (between "\x7b" :: statements ++ [between "\x7d"])

def ifThen (condition : Sketch) (statements : List Sketch) : Sketch :=
  phrase .ifStatement true none [between "if ",
    phrase .parenthesized true (some .condition) [between "(", condition,
      between ")"],
    as .consequence (block statements)]

def parameters (names : List String) : Sketch :=
  phrase (.other "formal_parameters") true (some .parameters)
    (between "(" :: list (names.map name) ++ [between ")"])

def arrow (statements : List Sketch) : Sketch :=
  phrase .arrowFunction true none [parameters [], between "=>",
    as .body (block statements)]

/-- An arrow function that may wait. -/
def asyncArrow (statements : List Sketch) : Sketch :=
  phrase .arrowFunction true none [phrase .async false none [between "async"],
    parameters [], between "=>", as .body (block statements)]

def await (expression : Sketch) : Sketch :=
  phrase .await true none [between "await ", expression]

def function (f : String) (params : List String) (statements : List Sketch) :
    Sketch :=
  phrase .functionDeclaration true none [between "function ", as .name (name f),
    parameters params, as .body (block statements)]

/-- The declaration of a constant. -/
def const (pattern value : Sketch) : Sketch :=
  phrase .lexicalDeclaration true none [between "const ",
    phrase .declarator true none [as .name pattern, between "=",
      as .value value], between ";"]

/-- The declaration of a state with its setter. -/
def useState (state setter : String) : Sketch :=
  const (phrase .arrayPattern true none
    (between "[" :: list [name state, name setter] ++ [between "]"]))
    (call "useState" [number "0"])

/-- An import of names from a module. -/
def importFrom (names : List String) (source : String) : Sketch :=
  let specifier (s : String) :=
    phrase .importSpecifier true none [as .name (name s)]
  phrase .importStatement true none [between "import ",
    phrase .importClause true none [phrase .namedImports true none
      (between "\x7b" :: list (names.map specifier) ++ [between "\x7d"])],
    between " from ", phrase .string true (some .source)
      [between ("'" ++ source ++ "'")], between ";"]

/-! ### Spacing -/

/-- A phrase takes up the bytes of its code. -/
theorem layOut_range {start : Nat} {p : Sketch} {t : Tree}
    (h : p.layOut start = some t) :
    t.label.start = start ∧ t.label.stop = start + p.code.utf8ByteSize := by
  cases p with
  | between s => cases h
  | phrase kind named field ps =>
    cases h
    exact ⟨rfl, rfl⟩

theorem le_start_of_mem_layOutAll {start : Nat} {ps : List Sketch} {t : Tree}
    (h : t ∈ layOutAll start ps) : start ≤ t.label.start := by
  induction ps generalizing start with
  | nil => cases h
  | cons p ps ih =>
    rcases List.mem_append.1 h with h | h
    · have := (layOut_range (Option.mem_toList.1 h)).1
      omega
    · have := ih h
      omega

/-- Phrases that follow one another stand one behind the other. -/
theorem pairwise_layOutAll (start : Nat) (ps : List Sketch) :
    (layOutAll start ps).Pairwise fun t u => t.label.stop ≤ u.label.start := by
  induction ps generalizing start with
  | nil => exact .nil
  | cons p ps ih =>
    refine List.pairwise_append.2 ⟨?_, ih _, fun t ht u hu => ?_⟩
    · cases p.layOut start <;> simp
    · have hstop := (layOut_range (Option.mem_toList.1 ht)).2
      have hstart := le_start_of_mem_layOutAll hu
      omega

/-- No phrase is empty, if none is sketched so. -/
theorem solid_of_mem_layOutAll {start : Nat} {ps : List Sketch}
    (hs : areSolid ps = true) {t : Tree} (h : t ∈ layOutAll start ps) :
    t.label.start < t.label.stop := by
  induction ps generalizing start with
  | nil => cases h
  | cons p ps ih =>
    rw [areSolid, Bool.and_eq_true] at hs
    rcases List.mem_append.1 h with h | h
    · have hrange := layOut_range (Option.mem_toList.1 h)
      cases p with
      | between s => cases h
      | phrase kind named field ps =>
        have hsolid := hs.1
        rw [isSolid, Bool.and_eq_true, decide_eq_true_iff] at hsolid
        rw [hrange.1, hrange.2, code]
        omega
    · exact ih hs.2 h

/-- The children of a phrase are spaced. -/
theorem spaced_of_layOutAll {start : Nat} {ps : List Sketch}
    (hs : areSolid ps = true) (l : Label) (above : List Tree) :
    (⟨.node l (layOutAll start ps), above⟩ : Node).Spaced where
  solid := by
    intro c hc
    obtain ⟨t, ht, rfl⟩ := List.mem_map.1 hc
    exact solid_of_mem_layOutAll hs ht
  apart := List.pairwise_map.2 (pairwise_layOutAll start ps)

mutual

/-- All the nodes of a laid out phrase are spaced. -/
theorem spaced_of_mem_walk (start : Nat) (above : List Tree) :
    ∀ (p : Sketch) (t : Tree), p.layOut start = some t → p.isSolid = true →
      ∀ n ∈ t.walk above, n.Spaced
  | between s, t, ht, _ => by cases ht
  | phrase kind named field ps, t, ht, hs => by
    cases ht
    rw [isSolid, Bool.and_eq_true] at hs
    intro n hn
    rw [Tree.walk] at hn
    rcases List.mem_cons.1 hn with rfl | hn
    · exact spaced_of_layOutAll hs.2 _ _
    · exact spaced_of_mem_walkList start _ ps hs.2 n hn

theorem spaced_of_mem_walkList (start : Nat) (above : List Tree) :
    ∀ ps : List Sketch, areSolid ps = true →
      ∀ n ∈ Tree.walkList above (layOutAll start ps), n.Spaced
  | [], _ => by
    intro n hn
    cases hn
  | p :: ps, hs => by
    rw [areSolid, Bool.and_eq_true] at hs
    intro n hn
    obtain ⟨t, ht, hn⟩ := Node.mem_walkList.1 hn
    rcases List.mem_append.1 ht with ht | ht
    · exact spaced_of_mem_walk start above p t
        (Option.mem_toList.1 ht) hs.1 n hn
    · exact spaced_of_mem_walkList _ above ps hs.2 n
        (Node.mem_walkList.2 ⟨t, ht, hn⟩)

end

/-- Code without empty phrases has a well-spaced tree. -/
theorem wellSpaced_program {ps : List Sketch} (hs : areSolid ps = true) :
    (program ps).WellSpaced := by
  intro n hn
  unfold program Node.ofRoot Node.walk at hn
  rw [Tree.walk] at hn
  rcases List.mem_cons.1 hn with rfl | hn
  · exact spaced_of_layOutAll hs _ _
  · exact spaced_of_mem_walkList 0 _ ps hs n hn

end Sketch

end RenderLoop
