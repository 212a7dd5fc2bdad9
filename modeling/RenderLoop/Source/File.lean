import RenderLoop.Source.Hook
import RenderLoop.Source.Import
import RenderLoop.Text.Lines
import RenderLoop.Data.Table

/-!
# Source files

A source file is its path, its text and the parse tree of the text. A file
whose tree holds an error is refused; everything else the analysis wants to
know is read off the tree.
-/

namespace RenderLoop

/-- Why a source file could not be taken in. -/
inductive ParseError where
  | unreadable (path : String)
  | malformed (path : String) (line : Nat)
  deriving DecidableEq, Repr, Inhabited

def ParseError.message : ParseError → String
  | unreadable path => path ++ ": cannot read file"
  | malformed path line => path ++ ":" ++ toString line ++ ": syntax error"

/-- A parsed source file. -/
structure SourceFile where
  path : String
  text : String
  root : Node
  deriving Inhabited

/-- A place where the parser gave up or invented a token. -/
def Node.isFault (n : Node) : Bool := n.kind == .error || n.label.missing

namespace SourceFile

/-- Takes in a parsed text, or reports the first fault of its tree. -/
def ofTree (path text : String) (tree : Tree) : Except ParseError SourceFile :=
  let root := Node.ofRoot tree
  match root.walk.find? (·.isFault) with
  | some fault => .error (.malformed path fault.line)
  | none => .ok ⟨path, text, root⟩

def hooks (f : SourceFile) : List Hook := f.root.hooks

def imports (f : SourceFile) : List Import := f.root.imports

def lines (f : SourceFile) : List String := splitLines f.text

end SourceFile

/-- For each variable bound by name, the identifiers its initial values
mention. -/
def Node.origins (root : Node) : Table (List String) :=
  root.walk.foldl (fun t n =>
    if n.kind == .declarator then
      match n.declaredName?, n.child? .value with
      | some name, some value => t.modify name [] (· ++ value.identifiers)
      | _, _ => t
    else t) []

/-- The components bound to the result of a `memo` call. -/
def Node.memoizedComponents (root : Node) : List String :=
  root.walk.filterMap fun n =>
    if n.isCallOf ["memo"] then
      match n.parentBeyond?
        (fun k => k == .parenthesized || k == .asExpression) with
      | some p =>
        if p.kind == .declarator then
          match p.child? .name with
          | some target =>
            if isPascalCase target.text then some target.text else none
          | none => none
        else none
      | none => none
    else none

end RenderLoop
