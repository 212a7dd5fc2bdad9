import RenderLoop.Expr.Literal

/-!
# Imports

The import statements at the top level of a file, and the re-exports, which
link files in the same way.
-/

namespace RenderLoop

/-- An import statement, or an export from another module. -/
structure Import where
  /-- The module as written, without quotes. -/
  source : String
  line : Nat
  defaultName : Option String := none
  namespaceName : Option String := none
  /-- Pairs of the imported name and the name it gets here. -/
  specifiers : List (String × String) := []
  reexport : Bool := false
  deriving DecidableEq, Repr, Inhabited

namespace Import

/-- The names an import introduces into its file. -/
def localNames (i : Import) : List String :=
  i.specifiers.map (·.2) ++ i.defaultName.toList ++ i.namespaceName.toList

/-- A specifier's own name and its alias, which is the name again if there is
none. -/
def specifier (n : Node) : String × String :=
  let name := n.childText .name
  (name, ((n.child? .aliasName).map (·.text)).getD name)

/-- The specifiers of a clause. -/
def specifiersIn (kind : Kind) (clause : Node) : List (String × String) :=
  (clause.namedChildren.filter (·.kind == kind)).map specifier

/-- The first named child of a kind. -/
def firstOf? (n : Node) (kind : Kind) : Option Node :=
  n.namedChildren.find? (·.kind == kind)

/-- Adds one part of an import clause to an import. -/
def addPart (i : Import) (n : Node) : Import :=
  match n.kind with
  | .identifier => { i with defaultName := some n.text }
  | .namespaceImport =>
    { i with namespaceName := (firstOf? n .identifier).map (·.text) }
  | .namedImports =>
    { i with specifiers := i.specifiers ++ specifiersIn .importSpecifier n }
  | _ => i

/-- The import a top-level statement makes, if it makes one. -/
def ofStatement? (n : Node) : Option Import :=
  match n.kind, n.child? .source with
  | .exportStatement, some source =>
    some { source := source.stringValue
           line := n.line
           specifiers :=
             ((firstOf? n .exportClause).map
             (specifiersIn .exportSpecifier)).getD []
           reexport := true }
  | .importStatement, some source =>
    let start : Import := { source := source.stringValue, line := n.line }
    match firstOf? n .importClause with
    | some clause => some (clause.namedChildren.foldl addPart start)
    | none => some start
  | _, _ => none

end Import

/-- The imports and re-exports of a file, in order. -/
def Node.imports (root : Node) : List Import :=
  root.namedChildren.filterMap Import.ofStatement?

end RenderLoop
