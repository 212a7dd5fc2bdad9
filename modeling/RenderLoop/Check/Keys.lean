import RenderLoop.Check.Report
import RenderLoop.Expr.Call
import RenderLoop.Expr.Function
import RenderLoop.Expr.Jsx
import RenderLoop.Data.Table

/-!
# Keys of list elements

A key that changes on every render throws the element's state away.
`Keys.classify?` looks at every part of a key: through wrappers, the
substitutions of a template and the two sides of an operator. A part that is
new every time outweighs one that is merely the index.
-/

namespace RenderLoop

namespace Keys

/-- Functions that return a different value on every call. -/
def randomFunctions : List String :=
  ["random", "now", "randomUUID", "uuid", "uuidv4", "v4", "nanoid", "uniqueId",
    "generateId", "createId", "cuid"]

/-- The same as properties of well-known objects. -/
def randomProperties : List String :=
  ["Math.random", "Date.now", "crypto.randomUUID", "crypto.getRandomValues",
    "performance.now"]

/-- Methods that return a different value whatever they belong to. -/
def randomMethods : List String :=
  ["v1", "v4", "randomUUID", "nanoid", "uniqueId"]

/-- A call whose result differs every time. -/
def isRandom (n : Node) : Bool :=
  let b := n.bare
  b.kind == .call &&
    match b.callee? with
    | none => false
    | some target =>
      match target.kind with
      | .identifier => randomFunctions.contains target.text
      | .member =>
        randomProperties.contains b.calleeText ||
          b.calleeName?.any randomMethods.contains ||
            (b.calleeName? == some "getTime" && (target.bareChild? .object).any
            fun o => o.kind == .new)
      | _ => false

/-- The variables bound to such a call. -/
def randomVariables (root : Node) : List String :=
  root.walk.filterMap fun n =>
    if n.kind == .declarator then
      match n.declaredName?, n.child? .value with
      | some name, some value => if isRandom value then some name else none
      | _, _ => none
    else none

/-- The call of `map` that a function is the callback of. -/
def isMapCallback (fn : Node) : Bool :=
  fn.kind.isFunctionLiteral &&
    match fn.parent? with
    | some args =>
      args.kind == .arguments &&
        match args.parent? with
        | some call => call.kind == .call && call.calleeName? == some "map"
        | none => false
    | none => false

/-- The index parameter of the nearest `map` around a node. -/
def indexName? (n : Node) : Option String :=
  match n.ancestors.find? isMapCallback with
  | some fn =>
    match fn.functionParams with
    | _ :: index :: _ =>
      if index.kind == .identifier then some index.text else none
    | _ => none
  | none => none

/-- What is wrong with a key. -/
inductive Verdict where
  | literal (what : String)
  | randomCall (text : String)
  | randomVariable (name : String)
  | index (name : String)
  deriving DecidableEq, Repr, Inhabited

namespace Verdict

/-- The key is new on every render. -/
def isUnstable : Verdict → Bool
  | index _ => false
  | _ => true

def reason : Verdict → String
  | literal what => what
  | randomCall text =>
    "'" ++ text ++ "', which returns a new value on every render"
  | randomVariable name =>
    "'" ++ name ++ "', which is generated randomly on every render"
  | index name => "the array index '" ++ name ++ "'"

end Verdict

/-- The verdict on one part, without looking inside it. -/
def verdictOn? (random : List String) (index : Option String) (part : Node) :
    Option Verdict :=
  match part.kind with
  | .object => some (.literal "an inline object literal")
  | .array => some (.literal "an inline array literal")
  | .identifier =>
    if random.contains part.text then some (.randomVariable part.text)
    else if index == some part.text then some (.index part.text)
    else none
  | _ => if isRandom part then some (.randomCall part.text) else none

/-- The expressions a part is put together from, last first. -/
def components (part : Node) : List Node :=
  match part.kind with
  | .templateString =>
    ((part.namedChildren.filter (·.kind == .templateSubstitution)).flatMap
      (·.parts)).reverse
  | .binary => (part.child? .right).toList ++ (part.child? .left).toList
  | _ => []

/-- What an expression is put together from is smaller than the expression. -/
theorem size_lt_of_mem_components {part c : Node} (h : c ∈ components part) :
    c.size < part.size := by
  unfold components at h
  split at h
  · obtain ⟨s, hs, hc⟩ := List.mem_flatMap.1 (List.mem_reverse.1 h)
    have hs' := Node.size_lt_of_mem_children
      (Node.mem_children_of_mem_namedChildren (List.mem_filter.1 hs).1)
    exact Nat.lt_trans (Node.size_lt_of_mem_parts hc) hs'
  · rcases List.mem_append.1 h with h | h
    · exact Node.size_lt_of_child? (Option.mem_toList.1 h)
    · exact Node.size_lt_of_child? (Option.mem_toList.1 h)
  · cases h

/-- The verdicts on all parts of a key, last part first. -/
def verdicts (random : List String) (index : Option String) (value : Node) :
    List Verdict :=
  (verdictOn? random index value.bare).toList ++
    (components value.bare).attach.flatMap fun ⟨c, _⟩ => verdicts random index c
termination_by value.size
decreasing_by
  rename_i h
  exact Nat.lt_of_lt_of_le (size_lt_of_mem_components h) value.size_bare_le

/-- The verdict on a key: a part that is new every time outweighs the index. -/
def classify? (random : List String) (index : Option String) (value : Node) :
    Option Verdict :=
  let found := verdicts random index value
  (found.find? (·.isUnstable)).or found.head?

end Keys

namespace Check

open Keys

/-- The finding on a key that is new on every render, or that is the index. -/
def keyFinding (ctx : Context) (file : String) (value : Node)
    (verdict : Verdict) : Finding :=
  let reason := verdict.reason
  ctx.report
    { kind := .potential
      code := if verdict.isUnstable then .unstableKey else .indexKey
      category := if verdict.isUnstable then .warning else .performance
      severity := if verdict.isUnstable then .medium else .low
      confidence :=
        match verdict with
        | .literal _ | .randomCall _ => .high
        | .randomVariable _ | .index _ => .medium
      file := file
      line := value.line
      column := some value.column
      hook := "key-prop"
      dependency := value.text
      explanation :=
        if verdict.isUnstable then
          s!"The key is {reason}. React sees a different key on every render and remounts " ++
            "the element, losing its state and effects."
        else
          s!"The key is {reason}. Reordering, inserting or removing items reuses the wrong " ++
            "element state."
      suggestion := some
        (if verdict.isUnstable then
          "Derive the key from stable item data, or generate ids once when the data is created."
        else "Use a stable identifier from the item, such as item.id.")
      debug := some
        { reason := "unstable key prop", dependencyAnalysis :=
          [("key", .text value.text)] } }
    []

/-- The findings on the keys of one element. -/
def elementKeys (ctx : Context) (file : String) (random : List String)
    (element : Node) :
    List Finding :=
  element.jsxAttributes.filterMap fun (name, value) =>
    match value with
    | none => none
    | some v =>
      if name != "key" || v.kind == .string then none
      else
        let index := if ctx.options.warnOnIndexKey then indexName? element
          else none
        (classify? random index v).map (keyFinding ctx file v)

/-- The findings on the keys of all elements below a node. -/
def unstableKeys (ctx : Context) (file : String) (root : Node) : List Finding :=
  let random := randomVariables root
  (root.walk.filter (·.kind.isJsxTag)).flatMap (elementKeys ctx file random)

end Check

end RenderLoop
