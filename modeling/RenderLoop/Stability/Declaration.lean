import RenderLoop.Stability.Verdict
import RenderLoop.Stability.Component

/-!
# Declarations

What a variable declarator means for the analysis: it may bind state and its
setter, a ref, a memoized value, a name of the module, or values that are new
on every render of a component. The shape of the bound pattern and of the
initial value decide; only for a call result do the stability rules.
-/

namespace RenderLoop

/-- Why a value is new on every render. -/
inductive UnstableKind where
  | object
  | array
  | function
  | callResult
  deriving DecidableEq, Repr, Inhabited

def UnstableKind.name : UnstableKind → String
  | object => "object"
  | array => "array"
  | function => "function"
  | callResult => "call-result"

/-- The kind of new value an initial value is, if it is one. -/
def UnstableKind.ofInitializer? (value : Node) : Option UnstableKind :=
  match value.kind with
  | .object => some object
  | .array => some array
  | .call => some callResult
  | kind => if kind.isFunctionLiteral then some function else none

/-- A component's variable whose value is new on every render. -/
structure UnstableVariable where
  name : String
  kind : UnstableKind
  line : Nat
  owner : Component
  /-- The result of a call that no rule recognised. -/
  inferred : Bool
  deriving DecidableEq, Repr, Inhabited

/-- The owner of memoized values outside all components. -/
def moduleScope : String := "__module__"

/-- The meaning of a declarator. -/
inductive Declaration where
  /-- A state hook's pair; either half may be left out. -/
  | state (state setter : Option String)
  /-- Pairs of state and setter taken out of a context. -/
  | context (pairs : List (String × String))
  | ref (name : String)
  | memo (owner name : String)
  | moduleLevel (names : List String)
  | unstable (found : List UnstableVariable)
  | irrelevant
  deriving DecidableEq, Repr, Inhabited

namespace Declaration

def stateHooks : List String := ["useState", "useReducer"]

def memoHooks : List String := ["useMemo", "useCallback"]

/-- The elements of an array pattern by position; a hole is empty. `current`
is the element of the position being read. -/
def elementsFrom (current : Option Node) : List Node → List (Option Node)
  | [] => [current]
  | c :: cs =>
    if c.kind == .comma then current :: elementsFrom none cs
    else if c.isNamed && c.kind != .comment then elementsFrom (some c) cs
    else elementsFrom current cs

/-- The identifier at a position of an array pattern. -/
def identifierAt? (pattern : Node) (i : Nat) : Option String :=
  match (elementsFrom none pattern.children)[i]? with
  | some (some n) => if n.kind == .identifier then some n.text else none
  | _ => none

/-- The state a context setter belongs to: its name without the first three
letters, the next one small. -/
def stateNamedBy (setter : String) : String :=
  match setter.toList.drop 3 with
  | [] => ""
  | c :: rest => String.ofList (toSmall c ++ rest)

/-- The pairs of state and setter among names taken out of a context. -/
def contextPairs (ctx : Context) (names : List String) :
    List (String × String) :=
  names.eraseDups.filterMap fun setter =>
    let state := stateNamedBy setter
    if ctx.isSetterName setter && names.contains state then some (state, setter)
    else none

/-- Whether the called name is that of a custom hook. -/
def callsCustomHook (ctx : Context) (call : Node) : Bool :=
  call.calleeName?.any ctx.isCustomHookName

/-- A pair bound to a state hook, or to a custom hook whose second element is
named like a setter. -/
def ofArrayPattern? (ctx : Context) (pattern value : Node) :
    Option Declaration :=
  let setter := identifierAt? pattern 1
  if value.isCallOf stateHooks ||
    (callsCustomHook ctx value && setter.any ctx.isSetterName) then
    some (state (identifierAt? pattern 0) setter)
  else none

/-- The declarations of a plain name that hooks decide. -/
def ofIdentifier? (owner name : String) (value : Node) : Option Declaration :=
  if value.isCallOf ["useRef"] then some (ref name)
  else if value.isCallOf memoHooks then some (memo owner name)
  else if value.isCallOf stateHooks then some irrelevant
  else none

/-- The component around a node that owns what is memoized there. -/
def ownerOf (n : Node) : String :=
  ((n.enclosingFunctions.findSome? Component.ofFunction?).map (·.name)).getD
    moduleScope

/-- What hooks alone decide about a declarator, by the shape of its pattern. -/
def ofHook? (ctx : Context) (n pattern value : Node) : Option Declaration :=
  match pattern.kind with
  | .arrayPattern => ofArrayPattern? ctx pattern value
  | .objectPattern =>
    if value.isCallOf ["useContext"] then
      some (context (contextPairs ctx pattern.boundNames)) else none
  | .identifier => ofIdentifier? (ownerOf n) pattern.text value
  | _ => none

/-- The kind of new value a pattern takes apart or names. Only a plain name
keeps a literal. -/
def unstableKind? (pattern value : Node) : Option UnstableKind :=
  if pattern.kind == .identifier then UnstableKind.ofInitializer? value
  else if value.kind == .call then some .callResult
  else none

/-- The unstable variables of a declarator directly inside a component. -/
def ofComponent (ctx : Context) (file : String) (owner : Component)
    (n pattern value : Node) :
    Except Fault Declaration := do
  let bind (kind : UnstableKind) (inferred : Bool) : Declaration :=
    unstable (pattern.boundNames.map fun name =>
      ⟨name, kind, n.line, owner, inferred⟩)
  match unstableKind? pattern value with
  | none => return irrelevant
  | some .callResult =>
    if pattern.kind == .objectPattern && callsCustomHook ctx value then
      return irrelevant
    else
      let verdict ← Stability.classify ctx file value
      return if verdict.stable then irrelevant
        else bind .callResult verdict.inferred
  | some kind => return bind kind false

/-- The patterns the analysis looks into. -/
def isTracked : Kind → Bool
  | .arrayPattern | .objectPattern | .identifier => true
  | _ => false

/-- The meaning of a declarator. -/
def ofNode (ctx : Context) (file : String) (n : Node) :
    Except Fault Declaration :=
  match n.child? .name, n.bareChild? .value with
  | some pattern, some value =>
    if !isTracked pattern.kind then .ok irrelevant
    else
      match if value.kind == .call then ofHook? ctx n pattern value
        else none with
      | some d => .ok d
      | none =>
        match n.enclosingFunctions with
        | [] => .ok (moduleLevel pattern.boundNames)
        | fn :: _ =>
          match Component.ofFunction? fn with
          | some owner => ofComponent ctx file owner n pattern value
          | none => .ok irrelevant
  | _, _ => .ok irrelevant

end Declaration

end RenderLoop
