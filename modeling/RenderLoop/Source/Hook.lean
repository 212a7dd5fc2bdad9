import RenderLoop.Expr.Call
import RenderLoop.Expr.Function

/-!
# Hook calls

The calls of the five hooks that take a callback and a dependency list: three
effects, which run the callback after rendering, and two memo hooks, which
keep a value between renders.
-/

namespace RenderLoop

/-- A hook whose dependency list is checked. -/
inductive HookKind where
  | effect
  | layoutEffect
  | insertionEffect
  | callback
  | memo
  deriving DecidableEq, Repr, Inhabited

namespace HookKind

def all : List HookKind :=
  [effect, layoutEffect, insertionEffect, callback, memo]

def name : HookKind → String
  | effect => "useEffect"
  | layoutEffect => "useLayoutEffect"
  | insertionEffect => "useInsertionEffect"
  | callback => "useCallback"
  | memo => "useMemo"

def ofName? (name : String) : Option HookKind := all.find? (·.name == name)

/-- The hooks that run their callback, as opposed to those that keep it. -/
def isEffect : HookKind → Bool
  | effect | layoutEffect | insertionEffect => true
  | callback | memo => false

end HookKind

/-- The names of all hooks whose calls are tracked. -/
def hookNames : List String := HookKind.all.map (·.name)

/-- A hook call. -/
structure Hook where
  kind : HookKind
  call : Node
  deriving Inhabited

namespace Hook

/-- The hook a node calls, if it calls one. -/
def ofNode? (n : Node) : Option Hook :=
  if n.isCallOf hookNames then
    (n.calleeName?.bind HookKind.ofName?).map fun kind => ⟨kind, n⟩
  else none

def line (h : Hook) : Nat := h.call.line

def column (h : Hook) : Nat := h.call.column

/-- The first argument, without wrappers. -/
def callback? (h : Hook) : Option Node := h.call.firstArgument?

/-- Whether a second argument is given, of whatever shape. -/
def hasDependencies (h : Hook) : Bool := 2 ≤ h.call.arguments.length

/-- The elements of the dependency array, without wrappers. -/
def dependencyNodes (h : Hook) : List Node :=
  match h.call.arguments with
  | _ :: deps :: _ =>
    if deps.bare.kind == .array then deps.bare.parts.map Node.bare else []
  | _ => []

/-- The dependencies as written. -/
def dependencies (h : Hook) : List String := h.dependencyNodes.map (·.text)

end Hook

/-- The hook calls below a node, in order. -/
def Node.hooks (root : Node) : List Hook := root.walk.filterMap Hook.ofNode?

end RenderLoop
