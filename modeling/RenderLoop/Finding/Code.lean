/-!
# Finding codes

Every check reports under a code. A code's family goes by the first character
behind its first dash, or by its very first character when it has no dash;
codes that no check uses are kept as written.
-/

namespace RenderLoop

/-- The code of a check. -/
inductive Code where
  | renderUpdate
  | renderUpdateVia
  | effectLoop
  | effectWithoutDeps
  | layoutEffectLoop
  | crossFileLoop
  | crossFileConditional
  | unstableObject
  | unstableArray
  | unstableFunction
  | unstableCall
  | providerValue
  | memoProp
  | unstableCallback
  | freshSnapshot
  | unstableKey
  | indexKey
  | spreadGuard
  | memoSelfUpdate
  | missingDeps
  | conditionalUpdate
  | refWrite
  | other (written : String)
  deriving DecidableEq, Repr, Inhabited

namespace Code

/-- The codes that checks use, in ascending order. -/
def known : List Code :=
  [renderUpdate, renderUpdateVia, effectLoop, effectWithoutDeps,
    layoutEffectLoop, crossFileLoop, crossFileConditional, unstableObject,
    unstableArray, unstableFunction, unstableCall,
    providerValue, memoProp, unstableCallback, freshSnapshot, unstableKey,
      indexKey, spreadGuard,
    memoSelfUpdate, missingDeps, conditionalUpdate, refWrite]

/-- The code as written in reports. -/
def text : Code → String
  | renderUpdate => "RLD-100"
  | renderUpdateVia => "RLD-101"
  | effectLoop => "RLD-200"
  | effectWithoutDeps => "RLD-201"
  | layoutEffectLoop => "RLD-202"
  | crossFileLoop => "RLD-300"
  | crossFileConditional => "RLD-301"
  | unstableObject => "RLD-400"
  | unstableArray => "RLD-401"
  | unstableFunction => "RLD-402"
  | unstableCall => "RLD-403"
  | providerValue => "RLD-404"
  | memoProp => "RLD-405"
  | unstableCallback => "RLD-406"
  | freshSnapshot => "RLD-407"
  | unstableKey => "RLD-408"
  | indexKey => "RLD-409"
  | spreadGuard => "RLD-410"
  | memoSelfUpdate => "RLD-420"
  | missingDeps => "RLD-500"
  | conditionalUpdate => "RLD-501"
  | refWrite => "RLD-600"
  | other written => written

def ofText (written : String) : Code :=
  (known.find? (·.text == written)).getD (other written)

/-- A one-line description, empty for a code no check uses. -/
def description : Code → String
  | renderUpdate => "setState during render phase"
  | renderUpdateVia => "setState via function call during render"
  | effectLoop => "Unconditional setState in effect dependency loop"
  | effectWithoutDeps => "Missing dependency array with setState"
  | layoutEffectLoop => "Unconditional setState in useLayoutEffect"
  | crossFileLoop => "Cross-file infinite loop"
  | crossFileConditional => "Cross-file conditional modification"
  | unstableObject => "Unstable object in dependency array"
  | unstableArray => "Unstable array in dependency array"
  | unstableFunction => "Unstable function in dependency array"
  | unstableCall => "Unstable function call in dependency array"
  | providerValue => "Unstable Context.Provider value"
  | memoProp => "Unstable prop to memoized component"
  | unstableCallback => "Unstable callback in useCallback deps"
  | freshSnapshot => "Unstable getSnapshot in useSyncExternalStore"
  | unstableKey => "Unstable key prop causes remounting"
  | indexKey => "Index used as key"
  | spreadGuard => "Object spread guard may not prevent loop"
  | memoSelfUpdate => "Memoized hook modifies its dependency"
  | missingDeps => "Missing dependency array"
  | conditionalUpdate => "Conditional modification needs review"
  | refWrite => "Render-phase ref mutation with state value"
  | other _ => ""

/-- What follows the first dash, or everything if there is none. -/
def afterDash (cs : List Char) : List Char :=
  match cs.dropWhile (· != '-') with
  | [] => cs
  | _ :: rest => rest

/-- The family a code belongs to. -/
def family (c : Code) : String :=
  match afterDash c.text.toList with
  | '1' :: _ => "render-phase"
  | '2' :: _ => "effect-loop"
  | '3' :: _ => "cross-file"
  | '4' :: _ => "unstable-reference"
  | '5' :: _ => "missing-deps"
  | '6' :: _ => "ref-mutation"
  | _ => "unknown"

end Code

end RenderLoop
