import RenderLoop.Options.Context
import RenderLoop.Expr.Call

/-!
# Stability of call results

Whether a call returns the same reference on every render. Rules are asked in
a fixed order and the first with an opinion decides; a call that none
recognises counts as unstable, by inference only.
-/

namespace RenderLoop

/-- The rule that decided about a call. -/
inductive StabilityRule where
  | stableHook
  | builtinCall
  | configured
  | checked
  | customHook
  | primitiveReturn
  | unrecognised
  deriving DecidableEq, Repr, Inhabited

def StabilityRule.name : StabilityRule → String
  | stableHook => "react-stable-hook"
  | builtinCall => "builtin-call"
  | configured => "config"
  | checked => "type-checker"
  | customHook => "custom-hook"
  | primitiveReturn => "primitive-return"
  | unrecognised => "default"

/-- The outcome for one call. -/
structure StabilityVerdict where
  stable : Bool
  rule : StabilityRule
  deriving DecidableEq, Repr, Inhabited

/-- No rule recognised the call. -/
def StabilityVerdict.inferred (v : StabilityVerdict) : Bool :=
  v.rule == .unrecognised

namespace Stability

/-- Hooks that return the same reference on every render. -/
def stableHookNames : List String := ["useRef", "useId"]

/-- Global functions that return primitives, or a module. -/
def builtinNames : List String :=
  ["require", "String", "Number", "Boolean", "parseInt", "parseFloat"]

/-- Methods that return primitives whatever they are called on. -/
def primitiveMethods : List String :=
  ["join", "toString", "toLocaleString", "valueOf", "charAt", "charCodeAt",
    "codePointAt", "substring", "substr", "slice", "trim", "trimStart",
    "trimEnd", "toLowerCase", "toUpperCase",
    "toLocaleLowerCase", "toLocaleUpperCase", "normalize", "padStart", "padEnd",
      "repeat", "replace",
    "replaceAll", "toFixed", "toExponential", "toPrecision", "indexOf",
      "lastIndexOf", "length",
    "includes", "startsWith", "endsWith", "every", "some"]

/-- Lookups of a stored value, as long as they take one argument. -/
def lookupMethods : List String := ["get", "has"]

/-- Functions of a global object that return primitives. -/
def primitiveStatics (object method : String) : Bool :=
  match object with
  | "Math" => true
  | "Number" =>
    ["isFinite", "isInteger", "isNaN", "isSafeInteger", "parseFloat",
      "parseInt"].contains method
  | "String" => ["fromCharCode", "fromCodePoint"].contains method
  | "Object" => ["is", "hasOwn"].contains method
  | "Array" => method == "isArray"
  | "Date" => ["now", "parse", "UTC"].contains method
  | "JSON" => method == "stringify"
  | _ => false

/-- The spellings under which settings may name a call, without the empty
one. -/
def settingNames (call : Node) : List String :=
  (call.calleeName?.toList ++ [call.calleeText]).eraseDups.filter (· != "")

/-- The overrides for a call, in order. -/
def overridesFor (o : Options) (names : List String) : List Override :=
  names.filterMap o.overrides.get?

/-- Whether some override declares the given stability, reading them until one
does. -/
def anyDeclares (declared : Bool) : List Override → Except Fault Bool
  | [] => .ok false
  | entry :: rest => do
    if (← entry.stability) == some declared then return true
    else anyDeclares declared rest

/-- Settings: exact names first, unstable before stable, then patterns in the
same order. -/
def configured (o : Options) (call : Node) : Except Fault (Option Bool) := do
  let names := settingNames call
  let entries := overridesFor o names
  if names.any o.unstableHooks.contains then return some false
  else if ← anyDeclares false entries then return some false
  else if names.any o.stableHooks.contains then return some true
  else if ← anyDeclares true entries then return some true
  else if o.unstablePatterns.any fun p =>
    names.any p.search then return some false
  else if o.stablePatterns.any fun p => names.any p.search then return some true
  else return none

/-- The type checker's answer, if there is a checker and the call has a name. -/
def checked (ctx : Context) (file : String) (call : Node) : Option Bool :=
  match ctx.checkerFor file, call.calleeName? with
  | some checker, some name =>
    if name == "" then none else checker.returnsStable? file call.line name
  | _, _ => none

/-- Calls of custom hooks are taken to return stable values. -/
def isCustomHookCall (ctx : Context) (call : Node) : Bool :=
  match call.callee? with
  | some f => f.kind == .identifier && ctx.isCustomHookName f.text
  | none => false

/-- Calls of the global functions that return primitives. -/
def isBuiltinCall (call : Node) : Bool :=
  match call.callee? with
  | some f => f.kind == .identifier && builtinNames.contains f.text
  | none => false

/-- Method calls that return primitives or a stored value. -/
def returnsPrimitive (call : Node) : Bool :=
  match call.callee? with
  | some f =>
    f.kind == .member &&
      let method := f.childText .property
      method == "getState" ||
        (match f.bareChild? .object with
          | some o => o.kind == .identifier && primitiveStatics o.text method
          | none => false) ||
        primitiveMethods.contains method ||
        (lookupMethods.contains method && call.arguments.length == 1)
  | none => false

/-- The stability of a call's result. -/
def classify (ctx : Context) (file : String) (call : Node) :
    Except Fault StabilityVerdict := do
  if call.isCallOf stableHookNames then return ⟨true, .stableHook⟩
  else if isBuiltinCall call then return ⟨true, .builtinCall⟩
  else
    match ← configured ctx.options call with
    | some stable => return ⟨stable, .configured⟩
    | none =>
      match checked ctx file call with
      | some stable => return ⟨stable, .checked⟩
      | none =>
        if isCustomHookCall ctx call then return ⟨true, .customHook⟩
        else if returnsPrimitive call then return ⟨true, .primitiveReturn⟩
        else return ⟨false, .unrecognised⟩

end Stability

end RenderLoop
