import RenderLoop.Text.Pattern
import RenderLoop.Text.Quoted
import RenderLoop.Data.Value

/-!
# Options of a run

What a run is configured with: the hooks and functions whose results are known
to be stable or not, the spellings that mark setters, hooks and updaters, and
an optional type checker to ask.

`OptionSettings` is what callers write, `Options` what the analysis works
with; the step between the two compiles the hook patterns and can fail. The
compiler is an argument of it.
-/

namespace RenderLoop

/-- Answers whether a function returns the same reference on every call: whom
it is asked about goes by file, line of the call and name. -/
structure Checker where
  returnsStable? : String → Nat → String → Option Bool

/-- Where checkers come from. -/
structure CheckerSources where
  checker : Option Checker := none
  /-- The checker responsible for a file. -/
  pool : Option (String → Option Checker) := none
  /-- A checker to be started on demand; nothing inside when starting it
  fails. -/
  factory : Option (Option Checker) := none

instance : Inhabited CheckerSources := ⟨{}⟩

/-- What the settings say about one function. -/
inductive Override where
  /-- Whether its result is stable and whether it calls back later, both as
  written. -/
  | entry (stable deferred : Value)
  /-- An entry that is not a table, which is only noticed when it is read. -/
  | malformed (written : Value)
  deriving Inhabited

def Override.ofValue : Value → Override
  | .table entries =>
    .entry ((Table.get? entries "stable").getD .null)
      ((Table.get? entries "deferred").getD .null)
  | written => .malformed written

/-- The reading of a malformed entry was attempted. -/
inductive Fault where
  | malformedOverride
  deriving DecidableEq, Repr, Inhabited

/-- Whether a function's result is declared stable, declared unstable, or
neither. -/
def Override.stability : Override → Except Fault (Option Bool)
  | entry (.bool false) _ => .ok (some false)
  | entry stable _ => .ok (if stable.isTruthy then some true else none)
  | malformed _ => .error .malformedOverride

/-- Whether a function calls its callback later. -/
def Override.isDeferred : Override → Except Fault Bool
  | entry _ deferred => .ok deferred.isTruthy
  | malformed _ => .error .malformedOverride

/-- A configured value that cannot be used. -/
inductive OptionsError where
  | badHookPattern (error : PatternError)
  | negativeClosure
  deriving DecidableEq, Repr, Inhabited

/-- The value is to blame, rather than the limits of what reads it. -/
def OptionsError.isComplaint : OptionsError → Bool
  | badHookPattern e => e.fault.isComplaint
  | negativeClosure => true

def OptionsError.message : OptionsError → String
  | badHookPattern e =>
    if e.fault = .misspelled then
      "Invalid hook pattern " ++ Quoted.text e.pattern ++ ": " ++ e.message
    else e.message
  | negativeClosure => "max_import_closure must not be negative"

/-- Spellings that mark names, as regular expressions. -/
structure NamePatterns where
  setter : String := Pattern.setterName
  customHook : String := Pattern.hookName
  updater : String := Pattern.updaterName
  deriving DecidableEq, Repr, Inhabited

/-- The options as callers write them. -/
structure OptionSettings where
  stableHooks : List String := []
  unstableHooks : List String := []
  stablePatterns : List String := []
  unstablePatterns : List String := []
  overrides : Table Override := []
  debug : Bool := false
  strict : Bool := false
  warnOnIndexKey : Bool := false
  names : NamePatterns := {}
  maxImportClosure : Int := 500
  checkers : CheckerSources := {}

instance : Inhabited OptionSettings := ⟨{}⟩

/-- The options of a run. -/
structure Options where
  stableHooks : List String := []
  unstableHooks : List String := []
  stablePatterns : List Pattern := []
  unstablePatterns : List Pattern := []
  overrides : Table Override := []
  debug : Bool := false
  strict : Bool := false
  warnOnIndexKey : Bool := false
  names : NamePatterns := {}
  maxImportClosure : Nat := 500
  checkers : CheckerSources := {}

instance : Inhabited Options := ⟨{}⟩

/-- Compiles a list of hook patterns. -/
def compileHookPatterns (re : PatternCompiler) (sources : List String) :
    Except OptionsError (List Pattern) :=
  sources.mapM fun s => (re.compile s).mapError .badHookPattern

/-- Compiles the hook patterns and checks the limit, in this order. -/
def OptionSettings.build (re : PatternCompiler) (s : OptionSettings) :
    Except OptionsError Options := do
  let stable ← compileHookPatterns re s.stablePatterns
  let unstable ← compileHookPatterns re s.unstablePatterns
  if s.maxImportClosure < 0 then .error .negativeClosure
  else
    return {
      stableHooks := s.stableHooks
      unstableHooks := s.unstableHooks
      stablePatterns := stable
      unstablePatterns := unstable
      overrides := s.overrides
      debug := s.debug
      strict := s.strict
      warnOnIndexKey := s.warnOnIndexKey
      names := s.names
      maxImportClosure := s.maxImportClosure.toNat
      checkers := s.checkers }

/-- The functions that call their callback later, in order of name. -/
def Options.deferredFunctions (o : Options) : Except Fault (List String) := do
  let marked ← o.overrides.filterM fun (_, entry) => entry.isDeferred
  return (marked.map (·.1)).mergeSort fun a b => decide (a ≤ b)

end RenderLoop
