import RenderLoop.Options.Basic

/-!
# The context of a run

A run fixes its options, compiles the spellings that mark names and decides
which checker, if any, it asks. Strict mode without a checker falls back to
the heuristics.
-/

namespace RenderLoop

/-- Options with everything resolved that a whole run shares. -/
structure Context where
  options : Options
  setterPattern : Pattern
  customHookPattern : Pattern
  updaterPattern : Pattern
  deriving Inhabited

namespace Context

/-- Compiles the spellings; the first that does not compile is reported. -/
def ofOptions (re : PatternCompiler) (o : Options) :
    Except PatternError Context := do
  let setter ← re.compile o.names.setter
  let customHook ← re.compile o.names.customHook
  let updater ← re.compile o.names.updater
  return ⟨o, setter, customHook, updater⟩

/-- The checker for files that no pool is responsible for: the given one, or
the one a factory starts when neither a checker nor a pool is given. -/
def defaultChecker (ctx : Context) : Option Checker :=
  let s := ctx.options.checkers
  if s.checker.isSome || s.pool.isSome then s.checker else s.factory.join

/-- Strict mode is on and a source of checkers backs it. -/
def strict (ctx : Context) : Bool :=
  let s := ctx.options.checkers
  ctx.options.strict &&
    (s.checker.isSome || s.pool.isSome || s.factory.join.isSome)

/-- The checker to ask about a file. -/
def checkerFor (ctx : Context) (file : String) : Option Checker :=
  if ctx.strict then
    match ctx.options.checkers.pool.bind (· file) with
    | some c => some c
    | none => ctx.defaultChecker
  else none

def isSetterName (ctx : Context) (name : String) : Bool :=
  name != "" && ctx.setterPattern.search name

def isCustomHookName (ctx : Context) (name : String) : Bool :=
  name != "" && ctx.customHookPattern.search name

def isUpdaterName (ctx : Context) (name : String) : Bool :=
  name != "" && ctx.updaterPattern.search name

end Context

end RenderLoop
