import RenderLoop.Finding.Basic
import RenderLoop.Text.Quoted

/-!
# Rules for reporting

Settings may switch a code off or give it another severity, and ask for
findings of some severity and confidence only. `RuleSet.filter` applies them:
it keeps the order of the findings and changes nothing but their severity.

Safe patterns are reported only on request, and then whatever their severity
and confidence.
-/

namespace RenderLoop

/-- What is reported, and as how severe. -/
structure RuleSet where
  /-- The severity set for a code; nothing inside for a code that is switched
  off. -/
  overrides : Table (Option Level) := []
  minSeverity : Level := .low
  minConfidence : Level := .low
  includePotential : Bool := true
  confirmedOnly : Bool := false
  /-- Report safe patterns too. -/
  showSafe : Bool := false
  deriving Inhabited

namespace RuleSet

def isEnabled (r : RuleSet) (code : Code) : Bool :=
  r.overrides.get? code.text != some none

/-- The severity set for a code, if there is one. -/
def severityFor? (r : RuleSet) (code : Code) : Option Level :=
  (r.overrides.get? code.text).join

/-- The severity under which a finding is reported. -/
def severityOf (r : RuleSet) (f : Finding) : Level :=
  (r.severityFor? f.code).getD f.severity

end RuleSet

/-- A verdict that nothing is wrong. -/
def Finding.isSafe (f : Finding) : Bool :=
  f.kind == .safe || f.category == .safe

namespace RuleSet

/-- The finding as it is reported, if it is. -/
def reported? (r : RuleSet) (f : Finding) : Option Finding :=
  if !r.isEnabled f.code then none
  else if f.isSafe then if r.showSafe then some f else none
  else if r.confirmedOnly && f.kind != .confirmed then none
  else if !r.includePotential && f.kind == .potential then none
  else if r.severityOf f < r.minSeverity ∨
    f.confidence < r.minConfidence then none
  else some { f with severity := r.severityOf f }

/-- The findings that are reported, as they are reported, in their order. -/
def filter (r : RuleSet) (fs : List Finding) : List Finding :=
  fs.filterMap r.reported?

end RuleSet

/-! ### Rules from settings -/

/-- Settings that cannot be taken for rules. -/
inductive RuleError where
  | badSeverity (written : Value)
  | badConfidence (written : Value)
  | malformedRules
  deriving Inhabited

def RuleError.message : RuleError → String
  | badSeverity v => Quoted.value v ++ " is not a valid Severity"
  | badConfidence v => Quoted.value v ++ " is not a valid Confidence"
  | malformedRules => "rules must be a table"

/-- What a caller may ask for; it wins over the settings. -/
structure RuleArguments where
  minSeverity : Value := .null
  minConfidence : Value := .null
  confirmedOnly : Value := .bool false
  includePotential : Value := .null
  showSafe : Value := .bool false
  deriving Inhabited

/-- The level a value names. -/
def Level.ofValue? : Value → Option Level
  | .text s => ofName? s
  | _ => none

/-- What a setting says about a code: nothing if it is neither a switch nor a
severity. -/
def RuleSet.readOverride? : Value → Option (Option Level)
  | .bool false => some none
  | .text s =>
    if s == "off" then some none else (Level.ofName? s.toLower).map some
  | _ => none

/-- The overrides of a table of settings. -/
def RuleSet.readOverrides (rules : Table Value) : Table (Option Level) :=
  rules.filterMap fun (code, setting) =>
    (readOverride? setting).map fun o => (code, o)

/-- The asked-for value if it is there, otherwise the one the settings have,
otherwise the default. -/
def RuleSet.choose (asked : Value) (settings : Table Value) (name : String)
    (default : Value) : Value :=
  if asked.isTruthy then asked else (settings.get? name).getD default

/-- Reads the rules off settings. The least severity is looked at first, then
the least confidence, then the overrides. -/
def RuleSet.ofSettings (settings : Table Value) (args : RuleArguments) :
    Except RuleError RuleSet := do
  let severity := choose args.minSeverity settings "min_severity" (.text "low")
  let confidence := choose args.minConfidence settings "min_confidence"
    (.text "low")
  let minSeverity ← (Level.ofValue? severity).elim
    (.error (.badSeverity severity)) .ok
  let minConfidence ← (Level.ofValue? confidence).elim
    (.error (.badConfidence confidence)) .ok
  let includePotential :=
    match args.includePotential with
    | .null => (settings.get? "include_potential_issues").getD (.bool true)
    | asked => asked
  let rules ←
    match settings.get? "rules" with
    | none => .ok []
    | some (.table entries) => .ok entries
    | some _ => .error .malformedRules
  return {
    overrides := readOverrides rules
    minSeverity := minSeverity
    minConfidence := minConfidence
    includePotential := includePotential.isTruthy
    confirmedOnly := args.confirmedOnly.isTruthy
    showSafe := args.showSafe.isTruthy }

end RenderLoop
