/-!
# Guards

A guard is a condition around a state update. Its kind says which shape was
recognised, and the kind alone decides whether the update is sure to stop once
the condition is met.
-/

namespace RenderLoop

/-- The recognised shape of a condition around an update. -/
inductive GuardKind where
  /-- The state is tested for truth and set to the opposite. -/
  | toggle
  /-- The state, or a part of it, is compared with the value it should have. -/
  | equality
  /-- The body returns before the update when a test of the state holds. -/
  | earlyReturn
  /-- A part of the state is compared, but the update makes a new object. -/
  | spreadRisk
  /-- The state follows another value and is set to it when the two differ. -/
  | derivedState
  | unknown
  deriving DecidableEq, Repr, Inhabited

namespace GuardKind

def name : GuardKind → String
  | toggle => "toggle-guard"
  | equality => "equality-guard"
  | earlyReturn => "early-return"
  | spreadRisk => "object-spread-risk"
  | derivedState => "derived-state"
  | unknown => "unknown"

/-- The update stops once the condition is met. -/
def isSafe : GuardKind → Bool
  | spreadRisk | unknown => false
  | _ => true

end GuardKind

/-- A guarded update of a state through its setter. -/
structure Guard where
  setter : String
  state : String
  kind : GuardKind
  deriving DecidableEq, Repr, Inhabited

namespace Guard

def isSafe (g : Guard) : Bool := g.kind.isSafe

/-- What to tell about a guard that compares a part and replaces the whole. -/
def warning? (g : Guard) : Option String :=
  if g.kind = .spreadRisk then
    some ("Guard checks property of '" ++ g.state ++
      "' but setter creates new object reference. " ++
      "Even after the property matches, the object reference changes each render, " ++
      "which may cause issues if other effects or memoized values depend on object identity.")
  else none

end Guard

end RenderLoop
