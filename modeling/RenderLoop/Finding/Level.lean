/-!
# Levels, kinds and categories of findings

Severity and confidence are both one of three levels, ordered. A finding's
kind says how certain the loop is, its category what it costs.
-/

namespace RenderLoop

/-- A severity or a confidence. -/
inductive Level where
  | low
  | medium
  | high
  deriving DecidableEq, Repr, Inhabited

namespace Level

def all : List Level := [low, medium, high]

def name : Level → String
  | low => "low"
  | medium => "medium"
  | high => "high"

def rank : Level → Nat
  | low => 0
  | medium => 1
  | high => 2

instance : LE Level := ⟨fun a b => a.rank ≤ b.rank⟩

instance : LT Level := ⟨fun a b => a.rank < b.rank⟩

instance (a b : Level) : Decidable (a ≤ b) :=
  inferInstanceAs (Decidable (a.rank ≤ b.rank))

instance (a b : Level) : Decidable (a < b) :=
  inferInstanceAs (Decidable (a.rank < b.rank))

def ofName? (name : String) : Option Level := all.find? (·.name == name)

end Level

/-- How certain it is that rendering never settles. -/
inductive FindingKind where
  | confirmed
  | potential
  | safe
  deriving DecidableEq, Repr, Inhabited

namespace FindingKind

def all : List FindingKind := [confirmed, potential, safe]

def name : FindingKind → String
  | confirmed => "confirmed-infinite-loop"
  | potential => "potential-issue"
  | safe => "safe-pattern"

def ofName? (name : String) : Option FindingKind := all.find? (·.name == name)

end FindingKind

/-- What a finding costs the program it is found in. -/
inductive Category where
  | critical
  | warning
  | performance
  | safe
  deriving DecidableEq, Repr, Inhabited

namespace Category

def all : List Category := [critical, warning, performance, safe]

def name : Category → String
  | critical => "critical"
  | warning => "warning"
  | performance => "performance"
  | safe => "safe"

def ofName? (name : String) : Option Category := all.find? (·.name == name)

end Category

end RenderLoop
