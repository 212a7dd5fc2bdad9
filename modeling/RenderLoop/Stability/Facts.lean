import RenderLoop.Stability.Declaration

/-!
# Facts about a file's bindings

The declarations of a file, gathered: which names are state, setters, refs,
memoized or bound at module level, and which variables of which component are
new on every render. The last declarator of a name in a component counts, and
a name that is state, a setter, a ref, bound at module level or memoized in
the same component is never unstable.
-/

namespace RenderLoop

/-- What is known about the bindings of a file. -/
structure Facts where
  /-- State names with their setters. -/
  states : Table String := []
  setters : List String := []
  refs : List String := []
  /-- Memoized names by owner. -/
  memoized : Table (List String) := []
  moduleLevel : List String := []
  unstableVariables : List UnstableVariable := []
  components : List Component := []
  deriving Inhabited

namespace Facts

/-- The pairs of state and setter a declaration adds. -/
def statePairs : Declaration → List (String × String)
  | .state (some state) (some setter) => [(state, setter)]
  | .context pairs => pairs
  | _ => []

/-- The setters a declaration adds, paired with a state or not. -/
def settersOf : Declaration → List String
  | .state _ setter => setter.toList
  | .context pairs => pairs.map (·.2)
  | _ => []

def refsOf : Declaration → List String
  | .ref name => [name]
  | _ => []

def memosOf : Declaration → List (String × String)
  | .memo owner name => [(owner, name)]
  | _ => []

def moduleNamesOf : Declaration → List String
  | .moduleLevel names => names
  | _ => []

def unstableOf : Declaration → List UnstableVariable
  | .unstable found => found
  | _ => []

/-- Two variables of one name in components of one name. -/
def sameBinding (v w : UnstableVariable) : Bool :=
  v.name == w.name && v.owner.name == w.owner.name

/-- Of the variables bound several times, the last. -/
def keepLast : List UnstableVariable → List UnstableVariable
  | [] => []
  | v :: rest =>
    if rest.any (sameBinding v) then keepLast rest else v :: keepLast rest

/-- The names memoized by an owner. -/
def memoizedBy (memoized : Table (List String)) (owner : String) :
    List String :=
  (memoized.get? owner).getD []

/-- The facts that declarations add up to. -/
def ofDeclarations (components : List Component) (ds : List Declaration) :
    Facts :=
  let states := Table.ofEntries (ds.flatMap statePairs)
  let setters := (ds.flatMap settersOf).eraseDups
  let refs := (ds.flatMap refsOf).eraseDups
  let moduleLevel := (ds.flatMap moduleNamesOf).eraseDups
  let memoized := (ds.flatMap memosOf).foldl
    (fun t (owner, name) => Table.modify t owner [] (· ++ [name])) []
  let settled (v : UnstableVariable) : Bool :=
    Table.contains states v.name || setters.contains v.name ||
      refs.contains v.name || moduleLevel.contains v.name ||
      (memoizedBy memoized v.owner.name).contains v.name
  { states, setters, refs, memoized, moduleLevel, components
    unstableVariables := (keepLast (ds.flatMap unstableOf)).filter fun v =>
      !settled v }

/-- The facts about the file with the given tree. -/
def extract (ctx : Context) (file : String) (root : Node) :
    Except Fault Facts := do
  let ds ← (root.walk.filter (·.kind == .declarator)).mapM
    (Declaration.ofNode ctx file)
  return ofDeclarations root.components ds

/-- The state a setter writes. Of several, the one bound last. -/
def stateOf? (f : Facts) (setter : String) : Option String :=
  (f.states.reverse.find? (·.2 == setter)).map (·.1)

/-- The setter of a state. -/
def setterOf? (f : Facts) (state : String) : Option String :=
  f.states.get? state

def isState (f : Facts) (name : String) : Bool := f.states.contains name

def isSetter (f : Facts) (name : String) : Bool := f.setters.contains name

/-- The innermost component around a node: among those that contain it, the
last that starts no earlier than those before it. -/
def componentAt? (f : Facts) (n : Node) : Option Component :=
  f.components.foldl (fun best c =>
    if c.contains n && best.all (fun b => b.start ≤ c.start) then some c
    else best) none

/-- The unstable variable of a component under a name. -/
def unstable? (f : Facts) (component name : String) : Option UnstableVariable :=
  f.unstableVariables.find? fun v => v.owner.name == component && v.name == name

end Facts

end RenderLoop
