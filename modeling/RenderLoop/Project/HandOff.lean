import RenderLoop.Project.Exports
import RenderLoop.Options.Context
import RenderLoop.Update.Interaction

/-!
# Setters handed from function to function

A function may call a setter that is handed to it, or hand it on to another
function. The depth of a parameter is the number of functions on the shortest
way from its function to a call. Depths start at one for the parameters that
are called, and are relaxed along the hand-offs until nothing changes.
-/

namespace RenderLoop

/-- A parameter of a function, by position. -/
structure Parameter where
  owner : Symbol
  position : Nat
  deriving DecidableEq, Repr, Inhabited

/-- A function passes one of its parameters on as an argument of a call. -/
structure HandOff where
  source : Parameter
  target : Parameter
  deriving DecidableEq, Repr, Inhabited

namespace HandOff

/-- Whether a parameter's name marks it as a setter. -/
def isSetterParam (ctx : Context) (name : Option String) : Bool :=
  name.any fun n => ctx.isUpdaterName n || ctx.isSetterName n

/-- The position of a parameter, the last one with that name. -/
def positionOf? (params : List (Option String)) (name : String) : Option Nat :=
  if name == "" then none
  else ((params.zipIdx.filter fun (p, _) => p == some name).getLast?).map (·.2)

/-- What a function does with its parameters. -/
inductive Use where
  /-- It calls one. -/
  | called (position : Nat)
  /-- It passes one on in a call. -/
  | passed (callee : String) (argument position : Nat)
  deriving DecidableEq, Repr, Inhabited

/-- The parameters passed on in the arguments of a call. -/
def passedIn (params : List (Option String)) (callee : String) (call : Node) :
    List Use :=
  call.arguments.zipIdx.filterMap fun (arg, i) =>
    let a := arg.bare
    if a.kind == .identifier then (positionOf? params a.text).map fun p =>
      .passed callee i p else none

/-- What one call does with the parameters of the function it is in. -/
def ofCall (params : List (Option String)) (n : Node) : List Use :=
  match n.kind, n.callee? with
  | .call, some target =>
    match target.kind with
    | .identifier =>
      match positionOf? params target.text with
      | some p => [.called p]
      | none => passedIn params target.text n
    | .member =>
      match target.bareChild? .object with
      | some o =>
        if o.kind == .identifier then
          passedIn params (o.text ++ "." ++ target.childText .property) n
        else []
      | none => []
    | _ => []
  | _, _ => []

/-- What a function does with its parameters, in order. -/
def usesOf (fn : LocalFunction) : List Use :=
  match fn.node.functionBody? with
  | some body =>
    if fn.params.any (·.any (· != "")) then body.walk.flatMap (ofCall fn.params)
    else []
  | none => []

/-- A use that is about a parameter with the name of a setter. -/
def isAboutSetter (ctx : Context) (fn : LocalFunction) (position : Nat) :
    Bool :=
  isSetterParam ctx (fn.params[position]?.join)

/-- All functions of a set of files. -/
def functions (files : SourceSet) : List (Symbol × LocalFunction) :=
  files.flatMap fun (file, f) =>
    (LocalFunction.all f.root).map fun (name, fn) => (⟨file, name⟩, fn)

/-- The parameters that their functions call themselves. -/
def called (ctx : Context) (files : SourceSet) : List Parameter :=
  (functions files).flatMap fun (owner, fn) =>
    (usesOf fn).filterMap fun
      | .called p => if isAboutSetter ctx fn p then some ⟨owner, p⟩ else none
      | .passed _ _ _ => none

/-- The hand-offs between functions of a set of files. A function's hand-offs
to itself do not count. -/
def all (ctx : Context) (files : SourceSet) (t : ExportTable) : List HandOff :=
  (functions files).flatMap fun (owner, fn) =>
    (usesOf fn).filterMap fun
      | .called _ => none
      | .passed callee argument p =>
        if isAboutSetter ctx fn p then
          match ExportTable.callee? t owner.file callee with
          | some target =>
            if target = owner then none
            else some ⟨⟨owner, p⟩, ⟨target, argument⟩⟩
          | none => none
        else none

/-! ### Depths -/

/-- The greatest depth that is recorded. -/
def maxDepth : Nat := 5

/-- The known depths. -/
abbrev Depths := List (Parameter × Nat)

def depth? (d : Depths) (p : Parameter) : Option Nat :=
  (d.find? (·.1 == p)).map (·.2)

/-- Records the depth of a parameter. -/
def setDepth (d : Depths) (p : Parameter) (n : Nat) : Depths :=
  if d.any (·.1 == p) then d.map fun e => if e.1 == p then (p, n) else e
  else d ++ [(p, n)]

/-- Lets the source of a hand-off be one deeper than its target, if that is
less than it was. -/
def relax (d : Depths) (h : HandOff) : Depths :=
  match depth? d h.target with
  | none => d
  | some n =>
    if maxDepth ≤ n then d
    else
      match depth? d h.source with
      | none => setDepth d h.source (n + 1)
      | some old => if n + 1 < old then setDepth d h.source (n + 1) else d

/-- Relaxes all hand-offs again and again until a round changes nothing, at
most `rounds` times. -/
def relaxAll (handOffs : List HandOff) : (rounds : Nat) → Depths → Depths
  | 0, d => d
  | rounds + 1, d =>
    let d' := handOffs.foldl relax d
    if d' = d then d else relaxAll handOffs rounds d'

/-- The most rounds of relaxation. -/
def maxRounds : Nat := 20

/-- The depths of the parameters of a set of files. -/
def depths (ctx : Context) (files : SourceSet) (t : ExportTable) : Depths :=
  relaxAll (all ctx files t) maxRounds
    ((called ctx files).eraseDups.map fun p => (p, 1))

/-- The functions that call setters handed to them, with the positions and
their depths. -/
def takers (d : Depths) : List SetterTaker :=
  (d.map (·.1.owner)).eraseDups.map fun owner =>
    ⟨owner.file, owner.name,
      (d.filter (·.1.owner == owner)).map fun (p, n) => (p.position, n)⟩

end HandOff

end RenderLoop
