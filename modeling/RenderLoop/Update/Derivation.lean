import RenderLoop.Tree.Walk
import RenderLoop.Data.Table

/-!
# Values derived from state

A value depends on a state if it mentions it, or mentions a variable whose
initial values do, and so on. Names are followed through the variables of the
file; a variable is followed once, since what it leads to is known after that,
so cycles do no harm.
-/

namespace RenderLoop

namespace Derivation

/-- The table without a name. -/
def without (origins : Table (List String)) (name : String) :
    Table (List String) :=
  origins.filter fun e => e.1 != name

/-- Following a variable makes the table shorter, so the search ends. -/
theorem length_without_lt {origins : Table (List String)} {name : String}
    {refs : List String} (h : origins.get? name = some refs) :
    (without origins name).length < origins.length := by
  unfold Table.get? at h
  obtain ⟨e, he, -⟩ := Option.map_eq_some_iff.1 h
  refine List.length_filter_lt_length_iff_exists.2
    ⟨e, List.mem_of_find?_eq_some he, ?_⟩
  simpa using List.find?_some he

/-- Whether one of the pending names is wanted or leads to a wanted name. -/
def leadsTo (wanted : String → Bool) (origins : Table (List String)) :
    List String → Bool
  | [] => false
  | name :: rest =>
    if wanted name then true
    else
      match _h : origins.get? name with
      | none => leadsTo wanted origins rest
      | some refs => leadsTo wanted (without origins name) (refs ++ rest)
termination_by pending => (origins.length, pending.length)
decreasing_by
  · exact Prod.Lex.right _ (by simp)
  · exact Prod.Lex.left _ _ (length_without_lt _h)

end Derivation

/-- The names a value mentions, shorthand properties included. -/
def Node.mentionedNames (n : Node) : List String :=
  (n.walk.filter fun m => m.kind == .identifier || m.kind ==
    .shorthandProperty).map (·.text)

/-- Whether a value depends on a state. -/
def Node.dependsOn (n : Node) (states : String → Bool)
    (origins : Table (List String)) : Bool :=
  Derivation.leadsTo states origins n.mentionedNames

end RenderLoop
