import RenderLoop.Update.Derivation
import RenderLoop.Proofs.Descent
import Mathlib.Logic.Relation

/-!
# Values that come from state

A value is derived from a state if one of the names in it is that state, or
leads to it from variable to variable. The search for such a name
(`Derivation.leadsTo`) drops a variable from its table once it has been
followed, so the table it works with is another one at every step. What can be
reached does not change by that:

> `reaches_cases`: a way that passes through a variable can be cut off behind
> the last time it leaves it, and the rest of the way does without that
> variable.

> `leadsTo_iff`: the search succeeds iff steps from variable to variable lead
> from a pending name to a wanted one.

> `Node.dependsOn_iff_reaches`: a value depends on a state iff a name
> somewhere inside it reaches a state.

Dropping what has been followed is what makes the search end. The proof that
it does no harm follows the search: a name that is not in the table leads
nowhere further, and for one that is, every way from it either stops there or
goes on from one of the names it is made from, without coming back.

> `dependsOn_iff_reaches`: so a value depends on a state iff a name somewhere
> inside of it reaches the state.

Names are taken wherever they stand in the value, in calls and in nested
functions as well.
-/

namespace RenderLoop

open Relation (ReflTransGen)

namespace Derivation

variable {origins : Table (List String)} {wanted : String → Bool}
  {name a b target : String}

/-- A variable is made from a name: one of its initial values mentions it. -/
def MadeFrom (origins : Table (List String)) (name ref : String) : Prop :=
  ∃ refs, origins.get? name = some refs ∧ ref ∈ refs

/-- Steps from variable to variable lead from a name to another one. -/
def Reaches (origins : Table (List String)) : String → String → Prop :=
  ReflTransGen (MadeFrom origins)

/-! ### Doing without a variable -/

theorem get?_without_self (origins : Table (List String)) (name : String) :
    (without origins name).get? name = none := by
  unfold without Table.get?
  rw [List.find?_filter]
  simp

theorem get?_without_of_ne (h : a ≠ name) :
    (without origins name).get? a = origins.get? a := by
  unfold without Table.get?
  rw [List.find?_filter]
  congr 2
  funext e
  by_cases he : e.1 = a
  · simp [he, h]
  · simp [he]

/-- Without a variable, no other one loses the names that it is made from. -/
theorem madeFrom_without_iff :
    MadeFrom (without origins name) a b ↔ a ≠ name ∧ MadeFrom origins a b := by
  unfold MadeFrom
  by_cases h : a = name
  · subst h
    simp [get?_without_self]
  · simp [get?_without_of_ne h, h]

/-- What is reached without a variable is reached with it. -/
theorem Reaches.of_without (h : Reaches (without origins name) a b) :
    Reaches origins a b :=
  ReflTransGen.mono (fun _ _ hstep => (madeFrom_without_iff.1 hstep).2) _ _ h

/-- A way either never leaves a variable, or it goes on without it from
something the variable is made from. -/
theorem reaches_cases (h : Reaches origins a b) (name : String) :
    Reaches (without origins name) a b ∨
      ∃ ref, MadeFrom origins name ref ∧
        Reaches (without origins name) ref b := by
  -- from the far end backwards, so that the first departure met is the last on
  -- the way
  induction h using ReflTransGen.head_induction_on with
  | refl => exact .inl .refl
  | @head a c hstep _ ih =>
    rcases ih with hrest | hlast
    · by_cases ha : a = name
      · subst ha
        exact .inr ⟨c, hstep, hrest⟩
      · exact .inl (hrest.head (madeFrom_without_iff.2 ⟨ha, hstep⟩))
    · exact .inr hlast

/-- Nothing but itself is reached from a name that is no variable. -/
theorem eq_of_reaches (h : Reaches origins name b)
    (hnone : origins.get? name = none) : b = name := by
  rcases h.cases_head with rfl | ⟨_, ⟨_, hrefs, _⟩, _⟩
  · rfl
  · rw [hnone] at hrefs
    cases hrefs

/-! ### The search -/

/-- A pending name that is not wanted and no variable can be left out. -/
theorem exists_reaches_cons_of_none (hname : ¬ wanted name = true)
    (hnone : origins.get? name = none) {rest : List String} :
    (∃ a ∈ name :: rest, ∃ b, Reaches origins a b ∧ wanted b = true) ↔
      ∃ a ∈ rest, ∃ b, Reaches origins a b ∧ wanted b = true := by
  constructor
  · rintro ⟨a, ha, b, hab, hb⟩
    rcases List.mem_cons.1 ha with rfl | ha
    · exact absurd (eq_of_reaches hab hnone ▸ hb) hname
    · exact ⟨a, ha, b, hab, hb⟩
  · rintro ⟨a, ha, found⟩
    exact ⟨a, List.mem_cons_of_mem _ ha, found⟩

/-- A pending variable that is not wanted can be replaced by what it is made
from, and is not needed again. -/
theorem exists_reaches_cons_of_some (hname : ¬ wanted name = true)
    {refs : List String} (hrefs : origins.get? name = some refs)
    {rest : List String} :
    (∃ a ∈ name :: rest, ∃ b, Reaches origins a b ∧ wanted b = true) ↔
      ∃ a ∈ refs ++ rest, ∃ b, Reaches (without origins name) a b ∧
        wanted b = true := by
  have hmade : ∀ {ref : String}, MadeFrom origins name ref ↔ ref ∈ refs := by
    simp [MadeFrom, hrefs]
  constructor
  · rintro ⟨a, ha, b, hab, hb⟩
    rcases reaches_cases hab name with hab | ⟨ref, href, hrb⟩
    · rcases List.mem_cons.1 ha with rfl | ha
      · exact absurd (eq_of_reaches hab (get?_without_self ..) ▸ hb) hname
      · exact ⟨a, List.mem_append_right _ ha, b, hab, hb⟩
    · exact ⟨ref, List.mem_append_left _ (hmade.1 href), b, hrb, hb⟩
  · rintro ⟨a, ha, b, hab, hb⟩
    rcases List.mem_append.1 ha with ha | ha
    · exact ⟨name, List.mem_cons_self, b, hab.of_without.head (hmade.2 ha), hb⟩
    · exact ⟨a, List.mem_cons_of_mem _ ha, b, hab.of_without, hb⟩

/-- The search succeeds iff a pending name reaches one that is wanted. -/
theorem leadsTo_iff (wanted : String → Bool) (origins : Table (List String))
    (pending : List String) :
    leadsTo wanted origins pending = true ↔
      ∃ a ∈ pending, ∃ b, Reaches origins a b ∧ wanted b = true := by
  fun_induction leadsTo wanted origins pending with
  | case1 => simp
  | case2 origins name rest hname =>
    exact iff_of_true rfl ⟨name, List.mem_cons_self, name, .refl, hname⟩
  | case3 origins name rest hname hnone ih =>
    rw [ih, exists_reaches_cons_of_none hname hnone]
  | case4 origins name rest hname refs hrefs ih =>
    rw [ih, exists_reaches_cons_of_some hname hrefs]

end Derivation

namespace Node

/-- A node is inside another one: the node itself, a child of it, a child of
that, and so on. -/
def Inside (n m : Node) : Prop := ReflTransGen (fun p c => c ∈ p.children) n m

/-- A walk meets exactly the nodes inside. -/
theorem mem_walk_iff_inside {n m : Node} : m ∈ n.walk ↔ n.Inside m := by
  constructor
  · intro hm
    induction hsize : n.size using Nat.strongRecOn generalizing n with
    | ind k ih =>
      rcases mem_walk_iff.1 hm with rfl | ⟨c, hc, hmc⟩
      · exact .refl
      · exact .head hc (ih c.size (hsize ▸ size_lt_of_mem_children hc) hmc rfl)
  · intro h
    induction h using ReflTransGen.head_induction_on with
    | refl => exact mem_walk_self m
    | head hc _ ih => exact mem_walk_iff.2 (.inr ⟨_, hc, ih⟩)

/-- A value depends on a state iff some identifier or shorthand property
inside it is the name of a state, or leads to one through variables, each made
from the next. -/
theorem dependsOn_iff_reaches (n : Node) (states : String → Bool)
    (origins : Table (List String)) :
    n.dependsOn states origins = true ↔
      ∃ m, n.Inside m ∧ (m.kind = .identifier ∨ m.kind = .shorthandProperty) ∧
        ∃ state, Derivation.Reaches origins m.text state ∧
          states state = true := by
  unfold dependsOn mentionedNames
  rw [Derivation.leadsTo_iff]
  constructor
  · rintro ⟨a, ha, found⟩
    obtain ⟨m, hm, rfl⟩ := List.mem_map.1 ha
    obtain ⟨hwalk, hkind⟩ := List.mem_filter.1 hm
    exact ⟨m, mem_walk_iff_inside.1 hwalk, by simpa using hkind, found⟩
  · rintro ⟨m, hinside, hkind, found⟩
    refine ⟨m.text, List.mem_map.2
      ⟨m, List.mem_filter.2 ⟨mem_walk_iff_inside.2 hinside, ?_⟩, rfl⟩, found⟩
    simpa using hkind

end Node

end RenderLoop
