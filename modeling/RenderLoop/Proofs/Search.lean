import RenderLoop.Data.Search
import Mathlib.Logic.Relation

/-!
# The search meets exactly what can be reached

`Space.visit` lists a node iff steps lead to it from one of the nodes it
starts from (`Space.mem_visit`). The two halves are inductions along the
search:

> `mem_visitFrom_reaches`: what is listed is reached from a pending node.

> `closed_visitFrom`: nothing pending is missed, and no step leads out of the
> list except to a node that was seen before.

With nothing seen at the start the second one says that the list is closed
under steps, so it holds everything that can be reached.

The search keeps a list of nodes that it has seen and a list of nodes that are
pending. Neither statement is about the order in which it goes on. The space
is finite, which is what makes the search end; here it only has to be carried
along, as the proof that everything pending lies inside.

A search of this kind is used for the definitions behind exported names and
for the groups of files that import one another.
-/

namespace RenderLoop

namespace Space

open Relation (ReflTransGen)

variable {α : Type}

/-- One step of a space. -/
def Step (s : Space α) (a b : α) : Prop := b ∈ s.next a

/-- What is listed is reached from a pending node. -/
theorem mem_visitFrom_reaches [DecidableEq α] (s : Space α)
    (seen pending : List α) (h : ∀ a ∈ pending, s.Inside a) {a : α}
    (ha : a ∈ s.visitFrom seen pending h) :
    ∃ b ∈ pending, ReflTransGen s.Step b a := by
  fun_induction visitFrom s seen pending h with
  | case1 => cases ha
  | case2 seen b rest _ hs _ ih =>
    obtain ⟨c, hc, hr⟩ := ih ha
    exact ⟨c, List.mem_cons_of_mem _ hc, hr⟩
  | case3 seen b rest _ hs _ ih =>
    rcases List.mem_cons.1 ha with rfl | ha
    · exact ⟨a, List.mem_cons_self, .refl⟩
    · obtain ⟨c, hc, hr⟩ := ih ha
      rcases List.mem_append.1 hc with hc | hc
      · exact ⟨b, List.mem_cons_self, .head hc hr⟩
      · exact ⟨c, List.mem_cons_of_mem _ hc, hr⟩

/-- All pending nodes are listed or seen, and so is whatever a listed node
leads to. -/
theorem closed_visitFrom [DecidableEq α] (s : Space α) (seen pending : List α)
    (h : ∀ a ∈ pending, s.Inside a) :
    (∀ a ∈ pending, a ∈ seen ∨ a ∈ s.visitFrom seen pending h) ∧
      ∀ a ∈ s.visitFrom seen pending h, ∀ b, s.Step a b →
        b ∈ seen ∨ b ∈ s.visitFrom seen pending h := by
  fun_induction visitFrom s seen pending h with
  | case1 =>
    exact ⟨fun _ ha => absurd ha List.not_mem_nil,
      fun _ ha => absurd ha List.not_mem_nil⟩
  | case2 seen c rest _ hs _ ih =>
    obtain ⟨ihPending, ihStep⟩ := ih
    refine ⟨fun a ha => ?_, ihStep⟩
    rcases List.mem_cons.1 ha with rfl | ha
    · exact .inl hs
    · exact ihPending a ha
  | case3 seen c rest _ hs _ ih =>
    obtain ⟨ihPending, ihStep⟩ := ih
    -- what is in `c :: seen` for the rest of the search is seen, or is `c`
    -- itself
    have lift : ∀ {b : α} {found : List α}, b ∈ c :: seen ∨ b ∈ found →
        b ∈ seen ∨ b ∈ c :: found := by
      intro b found hb
      rcases hb with hb | hb
      · rcases List.mem_cons.1 hb with rfl | hb
        · exact .inr List.mem_cons_self
        · exact .inl hb
      · exact .inr (List.mem_cons_of_mem _ hb)
    constructor
    · intro a ha
      rcases List.mem_cons.1 ha with rfl | ha
      · exact .inr List.mem_cons_self
      · exact lift (ihPending a (List.mem_append_right _ ha))
    · intro a ha b hb
      rcases List.mem_cons.1 ha with rfl | ha
      · exact lift (ihPending b (List.mem_append_left _ hb))
      · exact lift (ihStep a ha b hb)

/-- The search lists exactly the nodes that steps lead to from the start. -/
theorem mem_visit [DecidableEq α] (s : Space α) {a : α} :
    a ∈ s.visit ↔ ∃ b ∈ s.start, ReflTransGen s.Step b a := by
  constructor
  · exact mem_visitFrom_reaches s [] s.start s.inside_of_start
  · rintro ⟨b, hb, hr⟩
    obtain ⟨hstart, hstep⟩ := closed_visitFrom s [] s.start s.inside_of_start
    have unseen : ∀ {c : α}, c ∈ [] ∨ c ∈ s.visit → c ∈ s.visit := fun hc =>
      hc.resolve_left (List.not_mem_nil)
    induction hr with
    | refl => exact unseen (hstart b hb)
    | tail _ hcd ih => exact unseen (hstep _ ih _ hcd)

end Space

end RenderLoop
