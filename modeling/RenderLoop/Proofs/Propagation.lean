import RenderLoop.Update.Helper
import RenderLoop.Proofs.Names
import Mathlib.Data.List.Perm.Subperm
import Mathlib.Data.List.ProdSigma
import Mathlib.Data.Nat.Find
import Mathlib.Logic.Function.Iterate
import Mathlib.Logic.Relation

/-!
# Propagation along the call graph

A helper has setters of its own, at once and later, and each edge of the call
graph hands those of its target on to its source. `Derives` counts the edges
that a setter has come along.

> `mem_setters_relax`: what one visit of an edge adds.

> `Sound.round`: what a round records has come along some edges.

> `Covers.round`: if everything that comes along up to `k` edges is recorded,
> then after one more round everything that comes along up to `k + 1` edges
> is.

A setter is recorded twice for each helper, at once and later, so it may have
to come through the graph twice. A shortest way meets none of these places
again (`exists_short`), which is why `2 * names.length - 1` rounds are enough,
in whatever order the edges are visited (`mem_setters_propagate`).

Nothing here is about programs. The edges are given, and so are the setters
that each helper has of its own; which calls they come from is a matter of the
call graph.
-/

namespace RenderLoop

namespace Update

open Relation (ReflTransGen)

/-! ### Setters under a name -/

/-- A new entry replaces the setters of its helper only. -/
theorem settersIn_insert (t : Table (List String)) (name other : String)
    (found : List String) :
    settersIn (t.insert name found) other = if other = name then found
      else settersIn t other := by
  unfold settersIn
  rw [Table.get?_insert]
  by_cases h : other = name
  · rw [if_pos h, if_pos h]
    rfl
  · rw [if_neg h, if_neg h]

/-- What a helper gains is added to what it had. -/
theorem mem_settersIn_gain {t : Table (List String)} {name other s : String}
    {found : List String} :
    s ∈ settersIn (gain t name found) other ↔ s ∈ settersIn t other ∨
      other = name ∧ s ∈ found := by
  have hnew : s ∈ found.eraseDups.filter
      (fun x => !(settersIn t name).contains x) ↔
      s ∈ found ∧ s ∉ settersIn t name := by
    rw [List.mem_filter, List.mem_eraseDups]
    simp
  unfold gain
  simp only
  split
  · next hnone =>
    -- nothing is new, so what is found is there already
    have hold : s ∈ found → s ∈ settersIn t name := by
      intro hs
      by_contra habsent
      have hmem := hnew.2 ⟨hs, habsent⟩
      rw [List.isEmpty_iff.1 hnone] at hmem
      cases hmem
    constructor
    · exact .inl
    · intro hcases
      rcases hcases with h | ⟨rfl, h⟩
      · exact h
      · exact hold h
  · show s ∈ settersIn (t.insert name (settersIn t name ++ _)) other ↔ _
    rw [settersIn_insert]
    by_cases h : other = name
    · subst h
      rw [if_pos rfl, List.mem_append, hnew]
      by_cases hs : s ∈ settersIn t other
      · simp [hs]
      · simp [hs]
    · simp [h]

/-- The setters recorded for a helper, those it reaches at once or those it
reaches later. -/
def Reach.setters (r : Reach) (later : Bool) (name : String) : List String :=
  settersIn (if later then r.later else r.now) name

/-- A visit of an edge adds to its source what its target has, and makes it
later if the edge is deferred. -/
theorem mem_setters_relax {r : Reach} {e : CallEdge} {later : Bool}
    {name s : String} :
    s ∈ (r.relax e).setters later name ↔
      s ∈ r.setters later name ∨
        name = e.source ∧ ∃ before, later = (before || e.deferred) ∧
          s ∈ r.setters before e.target := by
  unfold Reach.relax Reach.setters
  cases hdeferred : e.deferred with
  | true =>
    cases later with
    | false => simp
    | true =>
      show s ∈ settersIn (gain _ _ _) _ ↔ _
      rw [mem_settersIn_gain, List.mem_append]
      simp
  | false =>
    cases later with
    | false =>
      show s ∈ settersIn (gain _ _ _) _ ↔ _
      rw [mem_settersIn_gain]
      simp
    | true =>
      show s ∈ settersIn (gain _ _ _) _ ↔ _
      rw [mem_settersIn_gain]
      simp

/-- Where no helper has two entries, its setters are those of its entry. -/
theorem mem_settersIn {t : Table (List String)} (ht : t.names.Nodup)
    {name s : String} :
    s ∈ settersIn t name ↔ ∃ found, (name, found) ∈ t ∧ s ∈ found := by
  unfold settersIn
  constructor
  · intro hs
    cases hfound : t.get? name with
    | none =>
      rw [hfound] at hs
      cases hs
    | some found =>
      rw [hfound] at hs
      exact ⟨found, Table.mem_of_get? hfound, hs⟩
  · intro hex
    obtain ⟨found, hfound, hs⟩ := hex
    rw [(Table.get?_eq_some_iff ht).2 hfound]
    exact hs

/-- Leaving out the helpers without setters loses no setter. -/
theorem mem_settersIn_filter {t : Table (List String)} (ht : t.names.Nodup)
    {name s : String} :
    s ∈ settersIn (t.filter fun e => !e.2.isEmpty) name ↔
      s ∈ settersIn t name := by
  have hsub : (Table.names (t.filter fun e => !e.2.isEmpty)).Nodup :=
    ht.sublist (List.filter_sublist.map _)
  rw [mem_settersIn hsub, mem_settersIn ht]
  refine exists_congr fun found => ?_
  rw [List.mem_filter]
  constructor
  · intro hex
    obtain ⟨⟨hfound, -⟩, hs⟩ := hex
    exact ⟨hfound, hs⟩
  · intro hex
    obtain ⟨hfound, hs⟩ := hex
    refine ⟨⟨hfound, ?_⟩, hs⟩
    simpa using List.ne_nil_of_mem hs

/-! ### The ways a setter comes along -/

/-- A setter comes to a helper along `k` edges from a helper that has it of
its own. It is later as soon as it was so at the beginning or one of the edges
is deferred. -/
inductive Derives (edges : List CallEdge) (start : Reach) (s : String) :
    Nat → Bool → String → Prop where
  | own {later : Bool} {name : String} (h : s ∈ start.setters later name) :
    Derives edges start s 0 later name
  | along {k : Nat} {before : Bool} {e : CallEdge} (he : e ∈ edges)
      (h : Derives edges start s k before e.target) :
    Derives edges start s (k + 1) (before || e.deferred) e.source

section

variable {edges : List CallEdge} {start r : Reach} {s : String}

/-- A round of visits. -/
def Reach.round (edges : List CallEdge) (r : Reach) : Reach :=
  edges.foldl relax r

/-- No visit takes a setter away. -/
theorem setters_subset_foldl (l : List CallEdge) (r : Reach) (later : Bool)
    (name : String) :
    r.setters later name ⊆ (l.foldl Reach.relax r).setters later name := by
  induction l generalizing r with
  | nil => exact List.Subset.refl _
  | cons e l ih =>
    intro s hs
    rw [List.foldl_cons]
    exact ih _ (mem_setters_relax.2 (.inl hs))

/-- After a round every source has what its target had before. -/
theorem mem_setters_round {e : CallEdge} (he : e ∈ edges) {before : Bool}
    (hs : s ∈ r.setters before e.target) :
    s ∈ (r.round edges).setters (before || e.deferred) e.source := by
  unfold Reach.round
  induction edges generalizing r with
  | nil => cases he
  | cons first l ih =>
    rw [List.foldl_cons]
    by_cases hfirst : e = first
    · subst hfirst
      apply setters_subset_foldl
      exact mem_setters_relax.2 (.inr ⟨rfl, before, rfl, hs⟩)
    · have hl : e ∈ l := (List.mem_cons.1 he).resolve_left hfirst
      exact ih hl (mem_setters_relax.2 (.inl hs))

/-- Whatever is recorded has come along some edges. -/
def Sound (edges : List CallEdge) (start r : Reach) : Prop :=
  ∀ later name, ∀ s ∈ r.setters later name,
    ∃ k, Derives edges start s k later name

/-- Everything that comes along up to `k` edges is recorded. -/
def Covers (edges : List CallEdge) (start : Reach) (k : Nat) (r : Reach) :
    Prop :=
  ∀ s later name, ∀ j ≤ k, Derives edges start s j later name →
    s ∈ r.setters later name

/-- A visit of an edge records nothing that has not come along edges. -/
theorem Sound.relax {e : CallEdge} (hr : Sound edges start r) (he : e ∈ edges) :
    Sound edges start (r.relax e) := by
  intro later name s hs
  rcases mem_setters_relax.1 hs with hold | ⟨rfl, before, rfl, hnew⟩
  · exact hr later name s hold
  · obtain ⟨k, hk⟩ := hr before e.target s hnew
    exact ⟨k + 1, .along he hk⟩

/-- So neither does a round. -/
theorem Sound.round (hr : Sound edges start r) :
    Sound edges start (r.round edges) := by
  have hfold : ∀ l ⊆ edges, ∀ r, Sound edges start r →
      Sound edges start (l.foldl Reach.relax r) := by
    intro l
    induction l with
    | nil =>
      intro _ r hr
      exact hr
    | cons e l ih =>
      intro hsub r hr
      obtain ⟨he, hl⟩ := List.cons_subset.1 hsub
      exact ih hl _ (hr.relax he)
  exact hfold edges (List.Subset.refl edges) r hr

/-- A round takes everything one edge further. -/
theorem Covers.round {k : Nat} (hr : Covers edges start k r) :
    Covers edges start (k + 1) (r.round edges) := by
  intro s later name j hj hderives
  cases hderives with
  | own h =>
    apply setters_subset_foldl
    exact hr s later name 0 (Nat.zero_le k) (.own h)
  | along he h => exact mem_setters_round he (hr s _ _ _ (by omega) h)

/-- After `k` rounds everything that comes along up to `k` edges is recorded,
and nothing else is. -/
theorem sound_covers_iterate (edges : List CallEdge) (start : Reach) (k : Nat) :
    Sound edges start ((Reach.round edges)^[k] start) ∧
      Covers edges start k ((Reach.round edges)^[k] start) := by
  induction k with
  | zero =>
    constructor
    · intro later name s hs
      exact ⟨0, .own hs⟩
    · intro s later name j hj hderives
      obtain rfl : j = 0 := by omega
      cases hderives with
      | own h => exact h
  | succ k ih =>
    rw [Function.iterate_succ_apply']
    exact ⟨ih.1.round, ih.2.round⟩

/-- Stopping after a round without change is as good as going on. -/
theorem propagate_eq_iterate (edges : List CallEdge) (rounds : Nat)
    (r : Reach) :
    r.propagate edges rounds = (Reach.round edges)^[rounds] r := by
  induction rounds generalizing r with
  | zero => rfl
  | succ rounds ih =>
    rw [Reach.propagate, Function.iterate_succ_apply]
    show (if r.round edges = r then r
      else (r.round edges).propagate edges rounds) = _
    by_cases hsame : r.round edges = r
    · rw [if_pos hsame, hsame, Function.iterate_fixed hsame]
    · rw [if_neg hsame, ih]

/-- What is recorded in the end has come along edges, however many rounds
there are. -/
theorem sound_propagate (edges : List CallEdge) (rounds : Nat) (start : Reach) :
    Sound edges start (start.propagate edges rounds) := by
  rw [propagate_eq_iterate]
  exact (sound_covers_iterate edges start rounds).1

/-! ### One entry for each helper -/

/-- No helper has two entries. -/
structure Tidy (r : Reach) : Prop where
  now : r.now.names.Nodup
  later : r.later.names.Nodup

theorem nodup_names_gain {t : Table (List String)} (ht : t.names.Nodup)
    (name : String) (found : List String) :
    (gain t name found).names.Nodup := by
  unfold gain
  simp only
  split
  · exact ht
  · exact Table.nodup_names_insert ht _

theorem Tidy.relax {r : Reach} (hr : Tidy r) (e : CallEdge) :
    Tidy (r.relax e) := by
  unfold Reach.relax
  simp only
  split
  · exact ⟨hr.now, nodup_names_gain hr.later _ _⟩
  · exact ⟨nodup_names_gain hr.now _ _, nodup_names_gain hr.later _ _⟩

/-- Propagation makes no second entry for a helper. -/
theorem Tidy.propagate {r : Reach} (hr : Tidy r) (edges : List CallEdge)
    (rounds : Nat) :
    Tidy (r.propagate edges rounds) := by
  have hfold : ∀ (l : List CallEdge) (r : Reach), Tidy r →
      Tidy (l.foldl Reach.relax r) := by
    intro l
    induction l with
    | nil =>
      intro r hr
      exact hr
    | cons e l ih =>
      intro r hr
      exact ih _ (hr.relax e)
  induction rounds generalizing r with
  | zero => exact hr
  | succ rounds ih =>
    rw [Reach.propagate]
    split
    · exact hr
    · exact ih (hfold edges r hr)

/-- Putting the edges in order loses none, if every helper that an edge starts
from is named. -/
theorem mem_inVisitingOrder {names : List String} {edges : List CallEdge}
    (h : ∀ e ∈ edges, e.source ∈ names) {e : CallEdge} :
    e ∈ inVisitingOrder names edges ↔ e ∈ edges := by
  unfold inVisitingOrder
  simp only [List.mem_flatMap, List.mem_eraseDups, List.mem_filter]
  constructor
  · intro hex
    obtain ⟨-, -, he, -⟩ := hex
    exact he
  · intro he
    exact ⟨e.source, ⟨e.source, h e he, List.mem_cons_self⟩, he, by simp⟩

/-! ### Shortest ways -/

/-- A way that cannot be shortened meets no place twice, so it is shorter than
there are places. -/
theorem exists_places {names : List String}
    (hedges : ∀ e ∈ edges, e.source ∈ names ∧ e.target ∈ names)
    {k : Nat} {later : Bool} {name : String}
    (h : Derives edges start s k later name)
    (hname : name ∈ names)
    (hleast : ∀ j < k, ¬ Derives edges start s j later name) :
    ∃ places : List (Bool × String), places.length = k + 1 ∧ places.Nodup ∧
      places ⊆ [false, true] ×ˢ names ∧
      ∀ p ∈ places, ∃ j ≤ k, Derives edges start s j p.1 p.2 := by
  induction h with
  | @own later name h =>
    refine ⟨[(later, name)], rfl, by simp, ?_, ?_⟩
    · intro p hp
      obtain rfl := List.mem_singleton.1 hp
      exact List.mem_product.2 ⟨by cases later <;> simp, hname⟩
    · intro p hp
      obtain rfl := List.mem_singleton.1 hp
      exact ⟨0, Nat.le_refl 0, .own h⟩
  | @along k before e he h ih =>
    -- a shorter way to the target would be continued by the edge
    have hshort : ∀ j < k, ¬ Derives edges start s j before e.target := by
      intro j hj hd
      exact hleast (j + 1) (by omega) (.along he hd)
    obtain ⟨places, hlength, hnodup, hsub, hmet⟩ := ih (hedges e he).2 hshort
    have hfresh : (before || e.deferred, e.source) ∉ places := by
      intro hmem
      obtain ⟨j, hj, hd⟩ := hmet _ hmem
      exact hleast j (by omega) hd
    refine ⟨(before || e.deferred, e.source) :: places, ?_, ?_, ?_, ?_⟩
    · rw [List.length_cons, hlength]
    · exact List.nodup_cons.2 ⟨hfresh, hnodup⟩
    · refine List.cons_subset.2 ⟨List.mem_product.2 ⟨?_, hname⟩, hsub⟩
      cases before || e.deferred <;> simp
    · intro p hp
      rcases List.mem_cons.1 hp with rfl | hp
      · exact ⟨k + 1, Nat.le_refl _, .along he h⟩
      · obtain ⟨j, hj, hd⟩ := hmet p hp
        exact ⟨j, by omega, hd⟩

/-- What comes along some edges comes along fewer than twice as many as there
are helpers. -/
theorem exists_short {names : List String}
    (hedges : ∀ e ∈ edges, e.source ∈ names ∧ e.target ∈ names)
    {k : Nat} {later : Bool} {name : String} (hname : name ∈ names)
    (h : Derives edges start s k later name) :
    ∃ j < 2 * names.length, Derives edges start s j later name := by
  classical
  have hex : ∃ k, Derives edges start s k later name := ⟨k, h⟩
  have hleast : ∀ j < Nat.find hex, ¬ Derives edges start s j later name := by
    intro j hj
    exact Nat.find_min hex hj
  obtain ⟨places, hlength, hnodup, hsub, -⟩ :=
    exists_places hedges (Nat.find_spec hex) hname hleast
  have hle := (List.subperm_of_subset hnodup hsub).length_le
  rw [hlength, List.length_product] at hle
  exact ⟨Nat.find hex, hle, Nat.find_spec hex⟩

/-- With rounds enough for the number of helpers, propagation records exactly
what comes along the edges. -/
theorem mem_setters_propagate {names : List String}
    (hedges : ∀ e ∈ edges, e.source ∈ names ∧ e.target ∈ names) {rounds : Nat}
    (hrounds : 2 * names.length ≤ rounds + 1) {later : Bool} {name : String}
    (hname : name ∈ names) :
    s ∈ (start.propagate edges rounds).setters later name ↔
      ∃ k, Derives edges start s k later name := by
  rw [propagate_eq_iterate]
  obtain ⟨hsound, hcovers⟩ := sound_covers_iterate edges start rounds
  constructor
  · intro hs
    exact hsound later name s hs
  · intro hex
    obtain ⟨k, hk⟩ := hex
    obtain ⟨j, hj, hd⟩ := exists_short hedges hname hk
    exact hcovers s later name j (by omega) hd

end

/-! ### Paths -/

/-- An edge of either kind leads from one helper to another. -/
def Leads (edges : List CallEdge) (f g : String) : Prop :=
  ∃ deferred, ⟨f, g, deferred⟩ ∈ edges

/-- A path of edges none of which is deferred. -/
def PathNow (edges : List CallEdge) : String → String → Prop :=
  ReflTransGen fun f g => ⟨f, g, false⟩ ∈ edges

/-- A path of edges of either kind. -/
def PathAny (edges : List CallEdge) : String → String → Prop :=
  ReflTransGen (Leads edges)

/-- A path with at least one deferred edge. -/
def PathLater (edges : List CallEdge) (f g : String) : Prop :=
  ∃ a b, PathAny edges f a ∧ ⟨a, b, true⟩ ∈ edges ∧ PathAny edges b g

section

variable {edges : List CallEdge} {start : Reach} {s : String}

/-- Paths do not depend on the order in which the edges are listed. -/
theorem paths_congr {edges' : List CallEdge} (h : ∀ e, e ∈ edges ↔ e ∈ edges') :
    PathNow edges = PathNow edges' ∧ PathAny edges = PathAny edges' := by
  unfold PathNow PathAny Leads
  simp only [h, and_self]

theorem PathNow.path {f g : String} (h : PathNow edges f g) :
    PathAny edges f g :=
  ReflTransGen.mono (fun _ _ hedge => ⟨false, hedge⟩) f g h

theorem leads_of_mem {e : CallEdge} (he : e ∈ edges) :
    Leads edges e.source e.target :=
  ⟨e.deferred, he⟩

/-- A deferred edge is still there when the path begins earlier. -/
theorem PathLater.head {f g h : String} (hfg : Leads edges f g)
    (hgh : PathLater edges g h) :
    PathLater edges f h := by
  obtain ⟨a, b, hga, hab, hbh⟩ := hgh
  exact ⟨a, b, .head hfg hga, hab, hbh⟩

/-- A setter comes at once along a path without deferred edges. -/
theorem derives_now_iff {f : String} :
    (∃ k, Derives edges start s k false f) ↔
      ∃ g, PathNow edges f g ∧ s ∈ start.setters false g := by
  constructor
  · intro hex
    obtain ⟨k, hk⟩ := hex
    have hpath : ∀ {k later f}, Derives edges start s k later f →
        later = false → ∃ g, PathNow edges f g ∧ s ∈ start.setters false g := by
      intro k later f hd
      induction hd with
      | @own later name h =>
        rintro rfl
        exact ⟨name, .refl, h⟩
      | @along k before e he hd ih =>
        intro hnow
        obtain ⟨hbefore, hdeferred⟩ := Bool.or_eq_false_iff.1 hnow
        obtain ⟨g, hpath, hg⟩ := ih hbefore
        have hedge : ⟨e.source, e.target, false⟩ ∈ edges := by
          rw [← hdeferred]
          exact he
        exact ⟨g, .head hedge hpath, hg⟩
    exact hpath hk rfl
  · intro hex
    obtain ⟨g, hpath, hg⟩ := hex
    induction hpath using ReflTransGen.head_induction_on with
    | refl => exact ⟨0, .own hg⟩
    | head hedge _ ih =>
      obtain ⟨k, hk⟩ := ih
      exact ⟨k + 1, .along hedge hk⟩

/-- What comes to the end of a path comes to its beginning, and is later if it
was so before. -/
theorem PathAny.derives_later {f g : String} (hpath : PathAny edges f g)
    (hg : ∃ k, Derives edges start s k true g) :
    ∃ k, Derives edges start s k true f := by
  induction hpath using ReflTransGen.head_induction_on with
  | refl => exact hg
  | head hleads _ ih =>
    obtain ⟨deferred, hedge⟩ := hleads
    obtain ⟨k, hk⟩ := ih
    exact ⟨k + 1, .along hedge hk⟩

/-- What a helper has of its own comes along every path that ends there. -/
theorem PathAny.derives {f g : String} (hpath : PathAny edges f g)
    (hg : s ∈ start.setters false g) :
    ∃ k later, Derives edges start s k later f := by
  induction hpath using ReflTransGen.head_induction_on with
  | refl => exact ⟨0, false, .own hg⟩
  | head hleads _ ih =>
    obtain ⟨deferred, hedge⟩ := hleads
    obtain ⟨k, later, hk⟩ := ih
    exact ⟨k + 1, _, .along hedge hk⟩

/-- A setter comes later along any path from a helper that sets it later, and
along a path with a deferred edge from a helper that sets it at once. -/
theorem derives_later_iff {f : String} :
    (∃ k, Derives edges start s k true f) ↔
      (∃ g, PathAny edges f g ∧ s ∈ start.setters true g) ∨
        ∃ g, PathLater edges f g ∧ s ∈ start.setters false g := by
  constructor
  · intro hex
    obtain ⟨k, hk⟩ := hex
    have hpath : ∀ {k later f}, Derives edges start s k later f → later = true →
        (∃ g, PathAny edges f g ∧ s ∈ start.setters true g) ∨
          ∃ g, PathLater edges f g ∧ s ∈ start.setters false g := by
      intro k later f hd
      induction hd with
      | @own later name h =>
        rintro rfl
        exact .inl ⟨name, .refl, h⟩
      | @along k before e he hd ih =>
        intro hlater
        by_cases hbefore : before = true
        · rcases ih hbefore with ⟨g, hpath, hg⟩ | ⟨g, hpath, hg⟩
          · exact .inl ⟨g, .head (leads_of_mem he) hpath, hg⟩
          · exact .inr ⟨g, hpath.head (leads_of_mem he), hg⟩
        · -- the setter was at once up to here, so this is the first deferred
          -- edge
          rw [Bool.not_eq_true] at hbefore
          subst hbefore
          have hedge : ⟨e.source, e.target, true⟩ ∈ edges := by
            rw [← show e.deferred = true from hlater]
            exact he
          obtain ⟨g, hpath, hg⟩ := derives_now_iff.1 ⟨k, hd⟩
          exact .inr ⟨g, ⟨e.source, e.target, .refl, hedge, hpath.path⟩, hg⟩
    exact hpath hk rfl
  · intro hcases
    rcases hcases with ⟨g, hpath, hg⟩ | ⟨g, ⟨a, b, hfa, hab, hbg⟩, hg⟩
    · exact hpath.derives_later ⟨0, .own hg⟩
    · obtain ⟨k, later, hk⟩ := hbg.derives hg
      have hhere : Derives edges start s (k + 1) (later || true) a :=
        .along hab hk
      rw [Bool.or_true] at hhere
      exact hfa.derives_later ⟨k + 1, hhere⟩

end

end Update

end RenderLoop
