import RenderLoop.Expr.Binding
import RenderLoop.Proofs.InnermostComponent

/-!
# What a pattern binds

A destructuring pattern is a name, a list of patterns, or a phrase with one
pattern in it and something beside the pattern that binds nothing: a property
with its key, a pattern with a default value, a parameter with its type
(`Tree.IsPattern`). The names beside a pattern are only read when it is
matched, those in it are bound.

`Node.leaves` picks the bound names out of the walk of a pattern, by what they
do not stand in: no key, no default value, nothing around the pattern of a
parameter. `Node.boundNames` takes the opposite way and follows the roles of
patterns from phrase to phrase.

> `Tree.IsPattern.boundNames_eq`: both arrive at the same names.

> `Node.boundNames_of_isPattern`: so a pattern's names are listed as often as
> they are bound, in the order of the source, and none that is only read.

The two directions meet in an induction over the pattern. At a name both give
the name; at a list both go through the members; at a phrase with something
beside its pattern one leaves the rest out because it stands aside, and the
other because it has another role. What is assumed about a tree is only that
it is a pattern as the grammar has them, and for the order that its parts
stand one behind the other.
-/

namespace RenderLoop

/-- A list that is empty for all elements but one. -/
theorem flatMap_of_only {α β : Type} {f : α → List β}
    {before after : List α} {a : α} (h : ∀ b ∈ before ++ after, f b = []) :
    (before ++ a :: after).flatMap f = f a := by
  obtain ⟨hbefore, hafter⟩ := List.forall_mem_append.1 h
  rw [List.flatMap_append, List.flatMap_cons, List.flatMap_eq_nil_iff.2 hbefore,
    List.flatMap_eq_nil_iff.2 hafter, List.append_nil, List.nil_append]

/-! ### Patterns -/

namespace Kind

/-- A name that can be bound. -/
def isName : Kind → Bool
  | identifier | shorthandPattern => .true
  | _ => .false

/-- A pattern that is a list of patterns. -/
def isPatternList : Kind → Bool
  | arrayPattern | objectPattern | restPattern => .true
  | _ => .false

/-- A phrase with a role for a pattern and one for something beside it. -/
inductive Pairs : Kind → Field → Field → Prop
  | property : Pairs .pairPattern .value .key
  | default : Pairs .assignmentPattern .left .right
  | propertyDefault : Pairs .objectAssignmentPattern .left .right

/-- The kinds of patterns, names included. -/
def isPattern : Kind → Bool
  | pairPattern | assignmentPattern | objectAssignmentPattern => .true
  | kind => kind.isName || kind.isPatternList || kind.isParameter

variable {k : Kind} {role beside : Field}

theorem Pairs.ne (h : Pairs k role beside) :
    role ≠ beside := by cases h <;> decide

theorem Pairs.isName_eq_false (h : Pairs k role beside) :
    k.isName = .false := by cases h <;> rfl

theorem isName_of_isPatternList (h : k.isPatternList = .true) :
    k.isName = .false := by
  cases k <;> simp_all [isPatternList, isName]

theorem isName_of_isParameter (h : k.isParameter = .true) :
    k.isName = .false := by
  cases k <;> simp_all [isParameter, isName]

end Kind

namespace Tree

/-- A token or a comment, with nothing below it. -/
def IsFiller (t : Tree) : Prop := t.isPart = false ∧ t.children = []

instance (t : Tree) : Decidable t.IsFiller :=
  inferInstanceAs (Decidable (_ ∧ _))

/-- A destructuring pattern. Around the pattern of a parameter stand its type,
decorators and modifiers, none of which is of a pattern's kind. A default
value may be, if it is a name, and a parameter with such a value is left
out. -/
inductive IsPattern : Tree → Prop
  | name {l : Label} (hnamed : l.named = true) (hkind : l.kind.isName = true) :
      IsPattern (node l [])
  | list {l : Label} {cs : List Tree} (hkind : l.kind.isPatternList = true)
      (hfiller : ∀ t ∈ cs, t.isPart = false → t.children = [])
      (h : ∀ t ∈ cs, t.isPart = true → IsPattern t) :
      IsPattern (node l cs)
  | pair {l : Label} {role beside : Field} {before after : List Tree} {t : Tree}
      (hkind : Kind.Pairs l.kind role beside)
      (hrole : t.label.field = some role) (h : IsPattern t)
      (hbeside : ∀ u ∈ before ++ after,
        u.label.field = some beside ∨ u.IsFiller)
      (honly : ∀ u ∈ before ++ after, u.label.field ≠ some role) :
        IsPattern (node l (before ++ t :: after))
  | parameter {l : Label} {before after : List Tree} {t : Tree}
      (hkind : l.kind.isParameter = true)
      (hrole : t.label.field = some .pattern) (hpart : t.isPart = true)
      (h : IsPattern t)
      (hbeside : ∀ u ∈ before ++ after, u.isPart = true →
        u.label.kind.isPattern = false)
      (honly : ∀ u ∈ before ++ after, u.label.field ≠ some .pattern) :
        IsPattern (node l (before ++ t :: after))

section

variable {l : Label} (cs : List Tree)

/-- A list of patterns binds what its parts bind, one after another. -/
theorem boundInParts_eq : boundInParts cs = cs.flatMap fun t =>
  if t.isPart then t.boundNames else [] := by
  induction cs with
  | nil => rw [boundInParts]; rfl
  | cons t ts ih => rw [boundInParts, ih, List.flatMap_cons]

/-- What is bound at a role is bound by the one child that has the role. -/
theorem boundAt_append {f : Field} {before : List Tree}
    (h : ∀ u ∈ before, u.label.field ≠ some f) {t : Tree}
    (ht : t.label.field = some f) (after : List Tree) :
    boundAt f (before ++ t :: after) = t.boundNames := by
  induction before with
  | nil => simp [boundAt, ht]
  | cons u before ih =>
    rw [List.forall_mem_cons] at h
    rw [List.cons_append, boundAt, if_neg (by simpa using h.1), ih h.2]

/-- A name binds itself. -/
theorem boundNames_of_isName (h : l.kind.isName = true) :
    (node l cs).boundNames = [l.text] := by
  rw [boundNames]
  split <;> simp_all [Kind.isName]

/-- A list of patterns binds what its members bind. -/
theorem boundNames_of_isPatternList (h : l.kind.isPatternList = true) :
    (node l cs).boundNames = cs.flatMap fun t =>
      if t.isPart then t.boundNames else [] := by
  rw [← boundInParts_eq, boundNames]
  split <;> simp_all [Kind.isPatternList]

/-- A parameter binds what stands in it. -/
theorem boundNames_of_isParameter (h : l.kind.isParameter = true) :
    (node l cs).boundNames = cs.flatMap fun t =>
      if t.isPart then t.boundNames else [] := by
  rw [← boundInParts_eq, boundNames]
  split <;> simp_all [Kind.isParameter]

/-- Of the two parts of a phrase only the pattern binds anything. -/
theorem boundNames_of_pairs {role beside : Field}
    (h : Kind.Pairs l.kind role beside) :
    (node l cs).boundNames = boundAt role cs := by
  rw [boundNames]
  generalize l.kind = k at h
  cases h <;> rfl

/-- What is no pattern binds nothing. -/
theorem boundNames_of_not_isPattern {t : Tree}
    (h : t.label.kind.isPattern = false) : t.boundNames = [] := by
  obtain ⟨l, cs⟩ := t
  rw [boundNames]
  split <;> simp_all [Tree.label, Kind.isPattern, Kind.isName,
    Kind.isPatternList, Kind.isParameter]

end

end Tree

/-! ### Leaves -/

namespace Node

/-- A name, as opposed to a keyword. -/
def IsName (n : Node) : Prop := n.isNamed = true ∧ n.kind.isName = true

/-- A child in which nothing is bound: the key of a property, a default value,
and whatever stands around the pattern of a parameter. -/
def BindsNothing (c parent : Node) : Prop :=
  parent.kind = .pairPattern ∧ c.label.field = some .key ∨
    (parent.kind = .assignmentPattern ∨
      parent.kind = .objectAssignmentPattern) ∧ c.label.field = some .right ∨
    parent.kind.isParameter = true ∧ c.label.field ≠ some .pattern

instance (c parent : Node) : Decidable (BindsNothing c parent) :=
  inferInstanceAs (Decidable (_ ∨ _ ∨ _))

/-- A node of a pattern stands in such a child. -/
def Aside (pattern n : Node) : Prop :=
  ∃ parent ∈ pattern.walk, ∃ c ∈ parent.children,
    BindsNothing c parent ∧ n ∈ c.walk

/-- A node of a pattern is a name that the pattern binds. -/
def IsLeaf (pattern n : Node) : Prop := n.IsName ∧ ¬ Aside pattern n

noncomputable instance (pattern : Node) : DecidablePred (IsLeaf pattern) :=
  fun _ => Classical.propDecidable _

/-- The names that a pattern binds, where they stand. -/
noncomputable def leaves (pattern : Node) : List Node :=
  pattern.walk.filter (IsLeaf pattern)

variable {top c n : Node} {before after : List Tree} {t : Tree}

theorem not_isName (h : n.kind.isName = false) : ¬ n.IsName :=
  fun hname => absurd (h.symm.trans hname.2) Bool.false_ne_true

/-- A node stands aside if the child it is in binds nothing, or if it stands
aside in the child. -/
theorem aside_of_mem_children (hc : c ∈ top.children) (hn : n ∈ c.walk) :
    Aside top n ↔ BindsNothing c top ∨ Aside c n := by
  constructor
  · rintro ⟨parent, hparent, g, hg, hbinds, hng⟩
    rcases mem_walk_of_below hc hn hparent (mem_walk_iff.2 (.inr ⟨g, hg, hng⟩))
      with rfl | hparent
    · obtain rfl := eq_of_mem_walk hg hc hng hn
      exact .inl hbinds
    · exact .inr ⟨parent, hparent, g, hg, hbinds, hng⟩
  · rintro (hbinds | ⟨parent, hparent, hrest⟩)
    · exact ⟨top, top.mem_walk_self, c, hc, hbinds, hn⟩
    · exact ⟨parent, mem_walk_iff.2 (.inr ⟨c, hc, hparent⟩), hrest⟩

/-- The leaves of anything but a name are those of its children, as far as
names are bound there. -/
theorem leaves_of_not_isName (h : ¬ top.IsName) :
    top.leaves = top.children.flatMap fun c => if BindsNothing c top then []
      else c.leaves := by
  unfold leaves
  rw [walk_eq_cons, List.filter_cons_of_neg (by simp [IsLeaf, h]),
    List.filter_flatMap]
  refine List.flatMap_congr fun c hc => ?_
  split
  · next hbinds =>
    refine List.filter_eq_nil_iff.2 fun n hn => ?_
    simp [IsLeaf, aside_of_mem_children hc hn, hbinds]
  · next hbinds =>
    refine List.filter_congr fun n hn =>
      decide_eq_decide.2 (and_congr_right fun _ => not_congr ?_)
    exact (aside_of_mem_children hc hn).trans (or_iff_right hbinds)

/-- The only leaf of a name is the name. -/
theorem leaves_of_isName (hname : n.IsName) (h : n.children = []) :
    n.leaves = [n] := by
  have haside : ¬ Aside n n := by
    rintro ⟨parent, hparent, c, hc, -, -⟩
    rw [walk_eq_cons, h, List.flatMap_nil, List.mem_singleton] at hparent
    rw [hparent, h] at hc
    cases hc
  unfold leaves
  rw [walk_eq_cons, h]
  simp [IsLeaf, hname, haside]

/-- Tokens and comments have no leaves. -/
theorem leaves_of_isFiller (h : t.IsFiller) (above : List Tree) :
    (⟨t, above⟩ : Node).leaves = [] := by
  have hname : ¬ (⟨t, above⟩ : Node).IsName := by
    rintro ⟨hnamed, hkind⟩
    have hpart : t.isPart = true := by
      refine Bool.and_eq_true_iff.2 ⟨hnamed, bne_iff_ne.2 fun hcomment => ?_⟩
      have hkind : t.label.kind.isName = true := hkind
      rw [hcomment] at hkind
      cases hkind
    exact absurd (h.1.symm.trans hpart) Bool.false_ne_true
  have hchildren : (⟨t, above⟩ : Node).children = [] := by simp [children, h.2]
  rw [leaves_of_not_isName hname, hchildren, List.flatMap_nil]

/-- Where names are bound in one child only, the leaves are those of that
child. -/
theorem leaves_of_only (hname : ¬ top.IsName)
    (hchildren : top.tree.children = before ++ t :: after)
    (ht : ¬ BindsNothing (top.below t) top)
    (hbeside : ∀ u ∈ before ++ after, BindsNothing (top.below u) top ∨
      (top.below u).leaves = []) :
    top.leaves = (top.below t).leaves := by
  rw [leaves_of_not_isName hname]
  unfold children
  rw [hchildren, List.flatMap_map, flatMap_of_only fun u hu => ?_]
  · exact if_neg ht
  · rcases hbeside u hu with h | h
    · exact if_pos h
    · rw [h, ite_self]

/-- The leaves of a phrase with a key or a default value are those of its
pattern. -/
theorem leaves_of_pairs {role beside : Field}
    (hkind : Kind.Pairs top.kind role beside)
    (hchildren : top.tree.children = before ++ t :: after)
    (hrole : t.label.field = some role)
    (hbeside : ∀ u ∈ before ++ after, u.label.field = some beside ∨
      u.IsFiller) :
    top.leaves = (top.below t).leaves := by
  have hbinds (u : Tree) : BindsNothing (top.below u) top ↔
      u.label.field = some beside := by
    show _ ↔ (top.below u).label.field = some beside
    unfold BindsNothing
    generalize top.kind = k at hkind
    cases hkind <;> simp [Kind.isParameter]
  refine leaves_of_only (not_isName hkind.isName_eq_false) hchildren ?_
    fun u hu => ?_
  · rw [hbinds, hrole]
    exact fun heq => hkind.ne (Option.some.inj heq)
  · exact (hbeside u hu).imp (hbinds u).2 fun hfiller =>
      leaves_of_isFiller hfiller _

/-- And those of a parameter the leaves of the pattern in it. -/
theorem leaves_of_isParameter (hkind : top.kind.isParameter = true)
    (hchildren : top.tree.children = before ++ t :: after)
    (hrole : t.label.field = some .pattern)
    (honly : ∀ u ∈ before ++ after, u.label.field ≠ some .pattern) :
    top.leaves = (top.below t).leaves := by
  have hbinds (u : Tree) : BindsNothing (top.below u) top ↔
      u.label.field ≠ some .pattern := by
    show _ ↔ (top.below u).label.field ≠ some .pattern
    unfold BindsNothing
    generalize top.kind = k at hkind
    cases k <;> simp_all [Kind.isParameter]
  refine leaves_of_only (not_isName (Kind.isName_of_isParameter hkind))
    hchildren ?_ fun u hu => ?_
  · rw [hbinds]
    exact not_not_intro hrole
  · exact .inl ((hbinds u).2 (honly u hu))

/-- The leaves of a list are those of its members. -/
theorem leaves_of_isPatternList (hkind : top.kind.isPatternList = true)
    (hfiller : ∀ t ∈ top.tree.children, t.isPart = false → t.children = []) :
    top.leaves = top.tree.children.flatMap fun t =>
      if t.isPart then (top.below t).leaves else [] := by
  have hbinds (c : Node) : ¬ BindsNothing c top := by
    unfold BindsNothing
    generalize top.kind = k at hkind
    cases k <;> simp_all [Kind.isParameter, Kind.isPatternList]
  rw [leaves_of_not_isName (not_isName (Kind.isName_of_isPatternList hkind))]
  unfold children
  rw [List.flatMap_map]
  refine List.flatMap_congr fun t ht => ?_
  rw [if_neg (hbinds _)]
  split
  · rfl
  · next hpart =>
    have hpart := Bool.eq_false_iff.2 hpart
    exact leaves_of_isFiller ⟨hpart, hfiller t ht hpart⟩ _

end Node

/-- The names that a pattern binds are those of its leaves, in order, and
nothing stands below a leaf. -/
theorem Tree.IsPattern.boundNames_eq {t : Tree} (h : t.IsPattern)
    (above : List Tree) :
    t.boundNames = (⟨t, above⟩ : Node).leaves.map Node.text ∧
      ∀ n ∈ (⟨t, above⟩ : Node).leaves, n.children = [] := by
  -- the trees above change from a pattern to the one in it, and so do the
  -- leaves, which know them
  induction h generalizing above with
  | @name l hnamed hkind =>
    have hleaves : (⟨node l [], above⟩ : Node).leaves = _ :=
      Node.leaves_of_isName ⟨hnamed, hkind⟩ rfl
    rw [boundNames_of_isName _ hkind, hleaves]
    exact ⟨rfl, List.forall_mem_singleton.2 rfl⟩
  | @list l cs hkind hfiller _ ih =>
    have hleaves : (⟨node l cs, above⟩ : Node).leaves = _ :=
      Node.leaves_of_isPatternList hkind hfiller
    rw [boundNames_of_isPatternList _ hkind, hleaves, List.map_flatMap]
    constructor
    · refine List.flatMap_congr fun t ht => ?_
      split
      · next hpart => exact (ih t ht hpart _).1
      · rfl
    · intro n hn
      obtain ⟨t, ht, hn⟩ := List.mem_flatMap.1 hn
      split at hn
      · next hpart => exact (ih t ht hpart _).2 n hn
      · cases hn
  | @pair l role beside before after t hkind hrole _ hbeside honly ih =>
    have hleaves : (⟨node l (before ++ t :: after), above⟩ : Node).leaves = _ :=
      Node.leaves_of_pairs hkind rfl hrole hbeside
    have hfirst : ∀ u ∈ before, u.label.field ≠ some role :=
      fun u hu => honly u (List.mem_append_left _ hu)
    rw [boundNames_of_pairs _ hkind, boundAt_append hfirst hrole, hleaves]
    exact ih _
  | @parameter l before after t hkind hrole hpart _ hbeside honly ih =>
    have hleaves : (⟨node l (before ++ t :: after), above⟩ : Node).leaves = _ :=
      Node.leaves_of_isParameter hkind rfl hrole honly
    have hnone (u : Tree) (hu : u ∈ before ++ after) :
        (if u.isPart then u.boundNames else []) = [] := by
      split
      · next hpart => exact boundNames_of_not_isPattern (hbeside u hu hpart)
      · rfl
    rw [boundNames_of_isParameter _ hkind, flatMap_of_only hnone,
      if_pos hpart, hleaves]
    exact ih _

namespace Node

/-- The names that are listed for a pattern are those of its leaves, one for
each and in the order of its walk. In the source they stand one behind the
other. A name that occurs only in keys, default values and around the patterns
of parameters is not listed. -/
theorem boundNames_of_isPattern {pattern : Node} (h : pattern.tree.IsPattern) :
    pattern.boundNames = (pattern.walk.filter (IsLeaf pattern)).map text ∧
    (pattern.WellRanged →
      (pattern.walk.filter (IsLeaf pattern)).Pairwise fun a b =>
      a.stop ≤ b.start) ∧
    ∀ name, (∀ n ∈ pattern.walk, n.IsName → n.text = name → Aside pattern n) →
      name ∉ pattern.boundNames := by
  obtain ⟨hnames, hlowest⟩ := h.boundNames_eq pattern.above
  refine ⟨hnames, fun hranged => ?_, fun name hname hmem => ?_⟩
  · refine (hranged.pairwise_walk_below.filter _).imp_of_mem
      fun {a b} ha _ hab => hab.resolve_left ?_
    rintro ⟨c, hc, -⟩
    rw [hlowest a ha] at hc
    cases hc
  · have hmem : name ∈ pattern.leaves.map text := hnames ▸ hmem
    obtain ⟨n, hn, htext⟩ := List.mem_map.1 hmem
    obtain ⟨hwalk, hleaf⟩ := List.mem_filter.1 hn
    have hleaf := of_decide_eq_true hleaf
    exact hleaf.2 (hname n hwalk hleaf.1 htext)

/-! ### A parameter with a computed key and a default -/

namespace Opened

def shorthand (s : String) : Sketch :=
  .phrase .shorthandPattern true none [.between s]

/-- The property `[k]: {c=d}`. -/
def property : Sketch := .phrase .pairPattern true none
  [.phrase (.other "computed_property_name") true (some .key) [.between "[",
    .name "k", .between "]"], .between ": ",
    .phrase .objectPattern true (some .value) [.between "\x7b",
      .phrase .objectAssignmentPattern true none [.as .left (shorthand "c"),
      .between "=", .as .right (.name "d")], .between "\x7d"]]

/-- The parameter `{a, [k]: {c=d}, ...rest}: P`. -/
def parameter : Node := (Sketch.program [.phrase .requiredParameter true none
  [.phrase .objectPattern true (some .pattern)
    (.between "\x7b" :: Sketch.list [shorthand "a", property,
      .phrase .restPattern true none [.between "...", .name "rest"]] ++
        [.between "\x7d"]),
    .phrase (.other "type_annotation") true (some (.other "type"))
      [.between ": ", .name "P"]]]).at [0]

/-- The parameter is a pattern of every kind at once: a list, a property, a
default value and a rest. -/
theorem isPattern_parameter : parameter.tree.IsPattern := by
  have htoken {t : Tree} (h : t.isPart = false) :
      t.isPart = true → t.IsPattern :=
    fun hpart => absurd (h.symm.trans hpart) Bool.false_ne_true
  refine @Tree.IsPattern.parameter _ [] _ _ rfl rfl rfl
    (.list rfl (by decide) ?_) (by decide) (by decide)
  refine List.forall_mem_cons.2
    ⟨fun _ => .name rfl rfl, List.forall_mem_cons.2 ⟨htoken rfl, ?_⟩⟩
  refine List.forall_mem_cons.2
    ⟨fun _ => ?_, List.forall_mem_cons.2 ⟨htoken rfl, ?_⟩⟩
  · refine @Tree.IsPattern.pair _ _ _ [_] [] _ .property rfl
      (.list rfl (by decide) ?_) (by decide) (by decide)
    refine List.forall_mem_singleton.2 fun _ => ?_
    exact @Tree.IsPattern.pair _ _ _ [] [_] _ .propertyDefault rfl
      (.name rfl rfl) (by decide) (by decide)
  · exact List.forall_mem_singleton.2 fun _ =>
      .list rfl (by decide) (List.forall_mem_singleton.2 fun _ => .name rfl rfl)

end Opened

open Opened in
theorem boundNames_parameter : parameter.tree.IsPattern ∧ parameter.WellRanged ∧
    (parameter.walk.filter (IsLeaf parameter)).map text = ["a", "c", "rest"] ∧
    ((parameter.walk.filter (IsLeaf parameter)).Pairwise fun a b =>
      a.stop ≤ b.start) ∧
    (parameter.walk.filter (·.kind == .identifier)).map text =
      ["k", "d", "rest", "P"] := by
  have hranged : parameter.WellRanged := by decide +kernel
  have hnames : parameter.boundNames = ["a", "c", "rest"] := by decide +kernel
  obtain ⟨hleaves, horder, -⟩ := boundNames_of_isPattern isPattern_parameter
  exact ⟨isPattern_parameter, hranged, hleaves.symm.trans hnames,
    horder hranged, by decide +kernel⟩

end Node

end RenderLoop
