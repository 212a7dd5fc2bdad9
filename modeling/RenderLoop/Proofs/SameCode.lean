import RenderLoop.Guard.Condition
import Mathlib.Data.List.Forall2
import Mathlib.Tactic.Common

/-!
# The same code in another place

Two nodes have the same code (`Node.SameCode`) when their trees agree but for
the places of their nodes in the source, whatever stands above them and
whichever roles they have there. What is read off an expression without
looking up or comparing places is then the same for both:

> `SameCode.bare`, `SameCode.child?`, `SameCode.parts`,
> `SameCode.firstArgument?`: the parts of an expression,

> `SameCode.isVariable`, `SameCode.isFalsy`, `SameCode.isReset`,
> `SameCode.isPartOf`: its shape,

> `SameCode.spreadsState`: and whether it copies a state.

Places matter to the analysis in other respects: whether a part of the tree
encloses another one is a comparison of places, and findings are reported at
them. None of the functions here looks at places, so for each of them there is
one congruence, in the order in which they are built on each other. Recursive
ones are followed by recursion over both trees at once.

Wrapping code in more code moves all its nodes. That is where these statements
are used.
-/

namespace RenderLoop

namespace Tree

mutual

/-- The same tree but for places in the source. The roles of the two trees
themselves do not matter. -/
def sameCode : Tree → Tree → Bool
  | node l cs, node l' cs' =>
    l.kind == l'.kind && l.named == l'.named && l.text == l'.text &&
      sameCodes cs cs'

/-- Siblings with the same roles and the same code. -/
def sameCodes : List Tree → List Tree → Bool
  | [], [] => true
  | t :: ts, u :: us =>
    t.label.field == u.label.field && t.sameCode u && sameCodes ts us
  | _, _ => false

end

/-- The same role and the same code. -/
def Alike (t u : Tree) : Prop :=
  t.label.field = u.label.field ∧ t.sameCode u = true

/-- Siblings have the same code iff they are alike one by one. -/
theorem sameCodes_iff {ts us : List Tree} :
    sameCodes ts us = true ↔ List.Forall₂ Alike ts us := by
  induction ts generalizing us with
  | nil => cases us <;> simp [sameCodes]
  | cons t ts ih =>
    cases us with
    | nil => simp [sameCodes]
    | cons u us => simp [sameCodes, ih, Alike]

end Tree

namespace Node

/-- The same code, whatever stands above the two nodes and whichever roles
they have there. -/
def SameCode (n m : Node) : Prop := n.tree.sameCode m.tree = true

instance (n m : Node) : Decidable (n.SameCode m) :=
  inferInstanceAs (Decidable (_ = true))

/-- The same code, taken apart: the label without its places, and the
children. -/
theorem sameCode_iff {n m : Node} :
    n.SameCode m ↔ n.kind = m.kind ∧ n.isNamed = m.isNamed ∧
    n.text = m.text ∧ List.Forall₂ Tree.Alike n.tree.children
      m.tree.children := by
  obtain ⟨⟨l, cs⟩, above⟩ := n
  obtain ⟨⟨l', cs'⟩, above'⟩ := m
  show Tree.sameCode (.node l cs) (.node l' cs') = true ↔ l.kind = l'.kind ∧
    l.named = l'.named ∧ l.text = l'.text ∧ List.Forall₂ Tree.Alike cs cs'
  simp only [Tree.sameCode, Bool.and_eq_true, beq_iff_eq,
    Tree.sameCodes_iff, and_assoc]

namespace SameCode

variable {n m : Node}

theorem kind (h : n.SameCode m) : n.kind = m.kind := (sameCode_iff.1 h).1

theorem named (h : n.SameCode m) : n.isNamed = m.isNamed :=
  (sameCode_iff.1 h).2.1

theorem text (h : n.SameCode m) : n.text = m.text := (sameCode_iff.1 h).2.2.1

theorem trees (h : n.SameCode m) :
    List.Forall₂ Tree.Alike n.tree.children m.tree.children :=
  (sameCode_iff.1 h).2.2.2

end SameCode

/-- Of two nodes that may be missing both are, or both are there. -/
theorem rel_cases {x y : Option Node} (h : Option.Rel SameCode x y) :
    (x = none ∧ y = none) ∨ ∃ a b, x = some a ∧ y = some b ∧ a.SameCode b := by
  cases h with
  | none => exact .inl ⟨rfl, rfl⟩
  | some h => exact .inr ⟨_, _, rfl, rfl, h⟩

/-- What one of two nodes has a part of, the other has, too. -/
theorem exists_of_rel {x y : Option Node} {a : Node}
    (h : Option.Rel SameCode x y) (ha : x = some a) :
    ∃ b, y = some b ∧ a.SameCode b := by
  subst ha
  cases h with
  | some h => exact ⟨_, rfl, h⟩

theorem rel_head? {l l' : List Node} (h : List.Forall₂ SameCode l l') :
    Option.Rel SameCode l.head? l'.head? := by
  cases h with
  | nil => exact .none
  | cons h _ => exact .some h

theorem rel_getD {x y : Option Node} {n m : Node} (h : Option.Rel SameCode x y)
    (hnm : n.SameCode m) :
    (x.getD n).SameCode (y.getD m) := by
  cases h with
  | none => exact hnm
  | some h => exact h

/-! ### Wrappers -/

/-- Taking off one wrapper after another. -/
theorem bare_eq (n : Node) : n.bare =
    if n.kind.isWrapper then
      (if n.kind = .typeAssertion then Tree.lastBare? (n.tree :: n.above)
        n.tree.children
        else Tree.firstBare? (n.tree :: n.above) n.tree.children).getD n
    else n := by
  obtain ⟨⟨l, cs⟩, above⟩ := n
  show Tree.bare above (.node l cs) = _
  rw [Tree.bare]
  rfl

/-- The name that an access starts from. -/
theorem rootName?_eq (n : Node) : n.rootName? =
    if n.bare.kind.isAccess then (n.bare.child? .object).bind rootName?
    else if n.bare.kind == .identifier then some n.bare.text else none := by
  rw [rootName?]
  split
  · split
    · next o ho =>
      rw [ho]
      rfl
    · next ho =>
      rw [ho]
      rfl
  · rfl

/-- Wrappers around the same code hold the same code, if their parts do. -/
theorem bare_step {n m : Node} (h : n.SameCode m)
    (hfirst : Option.Rel SameCode (Tree.firstBare? (n.tree :: n.above)
      n.tree.children) (Tree.firstBare? (m.tree :: m.above) m.tree.children))
    (hlast : Option.Rel SameCode (Tree.lastBare? (n.tree :: n.above)
      n.tree.children) (Tree.lastBare? (m.tree :: m.above) m.tree.children)) :
      n.bare.SameCode m.bare := by
  rw [bare_eq n, bare_eq m, ← h.kind]
  split
  · split
    · exact rel_getD hlast h
    · exact rel_getD hfirst h
  · exact h

end Node

namespace Tree

/-- Whether something is a part is told by its label. -/
theorem Alike.isPart {t u : Tree} (h : t.Alike u) : t.isPart = u.isPart := by
  have hcode : (⟨t, []⟩ : Node).SameCode ⟨u, []⟩ := h.2
  show (t.label.named && t.label.kind != .comment) =
    (u.label.named && u.label.kind != .comment)
  rw [show t.label.named = u.label.named from hcode.named, show t.label.kind =
    u.label.kind from hcode.kind]

mutual

-- the list lemmas ask for the same roles too, which siblings have; the roles of
-- `t` and `u` are free
/-- Wrappers are code, so taking them off keeps the same code. -/
theorem bare_of_sameCode (above above' : List Tree) :
    ∀ t u : Tree, t.sameCode u = true → (t.bare above).SameCode (u.bare above')
  | node l cs, node l' cs', h => by
    have hcode : (⟨node l cs, above⟩ : Node).SameCode ⟨node l' cs', above'⟩ := h
    exact Node.bare_step hcode (firstBare?_of_sameCode _ _ cs cs' hcode.trees)
      (lastBare?_of_sameCode _ _ cs cs' hcode.trees)

theorem firstBare?_of_sameCode (above above' : List Tree) :
    ∀ ts us : List Tree, List.Forall₂ Alike ts us →
      Option.Rel Node.SameCode (firstBare? above ts) (firstBare? above' us)
  | [], [], _ => .none
  | t :: ts, u :: us, .cons hhead htail => by
    rw [firstBare?, firstBare?, hhead.isPart]
    split
    · exact .some (bare_of_sameCode above above' t u hhead.2)
    · exact firstBare?_of_sameCode above above' ts us htail

theorem lastBare?_of_sameCode (above above' : List Tree) :
    ∀ ts us : List Tree, List.Forall₂ Alike ts us →
      Option.Rel Node.SameCode (lastBare? above ts) (lastBare? above' us)
  | [], [], _ => .none
  | t :: ts, u :: us, .cons hhead htail => by
    rw [lastBare?, lastBare?, hhead.isPart]
    obtain ⟨hn, hm⟩ | ⟨a, b, hn, hm, hab⟩ :=
      Node.rel_cases (lastBare?_of_sameCode above above' ts us htail)
    · rw [hn, hm]
      show Option.Rel Node.SameCode (if u.isPart then _ else _)
        (if u.isPart then _ else _)
      split
      · exact .some (bare_of_sameCode above above' t u hhead.2)
      · exact .none
    · rw [hn, hm]
      exact .some hab

end

end Tree

/-! ### Bound names -/

namespace Node

/-- What a phrase binds is read off its kind and what its children bind. -/
theorem boundNames_step {n m : Node} (h : n.SameCode m)
    (hat : ∀ f, Tree.boundAt f n.tree.children = Tree.boundAt f m.tree.children)
    (hparts : Tree.boundInParts n.tree.children =
      Tree.boundInParts m.tree.children) :
    n.boundNames = m.boundNames := by
  obtain ⟨⟨l, cs⟩, above⟩ := n
  obtain ⟨⟨l', cs'⟩, above'⟩ := m
  have hkind : l.kind = l'.kind := h.kind
  have htext : l.text = l'.text := h.text
  show (Tree.node l cs).boundNames = (Tree.node l' cs').boundNames
  rw [Tree.boundNames, Tree.boundNames, hkind, htext]
  simp only [Tree.children] at hat hparts
  simp only [hat, hparts]

end Node

namespace Tree

mutual

/-- The same code binds the same names. -/
theorem boundNames_of_sameCode :
    ∀ t u : Tree, t.sameCode u = true → t.boundNames = u.boundNames
  | node l cs, node l' cs', h => by
    have hcode : (⟨node l cs, []⟩ : Node).SameCode ⟨node l' cs', []⟩ := h
    exact Node.boundNames_step hcode
      (fun f => boundAt_of_sameCode f cs cs' hcode.trees)
      (boundInParts_of_sameCode cs cs' hcode.trees)

theorem boundAt_of_sameCode (f : Field) :
    ∀ ts us : List Tree, List.Forall₂ Alike ts us →
    boundAt f ts = boundAt f us
  | [], [], _ => rfl
  | t :: ts, u :: us, .cons hhead htail => by
    rw [boundAt, boundAt, hhead.1, boundNames_of_sameCode t u hhead.2,
      boundAt_of_sameCode f ts us htail]

theorem boundInParts_of_sameCode :
    ∀ ts us : List Tree, List.Forall₂ Alike ts us →
    boundInParts ts = boundInParts us
  | [], [], _ => rfl
  | t :: ts, u :: us, .cons hhead htail => by
    rw [boundInParts, boundInParts, hhead.isPart,
      boundNames_of_sameCode t u hhead.2, boundInParts_of_sameCode ts us htail]

end

/-! ### Walks -/

mutual

/-- Walks that stop at functions run in parallel through the same code. -/
theorem walkOutside_of_sameCode (above above' : List Tree) :
    ∀ t u : Tree, t.sameCode u = true →
    List.Forall₂ Node.SameCode (t.walkOutside above) (u.walkOutside above')
  | node l cs, node l' cs', h => by
    have hcode : (⟨node l cs, above⟩ : Node).SameCode ⟨node l' cs', above'⟩ := h
    rw [walkOutside, walkOutside, show l.kind = l'.kind from hcode.kind]
    refine .cons hcode ?_
    split
    · exact .nil
    · exact walkOutsideList_of_sameCode _ _ cs cs' hcode.trees

theorem walkOutsideList_of_sameCode (above above' : List Tree) :
    ∀ ts us : List Tree, List.Forall₂ Alike ts us →
      List.Forall₂ Node.SameCode (walkOutsideList above ts)
        (walkOutsideList above' us)
  | [], [], _ => .nil
  | t :: ts, u :: us, .cons hhead htail => by
    rw [walkOutsideList, walkOutsideList]
    exact List.rel_append (walkOutside_of_sameCode above above' t u hhead.2)
      (walkOutsideList_of_sameCode above above' ts us htail)

end

end Tree

namespace Node

namespace SameCode

variable {n m : Node}

/-- The children have the same roles and the same code, in the same order. -/
theorem children (h : n.SameCode m) :
    List.Forall₂ (fun a b => a.label.field = b.label.field ∧ a.SameCode b)
      n.children m.children := by
  unfold Node.children
  rw [List.forall₂_map_left_iff, List.forall₂_map_right_iff]
  exact h.trees

/-- The child with a role is there for both or for neither. -/
theorem child? (h : n.SameCode m) (f : Field) :
    Option.Rel SameCode (n.child? f) (m.child? f) := by
  unfold Node.child?
  have hchildren := h.children
  revert hchildren
  generalize n.children = l
  generalize m.children = l'
  intro hchildren
  induction hchildren with
  | nil => exact .none
  | cons hab _ ih =>
    rw [List.find?_cons, List.find?_cons, hab.1]
    split
    · exact .some hab.2
    · exact ih

theorem childText (h : n.SameCode m) (f : Field) :
    n.childText f = m.childText f := by
  unfold Node.childText
  obtain ⟨hn, hm⟩ | ⟨a, b, hn, hm, hab⟩ := rel_cases (h.child? f)
  · rw [hn, hm]
  · rw [hn, hm]
    exact hab.text

theorem parts (h : n.SameCode m) : List.Forall₂ SameCode n.parts m.parts := by
  unfold Node.parts namedChildren
  refine List.rel_filter (fun a b hab => ?_)
    (List.rel_filter (fun a b hab => ?_) (h.children.imp fun a b hab => hab.2))
  · show (a.kind != .comment) = true ↔ (b.kind != .comment) = true
    rw [hab.kind]
  · show a.isNamed = true ↔ b.isNamed = true
    rw [hab.named]

theorem bare (h : n.SameCode m) : n.bare.SameCode m.bare :=
  bare_step h (Tree.firstBare?_of_sameCode _ _ _ _ h.trees)
    (Tree.lastBare?_of_sameCode _ _ _ _ h.trees)

theorem bareChild? (h : n.SameCode m) (f : Field) :
    Option.Rel SameCode (n.bareChild? f) (m.bareChild? f) := by
  unfold Node.bareChild?
  obtain ⟨hn, hm⟩ | ⟨a, b, hn, hm, hab⟩ := rel_cases (h.child? f)
  · rw [hn, hm]
    exact .none
  · rw [hn, hm]
    exact .some hab.bare

/-! ### The shape of an expression -/

theorem operator (h : n.SameCode m) : n.operator = m.operator :=
  h.childText .operator

/-- Whether an expression is a variable is told by its code. -/
theorem isVariable (h : n.SameCode m) (name : String) :
    n.isVariable name = m.isVariable name := by
  unfold Node.isVariable
  rw [h.bare.kind, h.bare.text]

theorem isFalsy (h : n.SameCode m) : n.isFalsy = m.isFalsy := by
  unfold Node.isFalsy stringValue
  simp only [h.bare.kind, h.bare.text]

theorem isReset (h : n.SameCode m) : n.isReset = m.isReset := by
  have hparts : n.bare.parts.isEmpty = m.bare.parts.isEmpty := by
    rw [Bool.eq_iff_iff, List.isEmpty_iff_length_eq_zero,
      List.isEmpty_iff_length_eq_zero, h.bare.parts.length_eq]
  unfold Node.isReset
  simp only [h.bare.kind, hparts, h.bare.isFalsy]

theorem rootName? (h : n.SameCode m) : n.rootName? = m.rootName? := by
  induction hsize : n.size using Nat.strongRecOn generalizing n m with
  | ind k ih =>
    rw [rootName?_eq n, rootName?_eq m, h.bare.kind, h.bare.text]
    obtain ⟨hn, hm⟩ | ⟨a, b, hn, hm, hab⟩ := rel_cases (h.bare.child? .object)
    · rw [hn, hm]
    · have hlt : a.size < k := hsize ▸ size_lt_of_bare_child? hn
      rw [hn, hm, Option.bind_some, Option.bind_some, ih a.size hlt hab rfl]

/-- And so is whether it is a part of a state. -/
theorem isPartOf (h : n.SameCode m) (state : String) :
    n.isPartOf state = m.isPartOf state := by
  unfold Node.isPartOf
  rw [h.bare.kind, h.bare.rootName?]

/-! ### Calls -/

theorem arguments (h : n.SameCode m) :
    List.Forall₂ SameCode n.arguments m.arguments := by
  unfold Node.arguments
  obtain ⟨hn, hm⟩ | ⟨a, b, hn, hm, hab⟩ := rel_cases (h.child? .arguments)
  · rw [hn, hm]
    exact .nil
  · rw [hn, hm]
    show List.Forall₂ SameCode (if a.kind == .arguments then a.parts else [])
      (if b.kind == .arguments then b.parts else [])
    rw [hab.kind]
    split
    · exact hab.parts
    · exact .nil

theorem firstArgument? (h : n.SameCode m) :
    Option.Rel SameCode n.firstArgument? m.firstArgument? := by
  unfold Node.firstArgument?
  obtain ⟨hn, hm⟩ | ⟨a, b, hn, hm, hab⟩ := rel_cases (rel_head? h.arguments)
  · rw [hn, hm]
    exact .none
  · rw [hn, hm]
    exact .some hab.bare

theorem callee? (h : n.SameCode m) :
    Option.Rel SameCode n.callee? m.callee? := by
  unfold Node.callee?
  obtain ⟨hn, hm⟩ | ⟨a, b, hn, hm, hab⟩ := rel_cases (h.child? .function)
  · rw [hn, hm]
    exact h.bareChild? .constructor
  · rw [hn, hm]
    exact .some hab.bare

theorem calleeText (h : n.SameCode m) : n.calleeText = m.calleeText := by
  unfold Node.calleeText
  obtain ⟨hn, hm⟩ | ⟨f, g, hn, hm, hfg⟩ := rel_cases h.callee?
  · rw [hn, hm]
  · have hobject : (f.bareChild? .object).map Node.text =
        (g.bareChild? .object).map Node.text := by
      obtain ⟨hn, hm⟩ | ⟨a, b, hn, hm, hab⟩ :=
        rel_cases (hfg.bareChild? .object)
      · rw [hn, hm]
      · rw [hn, hm, Option.map_some, Option.map_some, hab.text]
    rw [hn, hm]
    simp only [hfg.kind, hfg.text, hfg.childText .property, hobject]

/-! ### Copies of a state -/

theorem functionParams (h : n.SameCode m) :
    List.Forall₂ SameCode n.functionParams m.functionParams := by
  unfold Node.functionParams
  obtain ⟨hn, hm⟩ | ⟨a, b, hn, hm, hab⟩ := rel_cases (h.child? .parameter)
  · rw [hn, hm]
    obtain ⟨hn, hm⟩ | ⟨a, b, hn, hm, hab⟩ := rel_cases (h.child? .parameters)
    · rw [hn, hm]
      exact .nil
    · rw [hn, hm]
      refine List.rel_filterMap (fun p q hpq => ?_) hab.parts
      show Option.Rel SameCode (if p.kind.isParameter then p.child? .pattern
        else some p) (if q.kind.isParameter then q.child? .pattern else some q)
      rw [hpq.kind]
      split
      · exact hpq.child? .pattern
      · exact .some hpq
  · rw [hn, hm]
    exact .cons hab .nil

theorem boundNames (h : n.SameCode m) : n.boundNames = m.boundNames :=
  boundNames_step h (fun f => Tree.boundAt_of_sameCode f _ _ h.trees)
    (Tree.boundInParts_of_sameCode _ _ h.trees)

theorem flatMap_boundNames {l l' : List Node} (h : List.Forall₂ SameCode l l') :
    l.flatMap Node.boundNames = l'.flatMap Node.boundNames := by
  induction h with
  | nil => rfl
  | cons hab _ ih =>
    rw [List.flatMap_cons, List.flatMap_cons, hab.boundNames, ih]

/-- The shallow walks of the same code run in parallel. -/
theorem walkShallow (h : n.SameCode m) :
    List.Forall₂ SameCode n.walkShallow m.walkShallow :=
  .cons h (Tree.walkOutsideList_of_sameCode _ _ _ _ h.trees)

theorem spreadRoot? (h : n.SameCode m) :
    Guard.spreadRoot? n = Guard.spreadRoot? m := by
  unfold Guard.spreadRoot?
  obtain ⟨hn, hm⟩ | ⟨a, b, hn, hm, hab⟩ := rel_cases (rel_head? h.parts)
  · rw [hn, hm]
  · rw [hn, hm]
    exact hab.rootName?

/-- A test that goes by code finds the same among both. -/
theorem any_eq {l l' : List Node} {p : Node → Bool}
    (hp : ∀ a b, a.SameCode b → p a = p b) (h : List.Forall₂ SameCode l l') :
    l.any p = l'.any p := by
  induction h with
  | nil => rfl
  | cons hab _ ih => rw [List.any_cons, List.any_cons, hp _ _ hab, ih]

theorem copies (h : n.SameCode m) (names : List String) :
    Guard.copies names n = Guard.copies names m := by
  unfold Guard.copies
  have harguments : (n.arguments.any fun a => a.rootName?.any names.contains) =
      m.arguments.any fun a => a.rootName?.any names.contains :=
    any_eq (fun a b hab => by rw [hab.rootName?]) h.arguments
  simp only [h.kind, h.spreadRoot?, h.calleeText, harguments]

theorem spreads (h : n.SameCode m) (names : List String) :
    Guard.spreads n names = Guard.spreads m names :=
  any_eq (fun _ _ hab => hab.copies names) h.walkShallow

/-- A new value is made by copying the state in both places or in neither. -/
theorem spreadsState {x y : Option Node} (h : Option.Rel SameCode x y)
    (state : String) :
    Guard.spreadsState x state = Guard.spreadsState y state := by
  cases h with
  | none => rfl
  | @some a b h =>
    have hparams := flatMap_boundNames h.functionParams
    have hbody : ∀ names,
      (a.functionBody?.any fun body => Guard.spreads body names) =
        b.functionBody?.any fun body => Guard.spreads body names := by
      intro names
      unfold functionBody?
      obtain ⟨hn, hm⟩ | ⟨c, d, hn, hm, hcd⟩ := rel_cases (h.child? .body)
      · rw [hn, hm]
      · rw [hn, hm]
        exact hcd.spreads names
    unfold Guard.spreadsState
    simp only [h.kind, hparams, h.spreads, hbody]

end SameCode

end Node

end RenderLoop
