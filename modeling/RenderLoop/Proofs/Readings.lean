import RenderLoop.Expr.Literal
import RenderLoop.Proofs.Sketch
import Mathlib.Tactic.Common

/-!
# What an expression reads as

`Node.equivalent` walks through two expressions side by side, with a case for
each mixture of `a.b` and `a['b']`. Here an expression is read on its own: its
`Reading` is what is left when wrappers, spellings of an access, quotes and
spellings of a number are forgotten. Many expressions have no reading, such as
calls.

> `Node.equivalent_iff`: two expressions are equivalent iff they have the same
> reading.

So the comparison is symmetric and transitive, whatever the mixture of
spellings, and an expression is equivalent to itself iff it has a reading.
`Node.Comparable` says without readings which ones do.

> `Node.equivalent_partial`: a partial equivalence, on the comparable
> expressions.

The comparison has three cases: two subscripts, two accesses of which one is a
member, and everything else. Each case is stated twice, for the comparison
(`equivalent_of_subscripts`, `equivalent_of_accesses`, `equivalent_of_leaf`)
and for readings (`sameReading_of_subscripts`, `sameReading_of_accesses`,
`sameReading_of_leaf`), in the same words; the theorem follows by induction
over the size of the first expression.
-/

namespace RenderLoop

namespace Double

/-- The value without the sign of a zero. -/
def withoutZeroSign (d : Double) : Double := if d.isZero then zero false else d

/-- Numbers agree if they are equal up to the sign of a zero, unless one is no
number. -/
theorem agrees_iff {x y : Double} (hx : x ≠ nan) (hy : y ≠ nan) :
    x.agrees y = true ↔ x.withoutZeroSign = y.withoutZeroSign := by
  cases x with
  | nan => exact absurd rfl hx
  | infinite s =>
    cases y with
    | nan => exact absurd rfl hy
    | infinite s' => simp [agrees, withoutZeroSign, isZero]
    | finite s' m' e' =>
      by_cases hm' : m' = 0 <;>
        simp [agrees, withoutZeroSign, isZero, zero, hm']
  | finite s m e =>
    cases y with
    | nan => exact absurd rfl hy
    | infinite s' =>
      by_cases hm : m = 0 <;> simp [agrees, withoutZeroSign, isZero, zero, hm]
    | finite s' m' e' =>
      by_cases hm : m = 0
      · by_cases hm' : m' = 0
        · simp [agrees, withoutZeroSign, isZero, zero, hm, hm']
        · simp [agrees, withoutZeroSign, isZero, zero, hm, hm', Ne.symm hm']
      · by_cases hm' : m' = 0 <;>
          simp [agrees, withoutZeroSign, isZero, zero, hm, hm']

/-- A ratio of two numbers is rounded to a number. -/
theorem ofRatio_ne_nan (negative : Bool) (num den : Nat) :
    ofRatio negative num den ≠ nan := by
  unfold ofRatio
  split
  · simp [zero]
  · simp only
    split <;> split <;> simp

theorem ofDecimal_ne_nan (negative : Bool) (digits : Nat) (exponent : Int) :
    ofDecimal negative digits exponent ≠ nan := by
  unfold ofDecimal
  split
  · simp [zero]
  · simp only
    split
    · simp
    · split
      · simp [zero]
      · split <;> apply ofRatio_ne_nan

end Double

/-- A number that can be read is a number. -/
theorem ne_nan_of_numberValue? {text : String} {d : Double}
    (h : numberValue? text = some d) :
    d ≠ .nan := by
  obtain ⟨decimal, -, rfl⟩ := Option.map_eq_some_iff.1 h
  apply Double.ofDecimal_ne_nan

/-- What an expression certainly stands for. -/
inductive Reading where
  | name (text : String)
  | this
  /-- `true`, `false`, `null` or `undefined`. -/
  | constant (kind : Kind)
  | number (value : Double)
  | text (value : String)
  | property (object : Reading) (name : String)
  | item (object index : Reading)

/-- What a subscript stands for: a property if the index is a text. -/
def Reading.subscript (object : Reading) : Reading → Reading
  | text s => property object s
  | index => item object index

namespace Reading

/-- Object and index can be told from the subscript. -/
theorem subscript_inj {o p i j : Reading} :
    o.subscript i = p.subscript j ↔ o = p ∧ i = j := by
  cases i <;> cases j <;> simp [subscript]

/-- A subscript stands for a property iff its index is the name of it. -/
theorem subscript_eq_property {o p i : Reading} {s : String} :
    o.subscript i = property p s ↔ o = p ∧ i = text s := by
  rw [show property p s = p.subscript (text s) from rfl, subscript_inj]

/-- The kind of the expressions that are read this way, if they are no
accesses. -/
def leafKind? : Reading → Option Kind
  | name _ => some .identifier
  | this => some .this
  | constant kind => some kind
  | number _ => some .number
  | text _ => some .string
  | property _ _ | item _ _ => none

theorem leafKind?_subscript (o i : Reading) :
    (o.subscript i).leafKind? = none := by
  cases i <;> rfl

end Reading

theorem isAccess_iff {k : Kind} :
    k.isAccess = true ↔ k = .member ∨ k = .subscript := by
  unfold Kind.isAccess
  split <;> simp_all

namespace Node

/-- What an expression that is no access stands for. -/
def leaf? (n : Node) : Option Reading :=
  match n.kind with
  | .identifier => some (.name n.text)
  | .this => some .this
  | .true | .false | .null | .undefined => some (.constant n.kind)
  | .string => some (.text n.stringValue)
  | .number => (numberValue? n.text).map fun d => .number d.withoutZeroSign
  | _ => none

/-- What an expression stands for. -/
def reading? (n : Node) : Option Reading :=
  match n.bare.kind with
  | .member =>
    match _h : n.bare.child? .object with
    | some o =>
      o.reading?.map fun object => .property object (n.bare.childText .property)
    | none => none
  | .subscript =>
    match _h : n.bare.child? .object with
    | some o =>
      match _hi : n.bare.child? .index with
      | some i => o.reading?.bind fun object => i.reading?.map object.subscript
      | none => none
    | none => none
  | _ => n.bare.leaf?
termination_by n.size
decreasing_by
  · exact size_lt_of_bare_child? _h
  · exact size_lt_of_bare_child? _h
  · exact size_lt_of_bare_child? _hi

section

variable {n a b : Node} {r : Reading}

/-- What is no access is read as it stands. -/
theorem reading?_of_leaf (h : n.bare.kind.isAccess = false) :
    n.reading? = n.bare.leaf? := by
  rw [reading?]
  split
  · next hkind => simp [hkind, Kind.isAccess] at h
  · next hkind => simp [hkind, Kind.isAccess] at h
  · rfl

/-- The reading of `a.b`. -/
theorem reading?_of_member (h : n.bare.kind = .member) : n.reading? = some r ↔
    ∃ o object, n.bare.child? .object = some o ∧ o.reading? = some object ∧
      .property object (n.bare.childText .property) = r := by
  rw [reading?, h]
  simp only
  split
  · next o ho => simp [ho]
  · next hnone => simp [hnone]

/-- The reading of `a[b]`. -/
theorem reading?_of_subscript (h : n.bare.kind = .subscript) :
    n.reading? = some r ↔ ∃ o i object index, n.bare.child? .object = some o ∧
      n.bare.child? .index = some i ∧ o.reading? = some object ∧
      i.reading? = some index ∧ object.subscript index = r := by
  rw [reading?, h]
  simp only
  split
  · next o ho =>
    split
    · next i hi => simp [ho, hi, Option.bind_eq_some_iff]
    · next hnone => simp [hnone]
  · next hnone => simp [hnone]

/-- What is no access is read by its kind. -/
theorem leafKind?_of_leaf? (h : n.leaf? = some r) :
    r.leafKind? = some n.kind := by
  unfold leaf? at h
  split at h
  case h_8 hkind =>
    obtain ⟨d, -, rfl⟩ := Option.map_eq_some_iff.1 h
    rw [hkind]
    rfl
  case h_9 => cases h
  all_goals
    next hkind =>
      cases h
      rw [hkind]
      rfl

theorem leafKind?_of_access (h : n.bare.kind.isAccess = true)
    (hr : n.reading? = some r) :
    r.leafKind? = none := by
  rcases isAccess_iff.1 h with hkind | hkind
  · obtain ⟨o, object, -, -, rfl⟩ := (reading?_of_member hkind).1 hr
    rfl
  · obtain ⟨o, i, object, index, -, -, -, -, rfl⟩ :=
      (reading?_of_subscript hkind).1 hr
    exact Reading.leafKind?_subscript object index

theorem leafKind?_ne_none (h : n.bare.kind.isAccess = false)
    (hr : n.reading? = some r) :
    r.leafKind? ≠ none := by
  rw [reading?_of_leaf h] at hr
  simp [leafKind?_of_leaf? hr]

/-- Expressions that are no accesses, and their readings. -/
theorem leaf?_bare_iff :
    n.bare.leaf? = some r ↔ n.reading? = some r ∧ r.leafKind? ≠ none := by
  by_cases h : n.bare.kind.isAccess = true
  · refine iff_of_false (fun hr => ?_) fun hr =>
      hr.2 (leafKind?_of_access h hr.1)
    rcases isAccess_iff.1 h with hkind | hkind <;> simp [leaf?, hkind] at hr
  · have hleaf := Bool.eq_false_iff.2 h
    rw [← reading?_of_leaf hleaf]
    exact ⟨fun hr => ⟨hr, leafKind?_ne_none hleaf hr⟩, And.left⟩

theorem leaf?_eq_text {s : String} :
    n.leaf? = some (.text s) ↔ n.kind = .string ∧ n.stringValue = s := by
  unfold leaf?
  split
  case h_9 hstring _ =>
    exact iff_of_false (fun h => by cases h) fun h => hstring h.1
  all_goals simp [*]

/-- Only a string is read as a text. -/
theorem reading?_eq_text {s : String} :
    n.reading? = some (.text s) ↔ n.bare.kind = .string ∧
      n.bare.stringValue = s := by
  by_cases h : n.bare.kind.isAccess = true
  · refine iff_of_false (fun hr => ?_) fun hs => ?_
    · cases leafKind?_of_access h hr
    · rw [hs.1] at h
      cases h
  · rw [reading?_of_leaf (Bool.eq_false_iff.2 h), leaf?_eq_text]

/-- The property that an access is read as. -/
theorem reading?_eq_property {object : Reading} {s : String}
    (h : n.bare.kind.isAccess = true) :
    n.reading? = some (.property object s) ↔
      ∃ o, n.bare.child? .object = some o ∧ o.reading? = some object ∧
        n.bare.accessName? = some s := by
  rcases isAccess_iff.1 h with hkind | hkind
  · rw [reading?_of_member hkind, accessName?, hkind]
    simp
  · have hname : n.bare.accessName? = some s ↔
        ∃ i, n.bare.child? .index = some i ∧ i.reading? = some (.text s) := by
      rw [accessName?, hkind, bareChild?]
      simp only
      cases n.bare.child? .index with
      | none => simp
      | some i => simp [reading?_eq_text]
    simp only [reading?_of_subscript hkind,
      Reading.subscript_eq_property, hname]
    constructor
    · rintro ⟨o, i, x, y, ho, hi, hobject, hindex, rfl, rfl⟩
      exact ⟨o, ho, hobject, i, hi, hindex⟩
    · rintro ⟨o, ho, hobject, i, hi, hindex⟩
      exact ⟨o, i, object, .text s, ho, hi, hobject, hindex, rfl, rfl⟩

/-! ### The comparison, case by case -/

theorem member_of_not_subscripts (ha : a.bare.kind.isAccess = true)
    (hb : b.bare.kind.isAccess = true)
    (h : ¬ (a.bare.kind = .subscript ∧ b.bare.kind = .subscript)) :
    a.bare.kind = .member ∨ b.bare.kind = .member := by
  rcases isAccess_iff.1 ha with ha | ha
  · exact .inl ha
  · exact .inr ((isAccess_iff.1 hb).resolve_right fun hb => h ⟨ha, hb⟩)

/-- Two subscripts are compared part by part. -/
theorem equivalent_of_subscripts (ha : a.bare.kind = .subscript)
    (hb : b.bare.kind = .subscript) :
    a.equivalent b = true ↔
      (∃ i j, a.bare.child? .index = some i ∧ b.bare.child? .index = some j ∧
        i.equivalent j = true) ∧
      ∃ o p, a.bare.child? .object = some o ∧ b.bare.child? .object = some p ∧
        o.equivalent p = true := by
  rw [equivalent, ha, hb]
  simp only [Bool.and_eq_true]
  refine and_congr ?_ ?_
  · split
    · next i j hi hj => simp [hi, hj]
    · next hno =>
      refine iff_of_false Bool.false_ne_true ?_
      rintro ⟨i, j, hi, hj, -⟩
      exact hno i j hi hj
  · split
    · next o p ho hp => simp [ho, hp]
    · next hno =>
      refine iff_of_false Bool.false_ne_true ?_
      rintro ⟨o, p, ho, hp, -⟩
      exact hno o p ho hp

/-- If one of them is a member, two accesses are compared by the name of the
property. -/
theorem equivalent_of_accesses (ha : a.bare.kind.isAccess = true)
    (hb : b.bare.kind.isAccess = true)
    (hmember : a.bare.kind = .member ∨ b.bare.kind = .member) :
    a.equivalent b = true ↔
      (∃ s, a.bare.accessName? = some s ∧ b.bare.accessName? = some s) ∧
      ∃ o p, a.bare.child? .object = some o ∧ b.bare.child? .object = some p ∧
        o.equivalent p = true := by
  rw [equivalent]
  split
  · next hkind _ => simp [hkind, Kind.isAccess] at ha
  · next hkind _ => simp [hkind, Kind.isAccess] at ha
  · next hkind hkind' => simp [hkind, hkind'] at hmember
  on_goal 4 =>
    rcases isAccess_iff.1 ha with ha | ha <;> rcases isAccess_iff.1 hb with hb |
      hb <;> simp_all
  all_goals
    simp only [Bool.and_eq_true]
    refine and_congr ?_ ?_
    · cases a.bare.accessName? with
      | none => simp
      | some x =>
        cases b.bare.accessName? with
        | none => simp
        | some y => simpa using eq_comm
    · split
      · next ho hp => simp [ho, hp]
      · next hno =>
      refine iff_of_false Bool.false_ne_true ?_
      rintro ⟨o, p, ho, hp, -⟩
      exact hno o p ho hp

/-- Literals are compared by what they are read as. -/
theorem sameLiteral_iff
    (hname : a.kind = .identifier → b.kind = .identifier → False)
    (hthis : a.kind = .this → b.kind = .this → False) :
    a.sameLiteral b = true ↔ ∃ r, a.leaf? = some r ∧ b.leaf? = some r := by
  by_cases hkind : a.kind = b.kind
  · unfold sameLiteral
    rw [hkind, beq_self_eq_true, Bool.true_and]
    split
    case h_1 hnumber =>
      simp only [leaf?, hkind, hnumber]
      cases hx : numberValue? a.text with
      | none => simp
      | some x =>
        cases hy : numberValue? b.text with
        | none => simp
        | some y =>
          have hagree := Double.agrees_iff (ne_nan_of_numberValue? hx)
            (ne_nan_of_numberValue? hy)
          simpa [hagree] using eq_comm
    case h_2 hstring => simpa [leaf?, hkind, hstring] using eq_comm
    case h_7 =>
      refine iff_of_false Bool.false_ne_true ?_
      rintro ⟨r, -, hr⟩
      unfold leaf? at hr
      split at hr
      case h_1 hb => exact hname (hkind.trans hb) hb
      case h_2 hb => exact hthis (hkind.trans hb) hb
      case h_9 => cases hr
      all_goals contradiction
    all_goals simp [leaf?, *]
  · refine iff_of_false ?_ ?_
    · simp [sameLiteral, hkind]
    · rintro ⟨r, ha, hb⟩
      exact hkind (Option.some.inj
        ((leafKind?_of_leaf? ha).symm.trans (leafKind?_of_leaf? hb)))

/-- Leaves of an expression are compared as identifiers, as `this` or as
literals. -/
theorem equivalent_of_leaf
    (h : (a.bare.kind.isAccess && b.bare.kind.isAccess) = false) :
    a.equivalent b = true ↔
      ∃ r, a.bare.leaf? = some r ∧ b.bare.leaf? = some r := by
  rw [equivalent]
  split
  case h_1 ha hb => simpa [leaf?, ha, hb] using eq_comm
  case h_2 ha hb => simp [leaf?, ha, hb]
  case h_7 hname hthis _ _ _ _ => exact sameLiteral_iff hname hthis
  all_goals
    next ha hb => simp [ha, hb, Kind.isAccess] at h

/-! ### Equal readings, case by case -/

/-- Both expressions can be read, and read alike. -/
def SameReading (a b : Node) : Prop :=
  ∃ r, a.reading? = some r ∧ b.reading? = some r

/-- Two subscripts read alike iff their parts do. -/
theorem sameReading_of_subscripts (ha : a.bare.kind = .subscript)
    (hb : b.bare.kind = .subscript) :
    a.SameReading b ↔
      (∃ i j, a.bare.child? .index = some i ∧ b.bare.child? .index = some j ∧
        i.SameReading j) ∧
      ∃ o p, a.bare.child? .object = some o ∧ b.bare.child? .object = some p ∧
        o.SameReading p := by
  constructor
  · rintro ⟨r, hra, hrb⟩
    obtain ⟨o, i, x, y, ho, hi, hox, hiy, rfl⟩ :=
      (reading?_of_subscript ha).1 hra
    obtain ⟨p, j, x', y', hp, hj, hpx, hjy, hsame⟩ :=
      (reading?_of_subscript hb).1 hrb
    obtain ⟨rfl, rfl⟩ := Reading.subscript_inj.1 hsame
    exact ⟨⟨i, j, hi, hj, y', hiy, hjy⟩, o, p, ho, hp, x', hox, hpx⟩
  · rintro ⟨⟨i, j, hi, hj, y, hiy, hjy⟩, o, p, ho, hp, x, hox, hpx⟩
    exact ⟨x.subscript y,
      (reading?_of_subscript ha).2 ⟨o, i, x, y, ho, hi, hox, hiy, rfl⟩,
      (reading?_of_subscript hb).2 ⟨p, j, x, y, hp, hj, hpx, hjy, rfl⟩⟩

/-- If one of them is a member, two accesses read alike iff they name the same
property of the same object. -/
theorem sameReading_of_accesses (ha : a.bare.kind.isAccess = true)
    (hb : b.bare.kind.isAccess = true)
    (hmember : a.bare.kind = .member ∨ b.bare.kind = .member) :
    a.SameReading b ↔
      (∃ s, a.bare.accessName? = some s ∧ b.bare.accessName? = some s) ∧
      ∃ o p, a.bare.child? .object = some o ∧ b.bare.child? .object = some p ∧
        o.SameReading p := by
  constructor
  · rintro ⟨r, hra, hrb⟩
    -- one of the two is a member access, and that is read as a property
    obtain ⟨x, s, rfl⟩ : ∃ x s, r = .property x s := by
      rcases hmember with hmember | hmember
      · obtain ⟨o, x, -, -, rfl⟩ := (reading?_of_member hmember).1 hra
        exact ⟨x, _, rfl⟩
      · obtain ⟨o, x, -, -, rfl⟩ := (reading?_of_member hmember).1 hrb
        exact ⟨x, _, rfl⟩
    obtain ⟨o, ho, hox, has⟩ := (reading?_eq_property ha).1 hra
    obtain ⟨p, hp, hpx, hbs⟩ := (reading?_eq_property hb).1 hrb
    exact ⟨⟨s, has, hbs⟩, o, p, ho, hp, x, hox, hpx⟩
  · rintro ⟨⟨s, has, hbs⟩, o, p, ho, hp, x, hox, hpx⟩
    exact ⟨.property x s, (reading?_eq_property ha).2 ⟨o, ho, hox, has⟩,
      (reading?_eq_property hb).2 ⟨p, hp, hpx, hbs⟩⟩

/-- Where one of two expressions is no access, they have to be read at their
kinds. -/
theorem sameReading_of_leaf
    (h : (a.bare.kind.isAccess && b.bare.kind.isAccess) = false) :
    a.SameReading b ↔ ∃ r, a.bare.leaf? = some r ∧ b.bare.leaf? = some r := by
  simp only [leaf?_bare_iff]
  constructor
  · rintro ⟨r, hra, hrb⟩
    have hkind : r.leafKind? ≠ none := by
      rcases Bool.and_eq_false_iff.1 h with h | h
      · exact leafKind?_ne_none h hra
      · exact leafKind?_ne_none h hrb
    exact ⟨r, ⟨hra, hkind⟩, hrb, hkind⟩
  · rintro ⟨r, ⟨hra, -⟩, hrb, -⟩
    exact ⟨r, hra, hrb⟩

/-- Two expressions are equivalent iff they have the same reading. -/
theorem equivalent_iff (a b : Node) :
    a.equivalent b = true ↔ a.SameReading b := by
  -- the induction is on the first expression, whose object and index are
  -- smaller
  induction hsize : a.size using Nat.strongRecOn generalizing a b with
  | ind k ih =>
    have hchild : ∀ {f : Field} {m : Node}, a.bare.child? f = some m →
        ∀ m', m.equivalent m' = true ↔ m.SameReading m' := fun {f m} hm m' =>
      ih m.size (hsize ▸ size_lt_of_bare_child? hm) m m' rfl
    by_cases hboth : (a.bare.kind.isAccess && b.bare.kind.isAccess) = true
    · obtain ⟨ha, hb⟩ := Bool.and_eq_true_iff.1 hboth
      have hobject : (∃ o p, a.bare.child? .object = some o ∧
            b.bare.child? .object = some p ∧ o.equivalent p = true) ↔
          ∃ o p, a.bare.child? .object = some o ∧
            b.bare.child? .object = some p ∧ o.SameReading p :=
        exists_congr fun o => exists_congr fun p => and_congr_right fun ho =>
          and_congr_right fun _ =>
          hchild ho p
      by_cases hsub : a.bare.kind = .subscript ∧ b.bare.kind = .subscript
      · rw [equivalent_of_subscripts hsub.1 hsub.2,
          sameReading_of_subscripts hsub.1 hsub.2, hobject]
        refine and_congr_left' (exists_congr fun i => exists_congr fun j => ?_)
        exact and_congr_right fun hi => and_congr_right fun _ => hchild hi j
      · have hmember := member_of_not_subscripts ha hb hsub
        rw [equivalent_of_accesses ha hb hmember,
          sameReading_of_accesses ha hb hmember, hobject]
    · have hleaf := Bool.eq_false_iff.2 hboth
      rw [equivalent_of_leaf hleaf, sameReading_of_leaf hleaf]

/-! ### Which expressions can be read -/

/-- An expression that is, apart from wrappers, built by accesses from
identifiers, `this`, the four constants, strings and decimal numbers. -/
inductive Comparable : Node → Prop
  | identifier {n : Node} (h : n.bare.kind = .identifier) : Comparable n
  | this {n : Node} (h : n.bare.kind = .this) : Comparable n
  | constant {n : Node}
      (h : n.bare.kind = .true ∨ n.bare.kind = .false ∨ n.bare.kind = .null ∨
        n.bare.kind = .undefined) :
    Comparable n
  | string {n : Node} (h : n.bare.kind = .string) : Comparable n
  | number {n : Node} {d : Double} (h : n.bare.kind = .number)
      (hd : numberValue? n.bare.text = some d) :
    Comparable n
  | member {n o : Node} (h : n.bare.kind = .member)
      (ho : n.bare.child? .object = some o) (hobject : Comparable o) :
    Comparable n
  | subscript {n o i : Node} (h : n.bare.kind = .subscript)
      (ho : n.bare.child? .object = some o) (hi : n.bare.child? .index = some i)
      (hobject : Comparable o) (hindex : Comparable i) : Comparable n

/-- What is built in these ways can be read. -/
theorem Comparable.exists_reading (h : n.Comparable) :
    ∃ r, n.reading? = some r := by
  have hleaf : ∀ {n : Node}, n.bare.leaf?.isSome = true →
      ∃ r, n.reading? = some r := by
    intro n h
    obtain ⟨r, hr⟩ := Option.isSome_iff_exists.1 h
    exact ⟨r, (leaf?_bare_iff.1 hr).1⟩
  induction h with
  | identifier h => exact hleaf (by simp [leaf?, h])
  | this h => exact hleaf (by simp [leaf?, h])
  | constant h =>
    rcases h with h | h | h | h <;> exact hleaf (by simp [leaf?, h])
  | string h => exact hleaf (by simp [leaf?, h])
  | number h hd => exact hleaf (by simp [leaf?, h, hd])
  | member h ho _ ih =>
    obtain ⟨x, hx⟩ := ih
    exact ⟨_, (reading?_of_member h).2 ⟨_, x, ho, hx, rfl⟩⟩
  | subscript h ho hi _ _ iho ihi =>
    obtain ⟨x, hx⟩ := iho
    obtain ⟨y, hy⟩ := ihi
    exact ⟨_, (reading?_of_subscript h).2 ⟨_, _, x, y, ho, hi, hx, hy, rfl⟩⟩

theorem comparable_of_leaf? (h : n.bare.leaf? = some r) : n.Comparable := by
  unfold leaf? at h
  split at h
  case h_1 hkind => exact .identifier hkind
  case h_2 hkind => exact .this hkind
  case h_7 hkind => exact .string hkind
  case h_8 hkind =>
    obtain ⟨d, hd, -⟩ := Option.map_eq_some_iff.1 h
    exact .number hkind hd
  case h_9 => cases h
  all_goals
    next hkind => exact .constant (by simp [hkind])

/-- And what can be read is built in these ways. -/
theorem comparable_of_reading? (h : n.reading? = some r) : n.Comparable := by
  induction hsize : n.size using Nat.strongRecOn generalizing n r with
  | ind k ih =>
    by_cases haccess : n.bare.kind.isAccess = true
    · rcases isAccess_iff.1 haccess with hkind | hkind
      · obtain ⟨o, x, ho, hx, -⟩ := (reading?_of_member hkind).1 h
        exact .member hkind ho
          (ih o.size (hsize ▸ size_lt_of_bare_child? ho) hx rfl)
      · obtain ⟨o, i, x, y, ho, hi, hx, hy, -⟩ :=
          (reading?_of_subscript hkind).1 h
        exact .subscript hkind ho hi
          (ih o.size (hsize ▸ size_lt_of_bare_child? ho) hx rfl)
          (ih i.size (hsize ▸ size_lt_of_bare_child? hi) hy rfl)
    · rw [reading?_of_leaf (Bool.eq_false_iff.2 haccess)] at h
      exact comparable_of_leaf? h

theorem SameReading.symm (h : a.SameReading b) : b.SameReading a := by
  obtain ⟨r, hra, hrb⟩ := h
  exact ⟨r, hrb, hra⟩

theorem SameReading.trans {c : Node} (hab : a.SameReading b)
    (hbc : b.SameReading c) :
    a.SameReading c := by
  obtain ⟨r, hra, hrb⟩ := hab
  obtain ⟨r', hrb', hrc⟩ := hbc
  obtain rfl := Option.some.inj (hrb.symm.trans hrb')
  exact ⟨r, hra, hrc⟩

/-- An expression reads like itself iff it can be read at all. -/
theorem sameReading_self : n.SameReading n ↔ n.Comparable := by
  constructor
  · rintro ⟨r, hr, -⟩
    exact comparable_of_reading? hr
  · intro h
    obtain ⟨r, hr⟩ := h.exists_reading
    exact ⟨r, hr, hr⟩

/-- Equivalence is symmetric and transitive, and exactly the comparable
expressions are equivalent to themselves. -/
theorem equivalent_partial (a b c : Node) :
    a.equivalent b = b.equivalent a ∧
      (a.equivalent b = true → b.equivalent c = true → a.equivalent c = true) ∧
      (a.equivalent a = true ↔ a.Comparable) := by
  rw [Bool.eq_iff_iff]
  simp only [equivalent_iff]
  exact ⟨⟨SameReading.symm, SameReading.symm⟩, SameReading.trans,
    sameReading_self⟩

end

/-- One property in three spellings. -/
def spellings : Node := Sketch.program
  [.run (.member (.name "user") "id"),
    .run (.parenthesized (.subscript (.name "user") (.text "'id'"))),
    .run (.subscript (.nonNull (.name "user")) (.typed (.text "\"id\"") "Key"))]

namespace spellings

def dotted : Node := spellings.at [0, 0]

def bracketed : Node := spellings.at [1, 0]

def annotated : Node := spellings.at [2, 0]

end spellings

theorem equivalent_spellings :
    spellings.dotted.equivalent spellings.bracketed = true ∧
      spellings.bracketed.equivalent spellings.annotated = true ∧
      spellings.dotted.equivalent spellings.annotated = true ∧
      spellings.bracketed.equivalent spellings.dotted = true ∧
        spellings.dotted.Comparable := by
  obtain ⟨hsymm, htrans, hself⟩ :=
    equivalent_partial spellings.dotted spellings.bracketed spellings.annotated
  have hfirst : spellings.dotted.equivalent spellings.bracketed = true := by
    decide +kernel
  have hsecond : spellings.bracketed.equivalent spellings.annotated = true := by
    decide +kernel
  exact ⟨hfirst, hsecond, htrans hfirst hsecond, hsymm.symm.trans hfirst,
    hself.1 (by decide +kernel)⟩

end Node

end RenderLoop
