import RenderLoop.Check.Keys
import RenderLoop.Proofs.GuardShapes

/-!
# The parts of a key

A key may be put together: a template of its substitutions, an operator
expression of its two sides. `Keys.Part` says which expressions a key consists
of, all without their wrappers, and `Keys.IsRenewed` which of them are new on
every render. The verdict on the key goes by all of its parts, wherever they
stand:

> `mem_verdicts`: the verdicts that are gathered are those on the parts of the
> key.

> `keyCode?_of_parts`: a key is reported as unstable iff some part is new on
> every render, as an index iff none is and some part is the index, and not at
> all otherwise.

The parts are listed as a relation that grows from the whole key downwards,
and the verdicts by a recursion that does the same (`verdicts_eq`). So
gathering verdicts and having parts agree by induction over the size of the
key. What remains is a single part: `verdictOn?_isUnstable_iff` and
`verdictOn?_index_iff` read the verdict on it off its shape.

Of several verdicts the unstable ones go first (`isUnstable_of_classify?`).
That is why a key that mixes an index with something new is reported as new.
-/

namespace RenderLoop

namespace Keys

/-! ### What a key consists of -/

/-- An expression that another one is put together from. -/
inductive Operand (part : Node) : Node → Prop where
  | substitution {s c : Node} (hpart : part.kind = .templateString)
      (hs : s ∈ part.namedChildren) (hkind : s.kind = .templateSubstitution)
      (hc : c ∈ s.parts) : Operand part c
  | left {c : Node} (hpart : part.kind = .binary)
      (hc : part.child? .left = some c) : Operand part c
  | right {c : Node} (hpart : part.kind = .binary)
      (hc : part.child? .right = some c) : Operand part c

/-- The expressions a key consists of, without their wrappers: the whole, what
it is put together from, what those are put together from, and so on. -/
inductive Part (value : Node) : Node → Prop where
  | whole : Part value value.bare
  | operand {part c : Node} (h : Part value part) (hc : Operand part c) :
      Part value c.bare

variable {value part c : Node} {random : List String} {index : Option String}
  {v : Verdict}

/-- What an expression is put together from. -/
theorem mem_components_iff : c ∈ components part ↔ Operand part c := by
  unfold components
  constructor
  · intro h
    split at h
    · next hpart =>
      obtain ⟨s, hs, hc⟩ := List.mem_flatMap.1 (List.mem_reverse.1 h)
      obtain ⟨hs, hkind⟩ := List.mem_filter.1 hs
      exact .substitution hpart hs (by simpa using hkind) hc
    · next hpart =>
      rcases List.mem_append.1 h with h | h
      · exact .right hpart (Option.mem_toList.1 h)
      · exact .left hpart (Option.mem_toList.1 h)
    · cases h
  · intro h
    cases h with
    | substitution hpart hs hkind hc =>
      rw [hpart]
      refine List.mem_reverse.2
        (List.mem_flatMap.2 ⟨_, List.mem_filter.2 ⟨hs, ?_⟩, hc⟩)
      simp [hkind]
    | left hpart hc =>
      rw [hpart]
      exact List.mem_append_right _ (Option.mem_toList.2 hc)
    | right hpart hc =>
      rw [hpart]
      exact List.mem_append_left _ (Option.mem_toList.2 hc)

/-- The parts of a key are bare. -/
theorem Part.bare_eq (h : Part value part) : part.bare = part := by
  cases h with
  | whole => exact value.bare_bare
  | @operand _ c _ _ => exact c.bare_bare

/-- Seen from the top: a part is the whole, or a part of something the whole
is put together from. -/
theorem part_iff : Part value part ↔ part = value.bare ∨
    ∃ c, Operand value.bare c ∧ Part c part := by
  constructor
  · intro h
    induction h with
    | whole => exact .inl rfl
    | @operand part c _ hc ih =>
      rcases ih with rfl | ⟨d, hd, hpart⟩
      · exact .inr ⟨c, hc, .whole⟩
      · exact .inr ⟨d, hd, hpart.operand hc⟩
  · rintro (rfl | ⟨c, hc, h⟩)
    · exact .whole
    · induction h with
      | whole => exact .operand .whole hc
      | operand _ hd ih => exact .operand ih hd

/-- The verdicts on a key: that on the whole, then those on what it is put
together from. -/
theorem verdicts_eq (random : List String) (index : Option String)
    (value : Node) :
    verdicts random index value = (verdictOn? random index value.bare).toList ++
      (components value.bare).flatMap (verdicts random index) := by
  rw [verdicts]
  congr 1
  simp

/-- Every part of the key gets its verdict, however deep it stands. -/
theorem mem_verdicts : v ∈ verdicts random index value ↔
    ∃ part, Part value part ∧ verdictOn? random index part = some v := by
  -- every operand is smaller than what it is a part of
  induction hsize : value.size using Nat.strongRecOn generalizing value with
  | ind k ih =>
    have hoperand : ∀ {c : Node}, Operand value.bare c →
        (v ∈ verdicts random index c ↔
          ∃ part, Part c part ∧ verdictOn? random index part = some v) := by
      intro c hc
      have hlt := size_lt_of_mem_components (mem_components_iff.2 hc)
      exact ih c.size (hsize ▸ Nat.lt_of_lt_of_le hlt value.size_bare_le) rfl
    rw [verdicts_eq, List.mem_append, Option.mem_toList, List.mem_flatMap]
    constructor
    · rintro (h | ⟨c, hc, h⟩)
      · exact ⟨value.bare, .whole, h⟩
      · have hc := mem_components_iff.1 hc
        obtain ⟨part, hpart, h⟩ := (hoperand hc).1 h
        exact ⟨part, part_iff.2 (.inr ⟨c, hc, hpart⟩), h⟩
    · rintro ⟨part, hpart, h⟩
      rcases part_iff.1 hpart with rfl | ⟨c, hc, hpart⟩
      · exact .inl h
      · exact .inr ⟨c, mem_components_iff.2 hc,
          (hoperand hc).2 ⟨part, hpart, h⟩⟩

/-! ### What is wrong with a part -/

/-- A call that gives another value every time: of a well-known function, of a
property of a well-known object, of a method of such a name, or of `getTime`
on what was just constructed. -/
inductive Randomises (call : Node) : Prop where
  | function {f : Node} (hcall : call.kind = .call) (hf : call.callee? = some f)
      (hkind : f.kind = .identifier) (h : f.text ∈ randomFunctions)
  | property {f : Node} (hcall : call.kind = .call) (hf : call.callee? = some f)
      (hkind : f.kind = .member) (h : call.calleeText ∈ randomProperties)
  | method {f : Node} {name : String} (hcall : call.kind = .call)
      (hf : call.callee? = some f) (hkind : f.kind = .member)
      (hname : call.calleeName? = some name) (h : name ∈ randomMethods)
  | time {f o : Node} (hcall : call.kind = .call) (hf : call.callee? = some f)
      (hkind : f.kind = .member) (hname : call.calleeName? = some "getTime")
      (ho : f.bareChild? .object = some o) (hnew : o.kind = .new)

theorem Randomises.kind_eq (h : Randomises c) :
    c.kind = .call := by cases h <;> assumption

/-- The test for a random call recognises the calls that give another value
every time. -/
theorem isRandom_iff {n : Node} : isRandom n = true ↔ Randomises n.bare := by
  unfold isRandom
  constructor
  · intro h
    obtain ⟨hcall, h⟩ := Bool.and_eq_true_iff.1 h
    have hcall : n.bare.kind = .call := by simpa using hcall
    split at h
    · cases h
    · next f hf =>
      split at h
      · next hkind => exact .function hcall hf hkind (by simpa using h)
      · next hkind =>
        rcases Bool.or_eq_true_iff.1 h with h | h
        · rcases Bool.or_eq_true_iff.1 h with h | h
          · exact .property hcall hf hkind (by simpa using h)
          · obtain ⟨name, hname, h⟩ := (Option.any_eq_true _ _).1 h
            exact .method hcall hf hkind hname (by simpa using h)
        · obtain ⟨hname, h⟩ := Bool.and_eq_true_iff.1 h
          obtain ⟨o, ho, hnew⟩ := (Option.any_eq_true _ _).1 h
          exact .time hcall hf hkind (by simpa using hname) ho
            (by simpa using hnew)
      · cases h
  · intro h
    cases h with
    | function hcall hf hkind h => simp [hcall, hf, hkind, h]
    | property hcall hf hkind h => simp [hcall, hf, hkind, h]
    | method hcall hf hkind hname h => simp [hcall, hf, hkind, hname, h]
    | time hcall hf hkind hname ho hnew =>
      simp [hcall, hf, hkind, hname, ho, hnew]

/-- A part that is new on every render. -/
inductive IsRenewed (random : List String) (part : Node) : Prop where
  | object (h : part.kind = .object)
  | array (h : part.kind = .array)
  | call (h : Randomises part)
  | bound (hkind : part.kind = .identifier) (h : part.text ∈ random)

/-- A part that is the index of a list. -/
def IsIndex (index : Option String) (part : Node) : Prop :=
  part.kind = .identifier ∧ index = some part.text

/-- The verdict on a part is that it is new iff it is. -/
theorem verdictOn?_isUnstable_iff (hbare : part.bare = part) :
    (∃ v, verdictOn? random index part = some v ∧ v.isUnstable = true) ↔
      IsRenewed random part := by
  unfold verdictOn?
  constructor
  · rintro ⟨v, hv, hunstable⟩
    split at hv
    · next hkind => exact .object hkind
    · next hkind => exact .array hkind
    · next hkind =>
      split at hv
      · next hrandom => exact .bound hkind (by simpa using hrandom)
      · split at hv
        · cases hv
          cases hunstable
        · cases hv
    · split at hv
      · next hcall => exact .call (hbare ▸ isRandom_iff.1 hcall)
      · cases hv
  · intro h
    cases h with
    | object h => exact ⟨_, by rw [h], rfl⟩
    | array h => exact ⟨_, by rw [h], rfl⟩
    | call h =>
      have hcall : isRandom part = true := isRandom_iff.2 (hbare.symm ▸ h)
      exact ⟨_, by simp only [h.kind_eq]; rw [if_pos hcall], rfl⟩
    | bound hkind h =>
      exact ⟨.randomVariable part.text, by simp [hkind, h], rfl⟩

/-- The verdict on a part is that it is the index iff it is, and not new at
the same time. -/
theorem verdictOn?_index_iff (hbare : part.bare = part) :
    (∃ v, verdictOn? random index part = some v ∧ v.isUnstable = false) ↔
      ¬ IsRenewed random part ∧ IsIndex index part := by
  constructor
  · rintro ⟨v, hv, hstable⟩
    have hold : ¬ IsRenewed random part := fun hnew => by
      obtain ⟨w, hw, hunstable⟩ := (verdictOn?_isUnstable_iff hbare).2 hnew
      obtain rfl := Option.some.inj (hv.symm.trans hw)
      rw [hstable] at hunstable
      cases hunstable
    refine ⟨hold, ?_⟩
    unfold verdictOn? at hv
    split at hv
    · next hkind => exact absurd (.object hkind) hold
    · next hkind => exact absurd (.array hkind) hold
    · next hkind =>
      split at hv
      · next hrandom =>
          exact absurd (.bound hkind (by simpa using hrandom)) hold
      · split at hv
        · next hindex => exact ⟨hkind, by simpa using hindex⟩
        · cases hv
    · split at hv
      · next hcall => exact absurd (.call (hbare ▸ isRandom_iff.1 hcall)) hold
      · cases hv
  · rintro ⟨hold, hkind, hindex⟩
    have hrandom : part.text ∉ random := fun h => hold (.bound hkind h)
    exact ⟨.index part.text, by simp [verdictOn?, hkind, hrandom, hindex], rfl⟩

/-! ### The verdict on the whole -/

theorem mem_verdicts_of_classify? (h : classify? random index value = some v) :
    v ∈ verdicts random index value := by
  rcases Option.or_eq_some_iff.1 h with hfind | ⟨-, hhead⟩
  · exact List.mem_of_find?_eq_some hfind
  · exact List.mem_of_head? hhead

/-- If there is a verdict on some part, there is one on the key. -/
theorem exists_classify?_of_mem (h : v ∈ verdicts random index value) :
    ∃ w, classify? random index value = some w := by
  refine Option.isSome_iff_exists.1 ?_
  unfold classify?
  simp [List.isSome_head?, List.ne_nil_of_mem h]

/-- An unstable verdict is not passed over for another one. -/
theorem isUnstable_of_classify? {w : Verdict}
    (h : classify? random index value = some v)
    (hw : w ∈ verdicts random index value) (hunstable : w.isUnstable = true) :
    v.isUnstable = true := by
  rcases Option.or_eq_some_iff.1 h with hfind | ⟨hnone, -⟩
  · exact List.find?_some hfind
  · exact absurd hunstable (List.find?_eq_none.1 hnone w hw)

/-- A key is unstable iff some part is new on every render. -/
theorem classify?_isUnstable_iff :
    (∃ v, classify? random index value = some v ∧ v.isUnstable = true) ↔
    ∃ part, Part value part ∧ IsRenewed random part := by
  constructor
  · rintro ⟨v, hv, hunstable⟩
    obtain ⟨part, hpart, hverdict⟩ :=
      mem_verdicts.1 (mem_verdicts_of_classify? hv)
    exact ⟨part, hpart, (verdictOn?_isUnstable_iff hpart.bare_eq).1
      ⟨v, hverdict, hunstable⟩⟩
  · rintro ⟨part, hpart, hnew⟩
    obtain ⟨w, hverdict, hunstable⟩ :=
      (verdictOn?_isUnstable_iff hpart.bare_eq).2 hnew
    have hw : w ∈ verdicts random index value :=
      mem_verdicts.2 ⟨part, hpart, hverdict⟩
    obtain ⟨v, hv⟩ := exists_classify?_of_mem hw
    exact ⟨v, hv, isUnstable_of_classify? hv hw hunstable⟩

/-- It is the index of a list iff no part is new, and some part is the
index. -/
theorem classify?_index_iff :
    (∃ v, classify? random index value = some v ∧ v.isUnstable = false) ↔
    (¬ ∃ part, Part value part ∧ IsRenewed random part) ∧
      ∃ part, Part value part ∧ IsIndex index part := by
  constructor
  · rintro ⟨v, hv, hstable⟩
    constructor
    · intro hnew
      obtain ⟨w, hw, hunstable⟩ := classify?_isUnstable_iff.2 hnew
      obtain rfl := Option.some.inj (hv.symm.trans hw)
      rw [hstable] at hunstable
      cases hunstable
    · obtain ⟨part, hpart, hverdict⟩ :=
        mem_verdicts.1 (mem_verdicts_of_classify? hv)
      exact ⟨part, hpart,
        ((verdictOn?_index_iff hpart.bare_eq).1 ⟨v, hverdict, hstable⟩).2⟩
  · rintro ⟨hold, part, hpart, hindex⟩
    obtain ⟨w, hverdict, -⟩ :=
      (verdictOn?_index_iff hpart.bare_eq).2
        ⟨fun hnew => hold ⟨part, hpart, hnew⟩, hindex⟩
    obtain ⟨v, hv⟩ := exists_classify?_of_mem
      (mem_verdicts.2 ⟨part, hpart, hverdict⟩)
    cases hstable : v.isUnstable with
    | false => exact ⟨v, hv, hstable⟩
    | true => exact absurd (classify?_isUnstable_iff.1 ⟨v, hv, hstable⟩) hold

/-- There is nothing to say about it iff no part is either. -/
theorem classify?_eq_none_iff : classify? random index value = none ↔
    (¬ ∃ part, Part value part ∧ IsRenewed random part) ∧
      ¬ ∃ part, Part value part ∧ IsIndex index part := by
  constructor
  · intro hnone
    have hold : ¬ ∃ part, Part value part ∧ IsRenewed random part :=
      fun hnew => by
      obtain ⟨v, hv, -⟩ := classify?_isUnstable_iff.2 hnew
      rw [hnone] at hv
      cases hv
    refine ⟨hold, fun hindex => ?_⟩
    obtain ⟨v, hv, -⟩ := classify?_index_iff.2 ⟨hold, hindex⟩
    rw [hnone] at hv
    cases hv
  · rintro ⟨hold, hnone⟩
    cases hv : classify? random index value with
    | none => rfl
    | some v =>
      cases hstable : v.isUnstable with
      | false => exact absurd (classify?_index_iff.1 ⟨v, hv, hstable⟩).2 hnone
      | true => exact absurd (classify?_isUnstable_iff.1 ⟨v, hv, hstable⟩) hold

end Keys

namespace Check

open Keys

/-- The code that a key is reported under, if it is. -/
def keyCode? (ctx : Context) (file : String) (random : List String)
    (index : Option String) (value : Node) :
    Option String :=
  (classify? random index value).map fun v =>
    (keyFinding ctx file value v).code.text

/-- The verdict decides on the code. -/
theorem code_keyFinding (ctx : Context) (file : String) (value : Node)
    (v : Verdict) :
    (keyFinding ctx file value v).code = if v.isUnstable then .unstableKey
      else .indexKey := rfl

/-- Every part of a key counts, and where it stands does not: a key is
reported as unstable iff some part of it is new on every render, as an index
iff no part is and some part is the index, and otherwise not at all. -/
theorem keyCode?_of_parts (ctx : Context) (file : String) (random : List String)
    (index : Option String) (value : Node) :
    (keyCode? ctx file random index value = some "RLD-408" ↔
      ∃ part, Part value part ∧ IsRenewed random part) ∧
    (keyCode? ctx file random index value = some "RLD-409" ↔
      (¬ ∃ part, Part value part ∧ IsRenewed random part) ∧
        ∃ part, Part value part ∧ IsIndex index part) ∧
    (keyCode? ctx file random index value = none ↔
      (¬ ∃ part, Part value part ∧ IsRenewed random part) ∧
        ¬ ∃ part, Part value part ∧ IsIndex index part) := by
  unfold keyCode?
  refine ⟨?_, ?_, ?_⟩
  · rw [← classify?_isUnstable_iff, Option.map_eq_some_iff]
    refine exists_congr fun v => and_congr_right fun _ => ?_
    rw [code_keyFinding]
    cases v.isUnstable <;> simp [Code.text]
  · rw [← classify?_index_iff, Option.map_eq_some_iff]
    refine exists_congr fun v => and_congr_right fun _ => ?_
    rw [code_keyFinding]
    cases v.isUnstable <;> simp [Code.text]
  · rw [Option.map_eq_none_iff, classify?_eq_none_iff]

end Check

end RenderLoop
