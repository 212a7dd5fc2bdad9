/-!
# Steps that may fail

A chain of steps succeeds iff each of them does, and fails with the first that
fails. For a step that is taken for every element of a list the results are
then the results of the single steps (`mem_of_mapM`), and the whole succeeds
as soon as every single step does (`exists_mapM`, `exists_filterM`).

Everything in the model that can fail returns an outcome, so these statements
come up wherever a result has to be taken apart: which step failed, and what
the steps before it had found. Two forms recur. One says what a result is made
of, if there is one; the other that there is a result at all. The second is
proved here for each way of putting steps together, so that a whole program
succeeds once its single steps do.

Searches stop at the first hit, and at the first failure before it:

> `findSomeM?_eq_error`, `findM?_eq_error`: a search fails iff a step does,
> and all steps before it have found nothing.

A step behind a hit is never taken. So a search can succeed although one of
its steps would fail.
-/

namespace RenderLoop

variable {ε α β : Type}

/-- Two steps succeed iff both do, the second with the result of the first. -/
theorem bind_eq_ok {x : Except ε α} {f : α → Except ε β} {b : β} :
    (x >>= f) = .ok b ↔ ∃ a, x = .ok a ∧ f a = .ok b := by
  cases x with
  | error e =>
    constructor
    · intro h
      cases h
    · rintro ⟨a, h, -⟩
      cases h
  | ok a =>
    constructor
    · intro h
      exact ⟨a, rfl, h⟩
    · rintro ⟨a', h, hb⟩
      cases h
      exact hb

/-- Two steps fail with the first failure. -/
theorem bind_eq_error {x : Except ε α} {f : α → Except ε β} {e : ε} :
    (x >>= f) = .error e ↔ x = .error e ∨ ∃ a, x = .ok a ∧ f a = .error e := by
  cases x with
  | error e' =>
    constructor
    · intro h
      cases h
      exact .inl rfl
    · rintro (h | ⟨a, h, -⟩)
      · cases h
        rfl
      · cases h
  | ok a =>
    constructor
    · intro h
      exact .inr ⟨a, rfl, h⟩
    · rintro (h | ⟨a', h, he⟩)
      · cases h
      · cases h
        exact he

/-- If the second step always succeeds, the first one decides. -/
theorem exists_bind {x : Except ε α} {f : α → Except ε β} (hx : ∃ a, x = .ok a)
    (hf : ∀ a, ∃ b, f a = .ok b) : ∃ b, (x >>= f) = .ok b := by
  obtain ⟨a, ha⟩ := hx
  obtain ⟨b, hb⟩ := hf a
  exact ⟨b, bind_eq_ok.2 ⟨a, ha, hb⟩⟩

/-- An outcome that passes a test of its value is a success. -/
theorem exists_of_any_toOption {x : Except ε α} {p : α → Bool}
    (h : x.toOption.any p = true) :
    ∃ a, x = .ok a ∧ p a = true := by
  cases x with
  | error e => cases h
  | ok a => exact ⟨a, rfl, h⟩

theorem toOption_eq_some {x : Except ε α} {a : α} :
    x.toOption = some a ↔ x = .ok a := by
  cases x <;> simp [Except.toOption]

section

variable {ε' : Type} {f : ε → ε'} {x : Except ε α}

theorem mapError_eq_ok {a : α} : x.mapError f = .ok a ↔ x = .ok a := by
  cases x with
  | error e => constructor <;> intro h <;> cases h
  | ok b => constructor <;> intro h <;> cases h <;> rfl

/-- A failure that is passed on under another name was one before. -/
theorem mapError_eq_error {e : ε'} :
    x.mapError f = .error e ↔ ∃ cause, x = .error cause ∧ e = f cause := by
  cases x with
  | error cause =>
    constructor
    · intro h
      cases h
      exact ⟨cause, rfl, rfl⟩
    · rintro ⟨other, h, rfl⟩
      cases h
      rfl
  | ok b =>
    constructor
    · intro h
      cases h
    · rintro ⟨cause, h, -⟩
      cases h

end

/-- A step for every element, taken apart at the first. -/
theorem mapM_cons_eq_ok {f : α → Except ε β} {a : α} {l : List α}
    {found : List β} :
    (a :: l).mapM f = .ok found ↔ ∃ b rest, f a = .ok b ∧ l.mapM f = .ok rest ∧
      found = b :: rest := by
  rw [List.mapM_cons]
  constructor
  · intro h
    obtain ⟨b, hb, h⟩ := bind_eq_ok.1 h
    obtain ⟨rest, hrest, h⟩ := bind_eq_ok.1 h
    cases h
    exact ⟨b, rest, hb, hrest, rfl⟩
  · rintro ⟨b, rest, hb, hrest, rfl⟩
    exact bind_eq_ok.2 ⟨b, hb, bind_eq_ok.2 ⟨rest, hrest, rfl⟩⟩

/-- The results of a step taken for every element are the results of the
single steps. -/
theorem mem_of_mapM {f : α → Except ε β} {l : List α} {found : List β}
    (h : l.mapM f = .ok found) {b : β} : b ∈ found ↔ ∃ a ∈ l, f a = .ok b := by
  induction l generalizing found with
  | nil =>
    cases h
    simp
  | cons a l ih =>
    obtain ⟨c, rest, hc, hrest, rfl⟩ := mapM_cons_eq_ok.1 h
    have ihRest := ih hrest
    constructor
    · intro hb
      rcases List.mem_cons.1 hb with rfl | hb
      · exact ⟨a, List.mem_cons_self, hc⟩
      · obtain ⟨x, hx, hfx⟩ := ihRest.1 hb
        exact ⟨x, List.mem_cons_of_mem _ hx, hfx⟩
    · rintro ⟨x, hx, hfx⟩
      rcases List.mem_cons.1 hx with rfl | hx
      · obtain rfl : c = b := Except.ok.inj (hc.symm.trans hfx)
        exact List.mem_cons_self
      · exact List.mem_cons_of_mem _ (ihRest.2 ⟨x, hx, hfx⟩)

/-- What the results keep of the elements, the list of results keeps of the
list. -/
theorem map_of_mapM {γ : Type} {f : α → Except ε β} {g : β → γ} {k : α → γ}
    (hkeep : ∀ a b, f a = .ok b → g b = k a) {l : List α} {found : List β}
    (h : l.mapM f = .ok found) : found.map g = l.map k := by
  induction l generalizing found with
  | nil =>
    cases h
    rfl
  | cons a l ih =>
    obtain ⟨b, rest, hb, hrest, rfl⟩ := mapM_cons_eq_ok.1 h
    rw [List.map_cons, List.map_cons, hkeep a b hb, ih hrest]

theorem exists_of_mapM {f : α → Except ε β} {l : List α} {found : List β}
    (h : l.mapM f = .ok found) {a : α} (ha : a ∈ l) : ∃ b, f a = .ok b := by
  induction l generalizing found with
  | nil => cases ha
  | cons c l ih =>
    obtain ⟨b, rest, hb, hrest, -⟩ := mapM_cons_eq_ok.1 h
    rcases List.mem_cons.1 ha with rfl | ha
    · exact ⟨b, hb⟩
    · exact ih hrest ha

/-- A result of a step taken for every element is that of an element, and the
results before it are those of the elements before that. -/
theorem exists_split_of_mapM {f : α → Except ε β} {l : List α}
    {before after : List β} {b : β}
    (h : l.mapM f = .ok (before ++ b :: after)) :
    ∃ front a rest, l = front ++ a :: rest ∧ f a = .ok b ∧
      ∀ c ∈ front, ∃ d ∈ before, f c = .ok d := by
  induction l generalizing before with
  | nil =>
    cases before <;> cases h
  | cons a l ih =>
    obtain ⟨d, found, hd, hfound, heq⟩ := mapM_cons_eq_ok.1 h
    cases before with
    | nil =>
      obtain ⟨rfl, rfl⟩ := List.cons.inj heq
      exact ⟨[], a, l, rfl, hd, fun c hc => absurd hc List.not_mem_nil⟩
    | cons d' before =>
      obtain ⟨rfl, rfl⟩ := List.cons.inj heq
      obtain ⟨front, c, rest, rfl, hc, hfront⟩ := ih hfound
      refine ⟨a :: front, c, rest, rfl, hc, fun c' hc' => ?_⟩
      rcases List.mem_cons.1 hc' with rfl | hc'
      · exact ⟨d', List.mem_cons_self, hd⟩
      · obtain ⟨d, hmem, hstep⟩ := hfront c' hc'
        exact ⟨d, List.mem_cons_of_mem _ hmem, hstep⟩

/-- A step taken for every element fails with the first failure, behind
elements for which it succeeds. -/
theorem exists_first_error {f : α → Except ε β} {l : List α} {e : ε}
    (h : l.mapM f = .error e) :
    ∃ before a after found, l = before ++ a :: after ∧
      before.mapM f = .ok found ∧ f a = .error e := by
  induction l with
  | nil => cases h
  | cons a l ih =>
    rw [List.mapM_cons] at h
    rcases bind_eq_error.1 h with h | ⟨b, hb, h⟩
    · exact ⟨[], a, l, [], rfl, rfl, h⟩
    · rcases bind_eq_error.1 h with h | ⟨rest, -, h⟩
      · obtain ⟨before, c, after, found, rfl, hbefore, hc⟩ := ih h
        exact ⟨a :: before, c, after, b :: found, rfl,
          mapM_cons_eq_ok.2 ⟨b, found, hb, hbefore, rfl⟩, hc⟩
      · cases h

/-- A step taken for every element fails with the failure of one of them. -/
theorem exists_of_mapM_error {f : α → Except ε β} {l : List α} {e : ε}
    (h : l.mapM f = .error e) :
    ∃ a ∈ l, f a = .error e := by
  obtain ⟨before, a, after, -, rfl, -, ha⟩ := exists_first_error h
  exact ⟨a, by simp, ha⟩

theorem map_eq_of_mapM {f : α → Except ε β} {l : List α} {found : List β}
    (h : l.mapM f = .ok found) :
    l.map f = found.map .ok := by
  induction l generalizing found with
  | nil =>
    cases h
    rfl
  | cons a l ih =>
    obtain ⟨b, rest, hb, hrest, rfl⟩ := mapM_cons_eq_ok.1 h
    rw [List.map_cons, List.map_cons, hb, ih hrest]

/-- If every single step succeeds, so does the whole. -/
theorem exists_mapM {f : α → Except ε β} {l : List α}
    (h : ∀ a ∈ l, ∃ b, f a = .ok b) :
    ∃ found, l.mapM f = .ok found := by
  induction l with
  | nil => exact ⟨[], rfl⟩
  | cons a l ih =>
    obtain ⟨b, hb⟩ := h a List.mem_cons_self
    obtain ⟨rest, hrest⟩ := ih fun x hx => h x (List.mem_cons_of_mem _ hx)
    exact ⟨b :: rest, mapM_cons_eq_ok.2 ⟨b, rest, hb, hrest, rfl⟩⟩

/-- The order in which a step is taken for the elements decides the order of
the results only. -/
theorem mapM_perm {f : α → Except ε β} {l l' : List α} (hperm : l.Perm l')
    {found : List β} (h : l.mapM f = .ok found) :
    ∃ found', l'.mapM f = .ok found' ∧ found.Perm found' := by
  induction hperm generalizing found with
  | nil => exact ⟨found, h, .refl _⟩
  | cons a _ ih =>
    obtain ⟨b, rest, hb, hrest, rfl⟩ := mapM_cons_eq_ok.1 h
    obtain ⟨rest', hrest', hperm⟩ := ih hrest
    exact ⟨b :: rest', mapM_cons_eq_ok.2 ⟨b, rest', hb, hrest', rfl⟩,
      hperm.cons b⟩
  | swap a a' l =>
    obtain ⟨b', rest', hb', hrest', rfl⟩ := mapM_cons_eq_ok.1 h
    obtain ⟨b, rest, hb, hrest, rfl⟩ := mapM_cons_eq_ok.1 hrest'
    refine ⟨b :: b' :: rest, mapM_cons_eq_ok.2 ⟨b, b' :: rest, hb, ?_, rfl⟩,
      .swap b b' rest⟩
    exact mapM_cons_eq_ok.2 ⟨b', rest, hb', hrest, rfl⟩
  | trans _ _ ih₁ ih₂ =>
    obtain ⟨mid, hmid, hperm₁⟩ := ih₁ h
    obtain ⟨found', hfound', hperm₂⟩ := ih₂ hmid
    exact ⟨found', hfound', hperm₁.trans hperm₂⟩

/-- What holds between the results of any two elements holds between any two
results. -/
theorem pairwise_of_mapM {R : α → α → Prop} {S : β → β → Prop}
    {f : α → Except ε β}
    (hR : ∀ a b x y, R a b → f a = .ok x → f b = .ok y → S x y) {l : List α}
    {found : List β}
    (hl : l.Pairwise R) (h : l.mapM f = .ok found) : found.Pairwise S := by
  induction l generalizing found with
  | nil =>
    cases h
    exact .nil
  | cons a l ih =>
    obtain ⟨hfirst, hrest⟩ := List.pairwise_cons.1 hl
    obtain ⟨x, ys, hx, hys, rfl⟩ := mapM_cons_eq_ok.1 h
    refine List.pairwise_cons.2 ⟨fun y hy => ?_, ih hrest hys⟩
    obtain ⟨b, hb, hfb⟩ := (mem_of_mapM hys).1 hy
    exact hR a b x y (hfirst b hb) hx hfb

theorem exists_filterAuxM {p : α → Except ε Bool} :
    ∀ l kept : List α, (∀ a ∈ l, ∃ keep, p a = .ok keep) →
      ∃ found, l.filterAuxM p kept = .ok found
  | [], kept, _ => ⟨kept, rfl⟩
  | a :: l, kept, h => by
    obtain ⟨keep, hkeep⟩ := h a List.mem_cons_self
    obtain ⟨found, hfound⟩ :=
      exists_filterAuxM l (cond keep (a :: kept) kept) fun x hx =>
      h x (List.mem_cons_of_mem _ hx)
    exact ⟨found, bind_eq_ok.2 ⟨keep, hkeep, hfound⟩⟩

/-- And so does picking elements out by a test that may fail. -/
theorem exists_filterM {p : α → Except ε Bool} {l : List α}
    (h : ∀ a ∈ l, ∃ keep, p a = .ok keep) :
    ∃ found, l.filterM p = .ok found := by
  obtain ⟨found, hfound⟩ := exists_filterAuxM l [] h
  exact ⟨found.reverse, bind_eq_ok.2 ⟨found, hfound, rfl⟩⟩

/-!
### Searches

A search asks one element after the other and stops at the first that answers,
or at the first failure.
-/

section

variable {f : α → Except ε (Option β)} {p : α → Except ε Bool}
  {l : List α} {e : ε}

/-- A search fails at the first element that does, if none before it answers. -/
theorem findSomeM?_eq_error : l.findSomeM? f = .error e ↔
    ∃ front a rest, l = front ++ a :: rest ∧ (∀ b ∈ front, f b = .ok none) ∧
      f a = .error e := by
  induction l with
  | nil =>
    refine ⟨fun h => absurd h (by simp [pure, Except.pure]), ?_⟩
    rintro ⟨front, a, rest, h, -⟩
    cases front <;> cases h
  | cons a l ih =>
    have hcases : (∃ front d rest, a :: l = front ++ d :: rest ∧
        (∀ b ∈ front, f b = .ok none) ∧ f d = .error e) ↔
        f a = .error e ∨ f a = .ok none ∧
          ∃ front d rest, l = front ++ d :: rest ∧
          (∀ b ∈ front, f b = .ok none) ∧ f d = .error e := by
      constructor
      · rintro ⟨front, d, rest, hl, hfront, hd⟩
        cases front with
        | nil =>
          cases hl
          exact .inl hd
        | cons b front =>
          cases hl
          obtain ⟨ha, hfront⟩ := List.forall_mem_cons.1 hfront
          exact .inr ⟨ha, front, d, rest, rfl, hfront, hd⟩
      · rintro (ha | ⟨ha, front, d, rest, rfl, hfront, hd⟩)
        · exact ⟨[], a, l, rfl, fun _ h => absurd h List.not_mem_nil, ha⟩
        · exact ⟨a :: front, d, rest, rfl,
            List.forall_mem_cons.2 ⟨ha, hfront⟩, hd⟩
    rw [hcases, ← ih, List.findSomeM?_cons]
    cases ha : f a with
    | error e' => simp [bind, Except.bind]
    | ok answer => cases answer <;> simp [bind, Except.bind, pure, Except.pure]

/-- Nothing is found iff every step succeeds and finds nothing. -/
theorem findSomeM?_eq_none :
    l.findSomeM? f = .ok none ↔ ∀ a ∈ l, f a = .ok none := by
  induction l with
  | nil => simp [pure, Except.pure]
  | cons a l ih =>
    rw [List.forall_mem_cons, ← ih, List.findSomeM?_cons]
    cases ha : f a with
    | error e => simp [bind, Except.bind]
    | ok answer => cases answer <;> simp [bind, Except.bind, pure, Except.pure]

/-- What is found was found at some element. -/
theorem exists_of_findSomeM? {b : β} (h : l.findSomeM? f = .ok (some b)) :
    ∃ a ∈ l, f a = .ok (some b) := by
  induction l with
  | nil => cases h
  | cons a l ih =>
    rw [List.findSomeM?_cons] at h
    obtain ⟨answer, hanswer, h⟩ := bind_eq_ok.1 h
    cases answer with
    | some c =>
      cases h
      exact ⟨a, List.mem_cons_self, hanswer⟩
    | none =>
      obtain ⟨c, hc, hb⟩ := ih h
      exact ⟨c, List.mem_cons_of_mem _ hc, hb⟩

/-- The element itself, if it passes a test. -/
def kept (p : α → Except ε Bool) (a : α) : Except ε (Option α) := do
  return if ← p a then some a else none

/-- A test fails, or keeps the element, or does not. -/
theorem kept_cases (p : α → Except ε Bool) (a : α) :
    (∃ e, p a = .error e ∧ kept p a = .error e) ∨
      (p a = .ok true ∧ kept p a = .ok (some a)) ∨
      (p a = .ok false ∧ kept p a = .ok none) := by
  unfold kept
  cases hp : p a with
  | error e => exact .inl ⟨e, rfl, rfl⟩
  | ok passes =>
    cases passes with
    | true => exact .inr (.inl ⟨rfl, rfl⟩)
    | false => exact .inr (.inr ⟨rfl, rfl⟩)

theorem kept_eq_none {a : α} : kept p a = .ok none ↔ p a = .ok false := by
  rcases kept_cases p a with ⟨e, hp, hk⟩ | ⟨hp, hk⟩ | ⟨hp, hk⟩ <;> simp [hp, hk]

theorem kept_eq_error {a : α} : kept p a = .error e ↔ p a = .error e := by
  rcases kept_cases p a with ⟨e', hp, hk⟩ | ⟨hp, hk⟩ | ⟨hp, hk⟩ <;>
    simp [hp, hk]

/-- Looking for an element is looking for what the test keeps. -/
theorem findM?_eq : l.findM? p = l.findSomeM? (kept p) :=
  List.findM?_eq_findSomeM?

/-- The search fails iff a test does, and no element before has passed its
test. -/
theorem findM?_eq_error : l.findM? p = .error e ↔
    ∃ front a rest, l = front ++ a :: rest ∧ (∀ b ∈ front, p b = .ok false) ∧
      p a = .error e := by
  simp only [findM?_eq, findSomeM?_eq_error, kept_eq_none, kept_eq_error]

theorem findM?_eq_none : l.findM? p = .ok none ↔ ∀ a ∈ l, p a = .ok false := by
  simp only [findM?_eq, findSomeM?_eq_none, kept_eq_none]

/-- The element found is in the list and passes the test. -/
theorem mem_of_findM? {a : α} (h : l.findM? p = .ok (some a)) :
    a ∈ l ∧ p a = .ok true := by
  rw [findM?_eq] at h
  obtain ⟨b, hb, hkept⟩ := exists_of_findSomeM? h
  rcases kept_cases p b with ⟨e, -, hk⟩ | ⟨hp, hk⟩ | ⟨-, hk⟩
  · cases hk.symm.trans hkept
  · cases hk.symm.trans hkept
    exact ⟨hb, hp⟩
  · cases hk.symm.trans hkept

end

end RenderLoop
