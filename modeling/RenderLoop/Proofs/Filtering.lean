import RenderLoop.Finding.Rules
import Mathlib.Data.List.Forall2

/-!
# What filtering a report does

A finding is reported if its code is on, and if it is either a safe pattern
that is asked for or of a kind, severity and confidence that are asked for.
The severity that counts is the one the rules give it, and that is the one it
is reported with.

> `RuleSet.filter_eq`: the reported findings are those that the rules admit,
> in their order, each with the severity it is given.

A second pass sees the severities the first one gave, and gives the same ones
(`RuleSet.assigned_assigned`). Rules that ask for more admit less
(`RuleSet.Admits.of_tightens`):

> `RuleSet.filter_selects`: filtering is a selection in the order of its
> input, which changes at most severities, does nothing the second time, and
> loses findings but never gains any when more is asked for.

Everything follows from a description of one finding (`reported?_eq_some`): it
is dropped, or it passes with an assigned severity. Filtering twice asks
whether a finding that passed would pass again. It does, because the rules
give a severity by the code of a finding, and that stays the same
(`severityOf_assigned`). Stricter rules assign the same severities and ask for
more of them, so what they let through is a sublist.
-/

namespace RenderLoop

theorem Level.not_lt_iff_le {a b : Level} : ¬ a < b ↔ b ≤ a := Nat.not_lt

theorem Level.le_trans {a b c : Level} (hab : a ≤ b) (hbc : b ≤ c) : a ≤ c :=
  Nat.le_trans hab hbc

namespace RuleSet

/-- The rules let a finding pass. -/
inductive Admits (r : RuleSet) (f : Finding) : Prop
  /-- A safe pattern, whatever its severity and confidence. -/
  | safe (hon : r.overrides.get? f.code.text ≠ some none)
      (hsafe : f.isSafe = true) (hshown : r.showSafe = true)
  /-- A finding that meets all demands; the severity is the one the rules give
  it. -/
  | issue (hon : r.overrides.get? f.code.text ≠ some none)
      (hissue : f.isSafe = false)
      (hconfirmed : r.confirmedOnly = true → f.kind = .confirmed)
      (hpotential : f.kind = .potential → r.includePotential = true)
      (hseverity : r.minSeverity ≤ r.severityOf f)
      (hconfidence : r.minConfidence ≤ f.confidence)

/-- A finding with the severity under which it is reported. Safe patterns keep
their own. -/
def assigned (r : RuleSet) (f : Finding) : Finding :=
  if f.isSafe then f else { f with severity := r.severityOf f }

/-- `strict` has the same overrides as `loose`, treats safe patterns alike and
asks for no less. -/
structure Tightens (strict loose : RuleSet) : Prop where
  overrides : strict.overrides = loose.overrides
  showSafe : strict.showSafe = loose.showSafe
  minSeverity : loose.minSeverity ≤ strict.minSeverity
  minConfidence : loose.minConfidence ≤ strict.minConfidence
  confirmedOnly : loose.confirmedOnly = true → strict.confirmedOnly = true
  includePotential : strict.includePotential = true →
    loose.includePotential = true

variable {r strict loose : RuleSet} {f g : Finding}

/-! ### One finding -/

theorem isEnabled_eq_true {code : Code} :
    r.isEnabled code = true ↔ r.overrides.get? code.text ≠ some none := by
  simp [isEnabled]

/-- A finding is reported iff the rules admit it, and then with the severity
they assign. -/
theorem reported?_eq_some :
    r.reported? f = some g ↔ r.Admits f ∧ r.assigned f = g := by
  unfold reported? assigned
  by_cases hon : r.isEnabled f.code = true
  · have hon' := isEnabled_eq_true.1 hon
    simp only [hon, Bool.not_true, Bool.false_eq_true, if_false]
    -- a safe pattern meets none of the demands on issues
    by_cases hsafe : f.isSafe = true
    · simp only [hsafe, if_true]
      constructor
      · intro h
        split at h
        · next hshown => exact ⟨.safe hon' hsafe hshown, Option.some.inj h⟩
        · cases h
      · rintro ⟨hadmits, rfl⟩
        cases hadmits with
        | safe _ _ hshown => rw [if_pos hshown]
        | issue _ hissue => rw [hsafe] at hissue; cases hissue
    · have hissue : f.isSafe = false := Bool.eq_false_iff.2 hsafe
      simp only [hissue, Bool.false_eq_true, if_false]
      constructor
      · intro h
        split at h
        · cases h
        next hconfirmed =>
          split at h
          · cases h
          next hpotential =>
            split at h
            · cases h
            next hlevels =>
              rw [not_or, Level.not_lt_iff_le, Level.not_lt_iff_le] at hlevels
              refine ⟨.issue hon' hissue (fun h => ?_) (fun h => ?_) hlevels.1
                hlevels.2, Option.some.inj h⟩
              · simpa [h] using hconfirmed
              · simpa [h] using hpotential
      · rintro ⟨hadmits, rfl⟩
        cases hadmits with
        | safe _ hsafe' => rw [hissue] at hsafe'; cases hsafe'
        | issue _ _ hconfirmed hpotential hseverity hconfidence =>
          have hlevels : ¬ (r.severityOf f < r.minSeverity ∨
              f.confidence < r.minConfidence) :=
            not_or.2 ⟨Level.not_lt_iff_le.2 hseverity,
              Level.not_lt_iff_le.2 hconfidence⟩
          have hkind : ¬ (!r.includePotential && f.kind == .potential) =
              true := by
            simp only [Bool.and_eq_true, Bool.not_eq_true', beq_iff_eq, not_and]
            intro hoff hkind
            rw [hpotential hkind] at hoff
            cases hoff
          rw [if_neg (by simpa using hconfirmed), if_neg hkind, if_neg hlevels]
  · simp only [hon, Bool.not_false, if_true, reduceCtorEq, false_iff]
    rintro ⟨hadmits, -⟩
    cases hadmits with
    | safe hon' => exact hon (isEnabled_eq_true.2 hon')
    | issue hon' => exact hon (isEnabled_eq_true.2 hon')

instance (r : RuleSet) (f : Finding) : Decidable (r.Admits f) :=
  decidable_of_iff ((r.reported? f).isSome = true) <| by
    rw [Option.isSome_iff_exists]
    exact ⟨fun ⟨_, h⟩ => (reported?_eq_some.1 h).1,
      fun h => ⟨_, reported?_eq_some.2 ⟨h, rfl⟩⟩⟩

theorem reported?_eq (r : RuleSet) (f : Finding) :
    r.reported? f = if r.Admits f then some (r.assigned f) else none := by
  split
  · next h => exact reported?_eq_some.2 ⟨h, rfl⟩
  · next h =>
    refine Option.eq_none_iff_forall_ne_some.2 fun g hg =>
      h (reported?_eq_some.1 hg).1

theorem assigned_of_isSafe (r : RuleSet) (hsafe : f.isSafe = true) :
    r.assigned f = f := if_pos hsafe

theorem assigned_of_not_isSafe (r : RuleSet) (hissue : f.isSafe = false) :
    r.assigned f = { f with severity := r.severityOf f } :=
  if_neg (by simp [hissue])

theorem exists_assigned_eq (r : RuleSet) (f : Finding) :
    ∃ s, r.assigned f = { f with severity := s } := by
  unfold assigned
  split
  · exact ⟨f.severity, rfl⟩
  · exact ⟨_, rfl⟩

/-! ### The severity that is given -/

/-- Assigning a severity does not make a pattern safe or unsafe. -/
theorem isSafe_assigned (r : RuleSet) (f : Finding) :
    (r.assigned f).isSafe = f.isSafe := by
  obtain ⟨s, hs⟩ := r.exists_assigned_eq f
  rw [hs]
  rfl

/-- The severity given to a finding does not depend on the one it has, except
where none is set. -/
theorem severityOf_assigned (r : RuleSet) (hissue : f.isSafe = false) :
    r.severityOf (r.assigned f) = r.severityOf f := by
  rw [r.assigned_of_not_isSafe hissue]
  simp only [severityOf]
  cases r.severityFor? f.code <;> rfl

/-- A severity that is assigned twice is the one assigned first. -/
theorem assigned_assigned (r : RuleSet) (f : Finding) :
    r.assigned (r.assigned f) = r.assigned f := by
  by_cases hsafe : f.isSafe = true
  · rw [r.assigned_of_isSafe hsafe, r.assigned_of_isSafe hsafe]
  · have hissue : f.isSafe = false := Bool.eq_false_iff.2 hsafe
    rw [r.assigned_of_not_isSafe ((r.isSafe_assigned f).trans hissue),
      r.severityOf_assigned hissue, r.assigned_of_not_isSafe hissue]

/-- What was admitted is admitted again. -/
theorem Admits.assigned (h : r.Admits f) : r.Admits (r.assigned f) := by
  cases h with
  | safe hon hsafe hshown =>
    rw [r.assigned_of_isSafe hsafe]
    exact .safe hon hsafe hshown
  | issue hon hissue hconfirmed hpotential hseverity hconfidence =>
    have hlevel := r.severityOf_assigned hissue
    obtain ⟨s, hs⟩ := r.exists_assigned_eq f
    rw [hs] at hlevel ⊢
    exact .issue hon hissue hconfirmed hpotential
      (hlevel.symm ▸ hseverity) hconfidence

/-! ### Asking for more -/

/-- Asking for more changes no severity. -/
theorem Tightens.assigned_eq (h : Tightens strict loose) :
    strict.assigned = loose.assigned := by
  funext f
  unfold RuleSet.assigned severityOf severityFor?
  rw [h.overrides]

/-- What the stricter rules admit the looser ones do, too. -/
theorem Admits.of_tightens (h : Tightens strict loose)
    (hadmits : strict.Admits f) : loose.Admits f := by
  cases hadmits with
  | safe hon hsafe hshown =>
    rw [h.overrides] at hon
    exact .safe hon hsafe (h.showSafe ▸ hshown)
  | issue hon hissue hconfirmed hpotential hseverity hconfidence =>
    have hlevel : strict.severityOf f = loose.severityOf f := by
      unfold severityOf severityFor?
      rw [h.overrides]
    rw [h.overrides] at hon
    refine .issue hon hissue (fun hc => hconfirmed (h.confirmedOnly hc))
      (fun hp => h.includePotential (hpotential hp)) ?_
        (Level.le_trans h.minConfidence hconfidence)
    exact Level.le_trans h.minSeverity (hlevel ▸ hseverity)

/-! ### All findings -/

/-- Filtering keeps the admitted findings and assigns their severities. -/
theorem filter_eq (r : RuleSet) (fs : List Finding) :
    r.filter fs = (fs.filter fun f => decide (r.Admits f)).map r.assigned := by
  unfold filter
  induction fs with
  | nil => rfl
  | cons f fs ih =>
    rw [List.filterMap_cons, reported?_eq]
    by_cases h : r.Admits f
    · rw [if_pos h, List.filter_cons_of_pos (by simpa using h),
        List.map_cons, ih]
    · rw [if_neg h, List.filter_cons_of_neg (by simpa using h), ih]

/-- Filtering a second time does nothing. -/
theorem filter_filter (r : RuleSet) (fs : List Finding) :
    r.filter (r.filter fs) = r.filter fs := by
  -- the second pass sees severities that the first has given
  have hagain : ∀ g ∈ r.filter fs, r.Admits g ∧ r.assigned g = g := by
    intro g hg
    obtain ⟨f, -, hf⟩ := List.mem_filterMap.1 hg
    obtain ⟨hadmits, rfl⟩ := reported?_eq_some.1 hf
    exact ⟨hadmits.assigned, r.assigned_assigned f⟩
  rw [filter_eq r (r.filter fs), List.filter_eq_self.2 fun g hg =>
    decide_eq_true (hagain g hg).1]
  conv_rhs => rw [← List.map_id (r.filter fs)]
  exact List.map_congr_left fun g hg => (hagain g hg).2

/-- Stricter rules report a part of what the looser ones do, in the same
order. -/
theorem Tightens.filter_sublist (h : Tightens strict loose)
    (fs : List Finding) :
    (strict.filter fs).Sublist (loose.filter fs) := by
  rw [filter_eq, filter_eq, h.assigned_eq]
  refine List.Sublist.map _ (List.monotone_filter_right fs fun f hf => ?_)
  exact decide_eq_true ((of_decide_eq_true hf).of_tightens h)

/-- Filtering selects: it keeps what the rules admit, in order, and changes
nothing of it but the severity; filtering once more changes nothing; and
asking for more leaves out more. -/
theorem filter_selects (r : RuleSet) (fs : List Finding) :
    (∃ kept, kept.Sublist fs ∧ (∀ f ∈ fs, f ∈ kept ↔ r.Admits f) ∧
      r.filter fs = kept.map r.assigned ∧
      List.Forall₂ (fun f g => ∃ s, g = { f with severity := s }) kept
        (r.filter fs)) ∧
    r.filter (r.filter fs) = r.filter fs ∧
    ∀ strict : RuleSet, strict.Tightens r →
      (strict.filter fs).Sublist (r.filter fs) := by
  refine ⟨⟨fs.filter fun f => decide (r.Admits f), List.filter_sublist,
    fun f hf => ?_, r.filter_eq fs, ?_⟩, r.filter_filter fs, fun strict h =>
    h.filter_sublist fs⟩
  · simp [hf]
  · rw [filter_eq, List.forall₂_map_right_iff]
    exact List.forall₂_same.2 fun f _ => r.exists_assigned_eq f

/-- A finding on the key of an element. -/
def keyReport (code : Code) (severity : Level) : Finding where
  kind := .potential
  code := code
  category := .warning
  severity := severity
  confidence := .high
  file := "List.tsx"
  line := 1
  hook := "key-prop"
  dependency := "i"
  explanation := ""

/-- Rules that switch one code off and raise another. -/
def keyRules (least : Level) : RuleSet :=
  { overrides := [("RLD-409", none), ("RLD-408", some .high)],
    minSeverity := least }

theorem filter_selects_keys :
    let found := [keyReport .indexKey .low, keyReport .unstableKey .medium,
      keyReport .memoProp .medium]
    Tightens (keyRules .high) (keyRules .medium) ∧
      ((keyRules .high).filter found).Sublist
        ((keyRules .medium).filter found) ∧
      (keyRules .medium).filter ((keyRules .medium).filter found) =
        (keyRules .medium).filter found ∧
      ((keyRules .medium).filter found).map (fun f => (f.code, f.severity)) =
        [(.unstableKey, .high), (.memoProp, .medium)] ∧
      ((keyRules .high).filter found).map (fun f => (f.code, f.severity)) =
        [(.unstableKey, .high)] := by
  intro found
  have htightens : Tightens (keyRules .high) (keyRules .medium) :=
    ⟨rfl, rfl, by decide, by decide, by decide, by decide⟩
  obtain ⟨-, hagain, hstrict⟩ := filter_selects (keyRules .medium) found
  exact ⟨htightens, hstrict _ htightens, hagain, by decide, by decide⟩

end RuleSet

end RenderLoop
