import RenderLoop.Finding.Basic

/-!
# The order of findings

Findings are compared by one part of their key after another. Each part is
compared in a linear order, so the comparison is total and transitive, and
sorting by it is stable:

> `filter_sort`: picking findings out of the sorted ones gives the picked
> findings, sorted.

What is said about one file can thus be read off the findings of all files.

A key has several parts, and the comparison looks at the next part only if the
former are equal. `le_total_of_part` and `le_trans_of_part` are the step for
one part; the statements about whole keys are these steps put together, so
that a change to the parts of the key touches only the two short proofs below.

For the last step the sort itself does not matter. A stable sort keeps the
order among the elements that are picked, which is proved here once for the
library's merge sort (`filter_mergeSort`).
-/

namespace RenderLoop

section

variable {α : Type} {le : α → α → Bool} {p : α → Bool}

/-- A list has one cut in front of which a property fails and behind which it
holds. -/
theorem cut_unique {l₁ l₂ m₁ m₂ : List α} (h : l₁ ++ l₂ = m₁ ++ m₂)
    (hl₁ : ∀ a ∈ l₁, p a = false) (hl₂ : ∀ a ∈ l₂, p a = true)
    (hm₁ : ∀ a ∈ m₁, p a = false)
    (hm₂ : ∀ a ∈ m₂, p a = true) : l₁ = m₁ ∧ l₂ = m₂ := by
  have hcut : ∀ front back : List α, (∀ a ∈ front, p a = false) →
      (∀ a ∈ back, p a = true) → (front ++ back).filter (!p ·) = front ∧
      (front ++ back).filter p = back := by
    intro front back hfront hback
    constructor
    · rw [List.filter_append, List.filter_eq_self.2 (by simpa using hfront),
        List.filter_eq_nil_iff.2 (by simpa using hback), List.append_nil]
    · rw [List.filter_append, List.filter_eq_nil_iff.2 (by simpa using hfront),
        List.filter_eq_self.2 hback, List.nil_append]
  constructor
  · rw [← (hcut l₁ l₂ hl₁ hl₂).1, h, (hcut m₁ m₂ hm₁ hm₂).1]
  · rw [← (hcut l₁ l₂ hl₁ hl₂).2, h, (hcut m₁ m₂ hm₁ hm₂).2]

/-- Picking elements out of a sorted list and sorting the picked ones comes to
the same. -/
theorem filter_mergeSort
    (htrans : ∀ a b c, le a b = true → le b c = true → le a c = true)
    (htotal : ∀ a b, (le a b || le b a) = true) (p : α → Bool) (l : List α) :
    (l.mergeSort le).filter p = (l.filter p).mergeSort le := by
  induction l with
  | nil => simp
  | cons a l ih =>
    obtain ⟨l₁, l₂, hsorted, hrest, hl₁⟩ :=
      List.mergeSort_cons htrans htotal a l
    rw [hrest, List.filter_append] at ih
    by_cases ha : p a = true
    · obtain ⟨m₁, m₂, hpicked, hothers, hm₁⟩ :=
        List.mergeSort_cons htrans htotal a (l.filter p)
      rw [hothers] at ih
      -- the first element goes in front of the first that is not smaller, in
      -- both lists
      have hbehind : ∀ {front back rest : List α}, (a :: rest).mergeSort le =
          front ++ a :: back → ∀ b ∈ back, le a b = true := by
        intro front back rest h
        have hpairwise := List.pairwise_mergeSort htrans htotal (a :: rest)
        rw [h] at hpairwise
        exact (List.pairwise_cons.1 (List.pairwise_append.1 hpairwise).2.1).1
      obtain ⟨h₁, h₂⟩ := cut_unique ih
        (fun b hb => by simpa using hl₁ b (List.mem_filter.1 hb).1)
        (fun b hb => hbehind hsorted b (List.mem_filter.1 hb).1)
        (fun b hb => by simpa using hm₁ b hb) (hbehind hpicked)
      rw [hsorted, List.filter_append, List.filter_cons_of_pos ha,
        List.filter_cons_of_pos ha, hpicked, h₁, h₂]
    · rw [hsorted, List.filter_append, List.filter_cons_of_neg ha,
        List.filter_cons_of_neg ha, ih]

end

namespace Finding

section

variable {κ : Type} [LT κ] [DecidableEq κ] [DecidableLT κ]
  {r : SortKey → SortKey → Bool}

/-- A comparison by one part of a key, and by the rest where the parts are
equal, is total. -/
theorem le_total_of_part [Std.Trichotomous (α := κ) (· < ·)]
    (part : SortKey → κ) (hr : ∀ a b, (r a b || r b a) = true) (a b : SortKey) :
    ((if part a ≠ part b then decide (part a < part b) else r a b) ||
      (if part b ≠ part a then decide (part b < part a) else r b a)) =
        true := by
  by_cases h : part a = part b
  · rw [if_neg (not_not_intro h), if_neg (not_not_intro h.symm)]
    exact hr a b
  · rw [if_pos h, if_pos (Ne.symm h)]
    rcases Std.lt_trichotomy (part a) (part b) with hlt | heq | hlt
    · simp [hlt]
    · exact absurd heq h
    · simp [hlt]

/-- Such a comparison is transitive. -/
theorem le_trans_of_part
    [Trans (α := κ) (β := κ) (γ := κ) (· < ·) (· < ·) (· < ·)]
    [Std.Irrefl (α := κ) (· < ·)] (part : SortKey → κ)
    (hr : ∀ a b c, r a b = true → r b c = true → r a c = true) (a b c : SortKey)
    (hab : (if part a ≠ part b then decide (part a < part b) else r a b) = true)
    (hbc : (if part b ≠ part c then decide (part b < part c)
      else r b c) = true) :
    (if part a ≠ part c then decide (part a < part c) else r a c) = true := by
  by_cases h₁ : part a = part b
  · rw [if_neg (not_not_intro h₁)] at hab
    rw [h₁]
    by_cases h₂ : part b = part c
    · rw [if_neg (not_not_intro h₂)] at hbc ⊢
      exact hr a b c hab hbc
    · rw [if_pos h₂] at hbc ⊢
      exact hbc
  · rw [if_pos h₁] at hab
    have hlt := of_decide_eq_true hab
    by_cases h₂ : part b = part c
    · rw [← h₂, if_pos h₁]
      exact hab
    · rw [if_pos h₂] at hbc
      have hac : part a < part c := Std.lt_trans hlt (of_decide_eq_true hbc)
      have hne : part a ≠ part c := by
        intro heq
        rw [heq] at hac
        exact Std.lt_irrefl hac
      rw [if_pos hne]
      exact decide_eq_true hac

end

/-- Any two keys can be compared. -/
theorem SortKey.le_total (a b : SortKey) : (a.le b || b.le a) = true := by
  have hsetter : ∀ a b : SortKey,
      (decide (a.setter ≤ b.setter) || decide (b.setter ≤ a.setter)) =
        true := by
    intro a b
    simpa using String.le_total a.setter b.setter
  have hdependency :=
    le_total_of_part (r := fun a b => decide (a.setter ≤ b.setter))
    dependency hsetter
  exact le_total_of_part file (le_total_of_part line (le_total_of_part column
    (le_total_of_part code hdependency))) a b

/-- The comparison of keys is transitive, part by part. -/
theorem SortKey.le_trans (a b c : SortKey) :
    a.le b = true → b.le c = true → a.le c = true := by
  have hsetter : ∀ a b c : SortKey, decide (a.setter ≤ b.setter) = true →
      decide (b.setter ≤ c.setter) = true →
        decide (a.setter ≤ c.setter) = true := by
    intro a b c hab hbc
    exact decide_eq_true
      (String.le_trans (of_decide_eq_true hab) (of_decide_eq_true hbc))
  have hdependency :=
    le_trans_of_part (r := fun a b => decide (a.setter ≤ b.setter))
    dependency hsetter
  exact le_trans_of_part file (le_trans_of_part line (le_trans_of_part column
    (le_trans_of_part code hdependency))) a b c

/-- Picking findings out and sorting can be exchanged. -/
theorem filter_sort (p : Finding → Bool) (fs : List Finding) :
    (sort fs).filter p = sort (fs.filter p) :=
  filter_mergeSort (fun f g k => SortKey.le_trans f.sortKey g.sortKey k.sortKey)
    (fun f g => SortKey.le_total f.sortKey g.sortKey) p fs

end Finding

end RenderLoop
