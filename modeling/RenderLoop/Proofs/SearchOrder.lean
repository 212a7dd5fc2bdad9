import RenderLoop.Proofs.Search
import Mathlib.Data.List.Nodup
import Mathlib.Data.List.Perm.Subperm

/-!
# What a search finds first

A search that looks for something takes the first node of the walk that has it
(`Space.find?`). The nodes that are pending are walked one after the other,
each without what was seen before, so what is found could depend on everything
that was walked earlier. It does not: what was walked in vain leads nowhere
else.

> `find?_visitFrom_of_barren`: nodes that have nothing, and lead to seen nodes
> only, may be left out.

> `findSome?_visitFrom_cons`: the search finds what the first pending node
> leads to, and if that is nothing, what the next one leads to, each as if it
> stood alone.

> `find?_eq_or`: a search from one node finds what it has itself, or what the
> first of its ways finds that leads anywhere in the space without the node.

The proofs compare walks that have seen different things. A walk is not
changed by seen nodes that it would not meet anyway (`visitFrom_congr`), and a
part of it that finds nothing is barren: it leads to what was seen, and to
itself (`barren_visitFrom`). So what has been walked in vain can be forgotten,
which is the step from one way on to the next.
-/

namespace RenderLoop

namespace Space

open Relation (ReflTransGen)

variable {α β : Type} [DecidableEq α]

/-- What the first node of the walk has to give. -/
def find? (s : Space α) (p : α → Option β) : Option β := s.visit.findSome? p

omit [DecidableEq α] in
theorem inside_of_start_eq {s : Space α} {a : α} (h : s.start = [a]) :
    ∀ b ∈ [a], s.Inside b := by
  rw [← h]
  exact s.inside_of_start

/-! ### What is found at all -/

/-- What is found is what a node has that can be reached. -/
theorem exists_of_find?_eq_some {s : Space α} {p : α → Option β} {b : β}
    (h : s.find? p = some b) :
    ∃ a ∈ s.start, ∃ c, ReflTransGen s.Step a c ∧ p c = some b := by
  obtain ⟨c, hc, hb⟩ := List.exists_of_findSome?_eq_some h
  obtain ⟨a, ha, hreach⟩ := s.mem_visit.1 hc
  exact ⟨a, ha, c, hreach, hb⟩

/-- A search finds nothing iff nothing that it can reach has anything. -/
theorem find?_eq_none_iff {s : Space α} {p : α → Option β} :
    s.find? p = none ↔
      ∀ a ∈ s.start, ∀ c, ReflTransGen s.Step a c → p c = none := by
  unfold find?
  rw [List.findSome?_eq_none_iff]
  constructor
  · intro h a ha c hreach
    exact h c (s.mem_visit.2 ⟨a, ha, hreach⟩)
  · intro h c hc
    obtain ⟨a, ha, hreach⟩ := s.mem_visit.1 hc
    exact h a ha c hreach

/-! ### How long it takes -/

/-- A walk lists no node twice, and none that was seen before. -/
theorem nodup_visitFrom (s : Space α) (seen pending : List α)
    (h : ∀ a ∈ pending, s.Inside a) :
    (s.visitFrom seen pending h).Nodup ∧
      ∀ a ∈ s.visitFrom seen pending h, a ∉ seen := by
  fun_induction visitFrom s seen pending h with
  | case1 => exact ⟨.nil, fun _ ha => absurd ha List.not_mem_nil⟩
  | case2 _ _ _ _ _ _ ih => exact ih
  | case3 seen a rest _ hs _ ih =>
    obtain ⟨ihNodup, ihSeen⟩ := ih
    refine ⟨List.nodup_cons.2 ⟨fun ha => ihSeen a ha List.mem_cons_self,
      ihNodup⟩, fun b hb => ?_⟩
    rcases List.mem_cons.1 hb with rfl | hb
    · exact hs
    · exact fun hseen => ihSeen b hb (List.mem_cons_of_mem _ hseen)

/-- Every node is visited at most once. -/
theorem nodup_visit (s : Space α) : s.visit.Nodup :=
  (s.nodup_visitFrom [] s.start s.inside_of_start).1

/-- A walk is no longer than any list that holds the start and that no step
leads out of. -/
theorem length_visit_le (s : Space α) {domain : List α}
    (hstart : ∀ a ∈ s.start, a ∈ domain)
    (hnext : ∀ a ∈ domain, ∀ b ∈ s.next a, b ∈ domain) :
    s.visit.length ≤ domain.length := by
  refine (s.nodup_visit.subperm fun c hc => ?_).length_le
  obtain ⟨a, ha, hreach⟩ := s.mem_visit.1 hc
  induction hreach with
  | refl => exact hstart a ha
  | tail hreach hstep ih =>
    exact hnext _ (ih (s.mem_visit.2 ⟨a, ha, hreach⟩)) _ hstep

/-! ### What is pending later -/

section

variable {s : Space α} {p : α → Option β}

/-- Pending nodes are walked one part after the other, the second with what
the first has seen. -/
theorem visitFrom_append {seen xs ys : List α} (hx : ∀ a ∈ xs, s.Inside a)
    (hy : ∀ a ∈ ys, s.Inside a) (hxy : ∀ a ∈ xs ++ ys, s.Inside a) :
    s.visitFrom seen (xs ++ ys) hxy =
      s.visitFrom seen xs hx ++
        s.visitFrom ((s.visitFrom seen xs hx).reverse ++ seen) ys hy := by
  fun_induction visitFrom s seen xs hx with
  | case1 => rfl
  | case2 seen a rest _ hs _ ih =>
    rw [← ih]
    simp only [List.cons_append]
    rw [visitFrom, dif_pos hs]
  | case3 seen a rest ha hs _ ih =>
    simp only [List.cons_append]
    rw [visitFrom, dif_neg hs]
    simp only [List.reverse_cons, List.append_assoc, List.singleton_append]
    rw [← ih]
    · simp only [List.append_assoc]
    · intro b hb
      rcases List.mem_append.1 hb with hb | hb
      · rcases List.mem_append.1 hb with hb | hb
        · exact s.inside_of_next (ha a List.mem_cons_self) hb
        · exact ha b (List.mem_cons_of_mem _ hb)
      · exact hy b hb

/-- A node that was not seen is listed before what it leads to. -/
theorem visitFrom_singleton {seen : List α} {a : α} (ha : a ∉ seen)
    (h : ∀ b ∈ [a], s.Inside b) (hnext : ∀ b ∈ s.next a, s.Inside b) :
    s.visitFrom seen [a] h = a :: s.visitFrom (a :: seen) (s.next a) hnext := by
  rw [visitFrom, dif_neg ha]
  simp only [List.append_nil]

/-- Two spaces are walked alike if one has the steps of the other except to
nodes that count as seen. -/
theorem visitFrom_restrict {s' : Space α} {keep : α → Bool}
    (hnext : ∀ a, s'.next a = (s.next a).filter keep) (seen pending : List α)
    (h : ∀ a ∈ pending, s.Inside a) :
    ∀ (seen' : List α) (h' : ∀ a ∈ pending.filter keep, s'.Inside a),
      (∀ a, keep a = false → a ∈ seen) →
        (∀ a, keep a = true → (a ∈ seen ↔ a ∈ seen')) →
        s.visitFrom seen pending h =
          s'.visitFrom seen' (pending.filter keep) h' := by
  fun_induction visitFrom s seen pending h with
  | case1 =>
    intro seen' h' _ _
    simp only [List.filter_nil]
    rw [visitFrom]
  | case2 seen a rest _ hs _ ih =>
    intro seen' h' hleft hkept
    by_cases hkeep : keep a = true
    · simp only [List.filter_cons_of_pos hkeep] at h' ⊢
      rw [visitFrom, dif_pos ((hkept a hkeep).1 hs)]
      exact ih seen' _ hleft hkept
    · simp only [List.filter_cons_of_neg hkeep] at h' ⊢
      exact ih seen' h' hleft hkept
  | case3 seen a rest _ hs _ ih =>
    intro seen' h' hleft hkept
    -- a node that is left out would count as seen
    have hkeep : keep a = true := by
      by_contra hkeep
      exact hs (hleft a (by simpa using hkeep))
    simp only [List.filter_cons_of_pos hkeep] at h' ⊢
    rw [visitFrom, dif_neg fun ha => hs ((hkept a hkeep).2 ha)]
    simp only [hnext, ← List.filter_append]
    refine congrArg (a :: ·) (ih (a :: seen') _ ?_ ?_)
    · exact fun b hb => List.mem_cons_of_mem _ (hleft b hb)
    · intro b hb
      rw [List.mem_cons, List.mem_cons, hkept b hb]

/-- Only which nodes were seen counts, not in which order, and of the space
only its steps. -/
theorem visitFrom_congr {s' : Space α} (hnext : s'.next = s.next)
    {seen seen' pending : List α} (h : ∀ a ∈ pending, s.Inside a)
    (h' : ∀ a ∈ pending, s'.Inside a) (hseen : ∀ a, a ∈ seen ↔ a ∈ seen') :
    s.visitFrom seen pending h = s'.visitFrom seen' pending h' := by
  have hall : ∀ xs : List α, xs.filter (fun _ => true) = xs :=
    fun xs => List.filter_true xs
  have heq : s.visitFrom seen pending h =
      s'.visitFrom seen' (pending.filter fun _ => true) (by rwa [hall]) :=
    visitFrom_restrict (fun a => by rw [hnext, hall]) seen pending h seen' _
      (fun _ hno => by cases hno) fun a _ => hseen a
  simpa only [hall] using heq

/-! ### Nodes walked in vain -/

/-- Nodes that have nothing and lead to one another and to seen nodes only. -/
def Barren (s : Space α) (p : α → Option β) (seen barren : List α) : Prop :=
  ∀ a ∈ barren, p a = none ∧ ∀ b, s.Step a b → b ∈ barren ∨ b ∈ seen

/-- What was walked without finding anything is barren. -/
theorem barren_visitFrom {seen pending : List α} {h : ∀ a ∈ pending, s.Inside a}
    (hnone : (s.visitFrom seen pending h).findSome? p = none) :
    s.Barren p seen (s.visitFrom seen pending h) := by
  intro a ha
  refine ⟨List.findSome?_eq_none_iff.1 hnone a ha, fun b hb => ?_⟩
  exact ((s.closed_visitFrom seen pending h).2 a ha b hb).symm

/-- Where everything pending was seen, there is nothing to walk. -/
theorem visitFrom_eq_nil {seen pending : List α} (h : ∀ a ∈ pending, s.Inside a)
    (hseen : ∀ a ∈ pending, a ∈ seen) : s.visitFrom seen pending h = [] := by
  induction pending with
  | nil => rw [visitFrom]
  | cons a rest ih =>
    rw [visitFrom, dif_pos (hseen a List.mem_cons_self)]
    exact ih _ fun b hb => hseen b (List.mem_cons_of_mem _ hb)

/-- Barren nodes may be left out of a search. -/
theorem find?_visitFrom_of_barren {barren seen pending : List α}
    (h : ∀ a ∈ pending, s.Inside a) (hbarren : s.Barren p seen barren) :
    (s.visitFrom (barren ++ seen) pending h).findSome? p =
      (s.visitFrom seen pending h).findSome? p := by
  fun_induction visitFrom s seen pending h with
  | case1 => rw [visitFrom]
  | case2 seen a rest _ hs _ ih =>
    rw [visitFrom, dif_pos (List.mem_append_right _ hs)]
    exact ih hbarren
  | case3 seen a rest ha hs hrest ih =>
    have hlater : s.Barren p (a :: seen) barren := fun b hb =>
      ⟨(hbarren b hb).1,
        fun c hc => ((hbarren b hb).2 c hc).imp_right (List.mem_cons_of_mem _)⟩
    have hseen : ∀ b, b ∈ barren ++ a :: seen ↔ b ∈ a :: (barren ++ seen) := by
      intro b
      simp only [List.mem_append, List.mem_cons]
      exact or_left_comm
    by_cases hin : a ∈ barren
    · -- all that the node leads to is seen as soon as the node itself is
      rw [visitFrom, dif_pos (List.mem_append_left _ hin), List.findSome?_cons,
        (hbarren a hin).1, ← ih hlater]
      have hskip : ∀ b ∈ s.next a, b ∈ barren ++ a :: seen := by
        intro b hb
        rcases (hbarren a hin).2 b hb with hb | hb
        · exact List.mem_append_left _ hb
        · exact List.mem_append_right _ (List.mem_cons_of_mem _ hb)
      have hnext : ∀ b ∈ s.next a, s.Inside b :=
        fun b hb => s.inside_of_next (ha a List.mem_cons_self) hb
      rw [visitFrom_append hnext fun b hb => ha b (List.mem_cons_of_mem _ hb)]
      simp only [visitFrom_eq_nil hnext hskip, List.reverse_nil,
        List.nil_append]
      refine congrArg (List.findSome? p) (visitFrom_congr rfl _ _ fun b => ?_)
      rw [hseen, List.mem_cons, or_iff_right_of_imp]
      rintro rfl
      exact List.mem_append_left _ hin
    · have hnew : a ∉ barren ++ seen :=
        fun hmem => (List.mem_append.1 hmem).elim hin hs
      rw [visitFrom, dif_neg hnew, List.findSome?_cons,
        List.findSome?_cons, ← ih hlater]
      rw [visitFrom_congr rfl _ _ fun b => (hseen b).symm]

/-- The pending nodes are searched one after the other, each as if it stood
alone. -/
theorem findSome?_visitFrom_cons {seen rest : List α} {a : α}
    (h : ∀ b ∈ a :: rest, s.Inside b) (ha : ∀ b ∈ [a], s.Inside b)
    (hrest : ∀ b ∈ rest, s.Inside b) :
    (s.visitFrom seen (a :: rest) h).findSome? p =
      ((s.visitFrom seen [a] ha).findSome? p).or
        ((s.visitFrom seen rest hrest).findSome? p) := by
  have happend : s.visitFrom seen (a :: rest) h = _ :=
    visitFrom_append ha hrest h
  rw [happend, List.findSome?_append]
  cases hfound : (s.visitFrom seen [a] ha).findSome? p with
  | some b => rfl
  | none =>
    -- what the first node was walked for in vain is barren for the others
    rw [Option.none_or, Option.none_or, ← find?_visitFrom_of_barren hrest
      (barren_visitFrom hfound)]
    exact congrArg (List.findSome? p) (visitFrom_congr rfl _ _ fun b => by simp)

end

/-! ### Ways that do not come back -/

/-- A space without one of its nodes. -/
def without (s : Space α) (a : α) : Space α where
  start := s.start.filter (· ≠ a)
  next b := (s.next b).filter (· ≠ a)
  bounded := by
    obtain ⟨domain, hstart, hnext⟩ := s.bounded
    exact ⟨domain, fun b hb => hstart b (List.mem_filter.1 hb).1,
      fun b hb c hc => hnext b hb c (List.mem_filter.1 hc).1⟩

section

-- the searches with the same steps, one from each node
variable {r : α → Space α} {next : α → List α} {p : α → Option β}
  (hstart : ∀ a, (r a).start = [a]) (hnext : ∀ a, (r a).next = next)

include hstart hnext

/-- Leaving a node out is having seen it before. -/
theorem visit_without (s : Space α) (hs : s.next = next) {a b : α}
    (hb : ∀ c ∈ [b], s.Inside c) :
    ((r b).without a).visit = s.visitFrom [a] [b] hb := by
  have hsteps : ∀ c, ((r b).without a).next c = (s.next c).filter (· ≠ a) := by
    intro c
    rw [hs, ← hnext b]
    rfl
  have hpending : ((r b).without a).start = [b].filter (· ≠ a) := by
    rw [← hstart b]
    rfl
  have hinside : ∀ c ∈ [b].filter (· ≠ a), ((r b).without a).Inside c := by
    rw [← hpending]
    exact ((r b).without a).inside_of_start
  rw [visitFrom_restrict hsteps [a] [b] hb [] hinside (by simp) (by simp)]
  unfold visit
  simp only [hpending]

/-- Of the ways on from a node, the first that leads to something decides,
each without the node itself. -/
theorem findSome?_ways {a : α} {ways : List α}
    (h : ∀ b ∈ ways, (r a).Inside b) :
    ((r a).visitFrom [a] ways h).findSome? p =
      ways.findSome? fun b => ((r b).without a).find? p := by
  induction ways with
  | nil =>
    rw [visitFrom]
    rfl
  | cons b rest ih =>
    have hrest : ∀ c ∈ rest, (r a).Inside c :=
      fun c hc => h c (List.mem_cons_of_mem _ hc)
    have hb : ∀ c ∈ [b], (r a).Inside c := fun c hc => h c (by simp_all)
    rw [findSome?_visitFrom_cons h hb hrest, ih hrest, List.findSome?_cons,
      ← visit_without hstart hnext (r a) (hnext a) hb]
    show (((r b).without a).find? p).or _ = _
    cases ((r b).without a).find? p with
    | some c => rfl
    | none => rfl

omit [DecidableEq α] in
theorem inside_ways (a : α) : ∀ b ∈ next a, (r a).Inside b := by
  intro b hb
  rw [← hnext a] at hb
  exact (r a).inside_of_next
    (inside_of_start_eq (hstart a) a List.mem_cons_self) hb

/-- A walk from a node lists the node and goes on from there. -/
theorem visit_eq_cons (a : α) :
    (r a).visit = a :: (r a).visitFrom [a] (next a)
      (inside_ways hstart hnext a) := by
  have hself := visitFrom_singleton List.not_mem_nil
    (inside_of_start_eq (hstart a)) fun b hb =>
    inside_ways hstart hnext a b (hnext a ▸ hb)
  unfold visit
  simp only [hstart, hself, hnext]

/-- A search from a node finds what the node has, or what the first of its
ways finds that leads anywhere without coming back. -/
theorem find?_eq_or (a : α) :
    (r a).find? p = (p a).or ((next a).findSome? fun b =>
      ((r b).without a).find? p) := by
  unfold find?
  rw [visit_eq_cons hstart hnext, List.findSome?_cons,
    findSome?_ways hstart hnext]
  cases p a with
  | some b => rfl
  | none => rfl

theorem visit_without_eq_cons {a b : α} (hb : b ≠ a) :
    ((r b).without a).visit = b :: (r b).visitFrom [b, a] (next b)
      (inside_ways hstart hnext b) := by
  have hways := inside_ways hstart hnext b
  rw [visit_without hstart hnext (r b) (hnext b)
    (inside_of_start_eq (hstart b)), visitFrom_singleton (by simpa using hb) _
    fun c hc => hways c (hnext b ▸ hc)]
  simp only [hnext]

/-- A node that has something is found at once. -/
theorem find?_without_of_some {a b : α} {c : β} (hb : b ≠ a)
    (h : p b = some c) :
    ((r b).without a).find? p = some c := by
  unfold find?
  rw [visit_without_eq_cons hstart hnext hb, List.findSome?_cons, h]

/-- What ways in vain out of a node lead to: nothing has anything there, and
the only step out of it is the one back to the node. -/
theorem exists_walked {a : α} {ways : List α}
    (hinside : ∀ c ∈ ways, (r a).Inside c)
    (hvain : ∀ c ∈ ways, ((r c).without a).find? p = none) :
    ∃ walked : List α, (∀ c ∈ ways, c ∈ walked ∨ c = a) ∧
      ∀ c ∈ walked, p c = none ∧ ∀ d ∈ next c, d ∈ walked ∨ d = a := by
  have hnone : ((r a).visitFrom [a] ways hinside).findSome? p = none := by
    rw [findSome?_ways hstart hnext hinside, List.findSome?_eq_none_iff]
    exact hvain
  refine ⟨(r a).visitFrom [a] ways hinside, fun c hc => ?_, fun c hc => ?_⟩
  · exact (((r a).closed_visitFrom [a] ways hinside).1 c hc).symm.imp_right
      List.mem_singleton.1
  · obtain ⟨hfree, hsteps⟩ := barren_visitFrom hnone c hc
    unfold Step at hsteps
    rw [hnext] at hsteps
    exact ⟨hfree, fun d hd => (hsteps d hd).imp_right List.mem_singleton.1⟩

/-- If all other ways out of a node are in vain, what they lead to is barren,
and so is the node together with it. -/
theorem exists_barren {a b : α} (ha : p a = none)
    (hothers : ∀ c ∈ next a, c ≠ b → ((r c).without a).find? p = none) :
    ∃ barren, (r b).Barren p [b, a] barren ∧ (r b).Barren p [b]
      (a :: barren) := by
  have hvain : ∀ c ∈ (next a).filter (· ≠ b),
      ((r c).without a).find? p = none := by
    intro c hc
    obtain ⟨hc, hne⟩ := List.mem_filter.1 hc
    exact hothers c hc (by simpa using hne)
  obtain ⟨walked, hways, hsteps⟩ := exists_walked hstart hnext
    (fun c hc => inside_ways hstart hnext a c (List.mem_filter.1 hc).1) hvain
  unfold Barren Step
  rw [hnext]
  refine ⟨walked, fun c hc => ⟨(hsteps c hc).1, fun d hd => ?_⟩, fun c hc => ?_⟩
  · exact ((hsteps c hc).2 d hd).imp_right (by simp_all)
  · rcases List.mem_cons.1 hc with rfl | hc
    · refine ⟨ha, fun d hd => ?_⟩
      by_cases hdb : d = b
      · exact .inr (List.mem_singleton.2 hdb)
      · exact .inl (List.mem_cons.2
          (hways d (List.mem_filter.2 ⟨hd, by simpa using hdb⟩)).symm)
    · exact ⟨(hsteps c hc).1,
        fun d hd => .inl (List.mem_cons.2 ((hsteps c hc).2 d hd).symm)⟩

/-- If all other ways out of a node are in vain, a search that starts behind
it does not miss the node. -/
theorem find?_without {a b : α} (hb : b ≠ a) (ha : p a = none)
    (hothers : ∀ c ∈ next a, c ≠ b → ((r c).without a).find? p = none) :
    ((r b).without a).find? p = (r b).find? p := by
  have hways := inside_ways hstart hnext b
  obtain ⟨barren, hbeside, hwith⟩ := exists_barren hstart hnext ha hothers
  -- once the barren nodes count as seen in both searches, both have seen the
  -- same
  unfold find?
  rw [visit_without_eq_cons hstart hnext hb, visit_eq_cons hstart hnext b,
    List.findSome?_cons, List.findSome?_cons, ← find?_visitFrom_of_barren hways
    hbeside, ← find?_visitFrom_of_barren hways hwith]
  rw [visitFrom_congr rfl hways hways]
  intro c
  simp only [List.mem_append, List.mem_cons, List.not_mem_nil, or_false]
  tauto

end

end Space

end RenderLoop
