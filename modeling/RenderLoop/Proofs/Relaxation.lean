import RenderLoop.Project.HandOff
import Mathlib.Logic.Function.Iterate
import Mathlib.Order.Bounds.Defs

/-!
# Relaxation finds the shortest chains

A parameter that is handed from function to function until one of them calls
it lies at the start of a chain. The relaxation records for every parameter
the length of its shortest chain, up to `maxDepth`:

> `Sound.round`: what a round records are lengths of chains.

> `Reaches.round`: if all chains of up to `k` functions are accounted for,
> then after one more round all chains of up to `k + 1` functions are.

So after `maxDepth` rounds at the latest the recorded depths are exact
(`exact_of_reaches`), and from then on a round changes nothing
(`round_eq_of_reaches`): the limit on the rounds is never what ends the
relaxation (`relaxAll_settles`).

A round goes over all hand-offs once and may use what it has just recorded, so
it can find longer chains as well. That does no harm: the two statements say
what is recorded at least and at most, and the order of the hand-offs plays no
part in either.
-/

namespace RenderLoop

namespace HandOff

/-! ### Chains -/

/-- A chain of functions from the one whose parameter is given: each hands the
setter on to the next, and the last one calls it. -/
inductive Chain (calls : Parameter → Prop)
    (hands : Parameter → Parameter → Prop) :
    Nat → Parameter → Prop where
  | call {p : Parameter} (h : calls p) : Chain calls hands 1 p
  | hand {p q : Parameter} {n : Nat} (h : hands p q)
      (c : Chain calls hands n q) :
    Chain calls hands (n + 1) p

/-- The chains along listed hand-offs to listed parameters. -/
abbrev ListedChain (cs : List Parameter) (hs : List HandOff) :
    Nat → Parameter → Prop :=
  Chain (· ∈ cs) fun p q => ⟨p, q⟩ ∈ hs

/-- A chain has at least one function. -/
theorem Chain.pos {calls : Parameter → Prop}
    {hands : Parameter → Parameter → Prop} {n : Nat}
    {p : Parameter} (c : Chain calls hands n p) : 0 < n := by
  cases c <;> omega

/-! ### One relaxation -/

/-- Recording a depth changes nothing but that depth. -/
theorem depth?_setDepth (d : Depths) (p q : Parameter) (n : Nat) :
    depth? (setDepth d p n) q = if q = p then some n else depth? d q := by
  unfold setDepth
  split
  · next hany =>
    -- overwriting changes no key, so the entry found for a key is the entry
    -- found before
    have hkey : ∀ e : Parameter × Nat,
        (if e.1 == p then (p, n) else e).1 = e.1 := by
      intro e
      by_cases he : e.1 = p
      · simp [he]
      · simp [he]
    unfold depth?
    rw [List.find?_map]
    simp only [Function.comp_def, hkey]
    by_cases hq : q = p
    · subst hq
      obtain ⟨e, he⟩ : ∃ e, d.find? (·.1 == q) = some e :=
        Option.isSome_iff_exists.1 (by simpa using hany)
      have hkeyE := List.find?_some he
      rw [he, if_pos rfl, Option.map_some, Option.map_some, if_pos hkeyE]
    · rw [if_neg hq]
      cases he : d.find? (·.1 == q) with
      | none => rfl
      | some e =>
        have hkeyE : e.1 = q := by simpa using List.find?_some he
        simp [hkeyE, hq]
  · next hnone =>
    unfold depth?
    rw [List.find?_append]
    by_cases hq : q = p
    · subst hq
      have habsent : d.find? (·.1 == q) = none :=
        List.find?_eq_none.2 fun e he hkey =>
          hnone (List.any_eq_true.2 ⟨e, he, hkey⟩)
      rw [habsent, if_pos rfl]
      simp
    · have hpq : (p == q) = false := by simpa using fun h => hq h.symm
      rw [if_neg hq]
      simp [hpq]

/-- The recorded depths of `d` are at least as good as those of `old`. -/
def Improves (d old : Depths) : Prop :=
  ∀ p n, depth? old p = some n → ∃ m ≤ n, depth? d p = some m

theorem Improves.refl (d : Depths) : Improves d d :=
  fun _ n h => ⟨n, Nat.le_refl n, h⟩

theorem Improves.trans {d e f : Depths} (hde : Improves d e)
    (hef : Improves e f) :
    Improves d f := by
  intro p n hn
  obtain ⟨m, hm, he⟩ := hef p n hn
  obtain ⟨l, hl, hd⟩ := hde p m he
  exact ⟨l, Nat.le_trans hl hm, hd⟩

/-- What a relaxation does: nothing, or it records for the source one more
than for the target, which then is better than before. -/
theorem relax_cases (d : Depths) (h : HandOff) :
    (relax d h = d ∧ ∀ n, depth? d h.target = some n → n < maxDepth →
      ∃ m ≤ n + 1, depth? d h.source = some m) ∨
    ∃ n, depth? d h.target = some n ∧ n < maxDepth ∧
      (∀ old, depth? d h.source = some old → n + 1 < old) ∧
      relax d h = setDepth d h.source (n + 1) := by
  unfold relax
  split
  · next hnone =>
    refine .inl ⟨rfl, fun n hn => ?_⟩
    rw [hnone] at hn
    cases hn
  · next n htarget =>
    split
    · next hdeep =>
      refine .inl ⟨rfl, fun m hm hlt => ?_⟩
      rw [htarget] at hm
      cases hm
      omega
    · next hshallow =>
      have hlt : n < maxDepth := by omega
      split
      · next hnone =>
        refine .inr ⟨n, htarget, hlt, fun old hold => ?_, rfl⟩
        rw [hnone] at hold
        cases hold
      · next old hold =>
        split
        · next hbetter =>
          refine .inr ⟨n, htarget, hlt, fun old' hold' => ?_, rfl⟩
          rw [hold] at hold'
          cases hold'
          exact hbetter
        · next hworse =>
          refine .inl ⟨rfl, fun m hm _ => ⟨old, ?_, hold⟩⟩
          rw [htarget] at hm
          cases hm
          omega

/-- No depth gets worse. -/
theorem improves_relax (d : Depths) (h : HandOff) : Improves (relax d h) d := by
  rcases relax_cases d h with ⟨hsame, -⟩ | ⟨n, -, -, hbetter, hset⟩
  · rw [hsame]
    exact .refl d
  · rw [hset]
    intro p m hm
    rw [depth?_setDepth]
    by_cases hp : p = h.source
    · subst hp
      exact ⟨n + 1, Nat.le_of_lt (hbetter m hm), if_pos rfl⟩
    · exact ⟨m, Nat.le_refl m, by rw [if_neg hp, hm]⟩

/-- After a relaxation the source is at most one deeper than the target was. -/
theorem depth?_source_relax {d : Depths} {h : HandOff} {n : Nat}
    (hn : depth? d h.target = some n) (hlt : n < maxDepth) :
    ∃ m ≤ n + 1, depth? (relax d h) h.source = some m := by
  rcases relax_cases d h with ⟨hsame, hdone⟩ | ⟨k, hk, -, -, hset⟩
  · rw [hsame]
    exact hdone n hn hlt
  · rw [hn] at hk
    cases hk
    rw [hset, depth?_setDepth]
    exact ⟨n + 1, Nat.le_refl _, if_pos rfl⟩

/-! ### One round -/

/-- A round of relaxations. -/
def round (hs : List HandOff) (d : Depths) : Depths := hs.foldl relax d

section

variable {cs : List Parameter} {hs : List HandOff} {d : Depths}

/-- What is recorded are lengths of chains, none above the greatest depth. -/
def Sound (cs : List Parameter) (hs : List HandOff) (d : Depths) : Prop :=
  ∀ p n, depth? d p = some n → n ≤ maxDepth ∧ ListedChain cs hs n p

/-- Chains of up to `k` functions are accounted for: something as short is
recorded. -/
def Reaches (cs : List Parameter) (hs : List HandOff) (k : Nat) (d : Depths) :
    Prop :=
  ∀ p n, ListedChain cs hs n p → n ≤ k → ∃ m ≤ n, depth? d p = some m

/-- A hand-off makes a chain one longer, and nothing is recorded beyond the
greatest depth. -/
theorem Sound.relax {h : HandOff} (hd : Sound cs hs d) (hh : h ∈ hs) :
    Sound cs hs (relax d h) := by
  rcases relax_cases d h with ⟨hsame, -⟩ | ⟨n, hn, hlt, -, hset⟩
  · rw [hsame]
    exact hd
  · intro p m hm
    rw [hset, depth?_setDepth] at hm
    by_cases hp : p = h.source
    · subst hp
      rw [if_pos rfl] at hm
      cases hm
      exact ⟨hlt, .hand hh (hd _ n hn).2⟩
    · rw [if_neg hp] at hm
      exact hd p m hm

/-- So a round records lengths of chains. -/
theorem Sound.round (hd : Sound cs hs d) : Sound cs hs (round hs d) := by
  have hfold : ∀ l ⊆ hs, ∀ d, Sound cs hs d →
      Sound cs hs (l.foldl HandOff.relax d) := by
    intro l
    induction l with
    | nil => exact fun _ d hd => hd
    | cons h l ih =>
      intro hsub d hd
      obtain ⟨hh, hl⟩ := List.cons_subset.1 hsub
      exact ih hl _ (hd.relax hh)
  exact hfold hs (List.Subset.refl hs) d hd

theorem improves_foldl (l : List HandOff) (d : Depths) :
    Improves (l.foldl relax d) d := by
  induction l generalizing d with
  | nil => exact .refl d
  | cons h l ih => exact (ih (relax d h)).trans (improves_relax d h)

/-- After a round every source is at most one deeper than its target was
before. -/
theorem depth?_source_foldl {l : List HandOff} {h : HandOff}
    (hh : h ∈ l) {n : Nat} (hn : depth? d h.target = some n)
    (hlt : n < maxDepth) :
    ∃ m ≤ n + 1, depth? (l.foldl relax d) h.source = some m := by
  induction l generalizing d n with
  | nil => cases hh
  | cons first l ih =>
    rw [List.foldl_cons]
    rcases List.mem_cons.1 hh with rfl | hh
    · obtain ⟨m, hm, hsource⟩ := depth?_source_relax hn hlt
      obtain ⟨m', hm', hsource'⟩ := improves_foldl l _ _ m hsource
      exact ⟨m', Nat.le_trans hm' hm, hsource'⟩
    · -- what comes first can only have improved the target
      obtain ⟨n', hn', htarget⟩ := improves_relax d first _ n hn
      obtain ⟨m, hm, hsource⟩ := ih hh htarget (by omega)
      exact ⟨m, by omega, hsource⟩

/-- A round accounts for chains with one function more. -/
theorem Reaches.round {k : Nat} (hd : Reaches cs hs k d) (hpos : 0 < k)
    (hk : k < maxDepth) :
    Reaches cs hs (k + 1) (round hs d) := by
  intro p n hchain hn
  cases hchain with
  | call hp =>
    obtain ⟨m, hm, hrec⟩ := hd p 1 (.call hp) hpos
    obtain ⟨m', hm', hrec'⟩ := improves_foldl hs d p m hrec
    exact ⟨m', Nat.le_trans hm' hm, hrec'⟩
  | @hand _ q n hh hq =>
    obtain ⟨m, hm, hrec⟩ := hd q n hq (by omega)
    obtain ⟨m', hm', hrec'⟩ := depth?_source_foldl hh hrec (by omega)
    exact ⟨m', by omega, hrec'⟩

/-! ### Exact depths -/

/-- A depth is recorded iff it is the length of the shortest chain and not too
great. -/
def Exact (cs : List Parameter) (hs : List HandOff) (d : Depths) : Prop :=
  ∀ p n, depth? d p = some n ↔
    n ≤ maxDepth ∧ IsLeast {n | ListedChain cs hs n p} n

/-- If all chains are accounted for, the recorded depth is the shortest. -/
theorem exact_of_reaches (hsound : Sound cs hs d)
    (hreaches : Reaches cs hs maxDepth d) :
    Exact cs hs d := by
  intro p n
  constructor
  · intro hn
    obtain ⟨hle, hchain⟩ := hsound p n hn
    refine ⟨hle, hchain, fun m hm => ?_⟩
    by_cases hmn : m ≤ maxDepth
    · obtain ⟨m', hm', hrec⟩ := hreaches p m hm hmn
      rw [hn] at hrec
      cases hrec
      exact hm'
    · omega
  · rintro ⟨hle, hchain, hleast⟩
    obtain ⟨m, hm, hrec⟩ := hreaches p n hchain hle
    have hmn : n ≤ m := hleast (hsound p m hrec).2
    obtain rfl : m = n := Nat.le_antisymm hm hmn
    exact hrec

/-- When all chains are accounted for, a round changes nothing. -/
theorem round_eq_of_reaches (hsound : Sound cs hs d)
    (hreaches : Reaches cs hs maxDepth d) :
    round hs d = d := by
  have hrelax : ∀ h ∈ hs, relax d h = d := by
    intro h hh
    rcases relax_cases d h with ⟨hsame, -⟩ | ⟨n, hn, hlt, hbetter, -⟩
    · exact hsame
    · -- the chain through the target is accounted for, so the source is not too
      -- deep
      obtain ⟨m, hm, hrec⟩ :=
        hreaches h.source (n + 1) (.hand hh (hsound _ n hn).2) hlt
      have := hbetter m hrec
      omega
  have hfold : ∀ l ⊆ hs, l.foldl relax d = d := by
    intro l
    induction l with
    | nil => exact fun _ => rfl
    | cons h l ih =>
      intro hsub
      obtain ⟨hh, hl⟩ := List.cons_subset.1 hsub
      rw [List.foldl_cons, hrelax h hh]
      exact ih hl
  exact hfold hs (List.Subset.refl hs)

/-! ### The whole relaxation -/

/-- The depths to begin with. -/
def start (cs : List Parameter) : Depths := cs.eraseDups.map fun p => (p, 1)

/-- To begin with, the parameters that are called have depth one. -/
theorem depth?_start {p : Parameter} {n : Nat} :
    depth? (start cs) p = some n ↔ n = 1 ∧ p ∈ cs := by
  unfold depth? start
  rw [List.find?_map, Option.map_map]
  constructor
  · intro h
    obtain ⟨q, hq, rfl⟩ := Option.map_eq_some_iff.1 h
    obtain rfl : q = p := by simpa using List.find?_some hq
    exact ⟨rfl, List.mem_eraseDups.1 (List.mem_of_find?_eq_some hq)⟩
  · rintro ⟨rfl, hp⟩
    have hfound : (cs.eraseDups.find? ((·.1 == p) ∘ fun p => (p, 1))).isSome =
        true :=
      List.find?_isSome.2 ⟨p, List.mem_eraseDups.2 hp, by simp⟩
    obtain ⟨q, hq⟩ := Option.isSome_iff_exists.1 hfound
    rw [hq]
    rfl

theorem sound_start : Sound cs hs (start cs) := by
  intro p n hn
  obtain ⟨rfl, hp⟩ := depth?_start.1 hn
  exact ⟨by decide, .call hp⟩

theorem reaches_start : Reaches cs hs 1 (start cs) := by
  intro p n hchain hn
  cases hchain with
  | call hp => exact ⟨1, Nat.le_refl 1, depth?_start.2 ⟨rfl, hp⟩⟩
  | hand _ hq =>
    have := hq.pos
    omega

/-- After `k` rounds the chains of up to `k + 1` functions are accounted for. -/
theorem sound_reaches_iterate (cs : List Parameter)
    (hs : List HandOff) (k : Nat) (hk : k < maxDepth) :
    Sound cs hs ((round hs)^[k] (start cs)) ∧ Reaches cs hs (k + 1)
      ((round hs)^[k] (start cs)) := by
  induction k with
  | zero => exact ⟨sound_start, reaches_start⟩
  | succ k ih =>
    obtain ⟨hsound, hreaches⟩ := ih (by omega)
    rw [Function.iterate_succ_apply']
    exact ⟨hsound.round, hreaches.round (by omega) hk⟩

/-- The relaxation ends with the first round that changes nothing, if there is
time for it. -/
theorem relaxAll_eq_iterate {k rounds : Nat} (hk : k ≤ rounds)
    (hfix : round hs ((round hs)^[k] d) = (round hs)^[k] d) :
    relaxAll hs rounds d = (round hs)^[k] d := by
  induction rounds generalizing k d with
  | zero =>
    obtain rfl : k = 0 := by omega
    rfl
  | succ rounds ih =>
    rw [relaxAll]
    by_cases hsame : round hs d = d
    · rw [Function.iterate_fixed hsame]
      exact if_pos hsame
    · cases k with
      | zero => exact absurd hfix hsame
      | succ k =>
        rw [Function.iterate_succ_apply] at hfix ⊢
        have hrest := ih (by omega) hfix
        exact (if_neg hsame).trans hrest

/-- The relaxation is settled before its rounds run out, and then its depths
are exact. -/
theorem relaxAll_settles (cs : List Parameter) (hs : List HandOff) :
    ∃ k < maxRounds, round hs ((round hs)^[k] (start cs)) = (round hs)^[k]
      (start cs) ∧ relaxAll hs maxRounds (start cs) = (round hs)^[k]
      (start cs) ∧
      Exact cs hs ((round hs)^[k] (start cs)) := by
  obtain ⟨hsound, hreaches⟩ :=
    sound_reaches_iterate cs hs (maxDepth - 1) (by decide)
  have hfix := round_eq_of_reaches hsound hreaches
  exact ⟨maxDepth - 1, by decide, hfix, relaxAll_eq_iterate (by decide) hfix,
    exact_of_reaches hsound hreaches⟩

end

/-- After enough rounds the depths are exact. -/
theorem exact_relaxAll (cs : List Parameter) (hs : List HandOff) :
    Exact cs hs (relaxAll hs maxRounds (start cs)) := by
  obtain ⟨k, -, -, hdepths, hexact⟩ := relaxAll_settles cs hs
  rw [hdepths]
  exact hexact

/-- Exact depths for the same chains are the same. -/
theorem Exact.depth?_eq {cs cs' : List Parameter} {hs hs' : List HandOff}
    {d d' : Depths} (hd : Exact cs hs d) (hd' : Exact cs' hs' d')
    (hchain : ListedChain cs hs = ListedChain cs' hs')
    (p : Parameter) : depth? d p = depth? d' p := by
  refine Option.ext fun n => ?_
  rw [hd p n, hd' p n, hchain]

end HandOff

end RenderLoop
