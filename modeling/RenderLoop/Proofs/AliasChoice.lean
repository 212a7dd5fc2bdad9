import RenderLoop.Project.Resolver
import Mathlib.Data.List.TakeWhile

/-!
# Which alias a specifier takes

A pattern of the alias table stands for a specifier if something in place of
its star gives the specifier (`Resolver.Fits`). Whether it does is tested at
both ends: what is before the star has to begin the specifier and what is
behind it has to end it. In a short specifier the two ends may overlap
(`Resolver.Overlaps`), and then the test succeeds although the pattern does
not fit.

> `Resolver.aliasCandidates_chosen`: the candidates are the targets of the
> first pattern without star that is the specifier, or else of the pattern
> with the most before its star among those that fit or overlap, the first of
> equals. Without overlap that is the pattern that fits best.

`Resolver.IsBest` is the search for the best pattern as the pass over the
table leaves it behind.

The argument has two halves. `isChoice_aliasTargets?` says what the loop
computes, with the fit that the loop itself uses (`Resolver.Found`): a step of
the loop keeps the best entry so far, so the whole pass ends with the best
one. The other half is about single patterns: what the loop takes for a fit is
a fit or an overlap, and nothing else (`Resolver.FitsOrOverlaps`). Since a
choice is determined by its table (`IsChoice.unique`), the two descriptions
name the same entry whenever nothing overlaps.

Targets play no part in the search, so it is carried out once over tables of
any values and then read for lists of texts (`retarget`).
-/

namespace RenderLoop

namespace Resolver

/-! ### Patterns -/

/-- A pattern in its parts before and behind its first star. -/
structure HasStar (pattern : String) (front behind : List Char) : Prop where
  split : pattern.toList = front ++ '*' :: behind
  first : '*' ∉ front

/-- A pattern with `n` characters before its star stands for a specifier, with
`m` for the star. -/
def Fits (specifier pattern : String) (n : Nat) (m : List Char) : Prop :=
  ∃ front behind, HasStar pattern front behind ∧ front.length = n ∧
    specifier.toList = front ++ m ++ behind

/-- The ends of a pattern with `n` characters before its star are those of a
specifier that is too short to hold both. -/
def Overlaps (specifier pattern : String) (n : Nat) : Prop :=
  ∃ front behind, HasStar pattern front behind ∧ front.length = n ∧
    front <+: specifier.toList ∧ behind <:+ specifier.toList ∧
    specifier.toList.length < front.length + behind.length

/-- A pattern is split at its first star, and only one without a star is not
split at all. -/
theorem splitPattern?_iff {pattern : String} {front behind : List Char} :
    splitPattern? pattern = some (front, behind) ↔
      HasStar pattern front behind := by
  unfold splitPattern?
  constructor
  · intro h
    simp only at h
    split at h
    · cases h
    · next c rest hdrop =>
      cases h
      obtain rfl : c = '*' := by
        have hhead := List.head_dropWhile_not (p := (· != '*'))
          (l := pattern.toList) (by simp [hdrop])
        simpa [hdrop] using hhead
      refine ⟨?_, fun hmem => ?_⟩
      · rw [← hdrop, List.takeWhile_append_dropWhile]
      · have hother := List.mem_takeWhile_imp hmem
        simp at hother
  · rintro ⟨hsplit, hfirst⟩
    have hfront : ∀ c ∈ front, (c != '*') = true := fun c hc => by
      have : c ≠ '*' := fun h => hfirst (h ▸ hc)
      simp [this]
    simp only [hsplit, List.dropWhile_append_of_pos hfront,
      List.takeWhile_append_of_pos hfront]
    simp

/-- What lies between a prefix and a suffix that do not overlap. -/
theorem between_iff {cs front behind m : List Char} (hfront : front <+: cs)
    (hbehind : behind <:+ cs)
    (hlength : front.length + behind.length ≤ cs.length) :
    (cs.take (cs.length - behind.length)).drop front.length = m ↔
      cs = front ++ m ++ behind := by
  obtain ⟨y, rfl⟩ := hbehind
  obtain ⟨x, rfl⟩ : front <+: y :=
    List.prefix_of_prefix_length_le hfront (List.prefix_append y behind)
      (by simp at hlength; omega)
  rw [List.length_append, Nat.add_sub_cancel, List.take_left, List.drop_left,
    List.append_cancel_right_eq, List.append_cancel_left_eq]

/-- The matcher accepts a specifier when both ends of the pattern lie on it,
and does not ask that they lie apart: this is where the overlap comes from. -/
theorem starMatch?_eq_some {pattern specifier : String} {n : Nat}
    {m : List Char} :
    starMatch? pattern specifier = some (n, m) ↔
      ∃ front behind, HasStar pattern front behind ∧
      (front <+: specifier.toList ∧ behind <:+ specifier.toList) ∧
        front.length = n ∧
      (specifier.toList.take (specifier.toList.length - behind.length)).drop
        front.length = m := by
  simp only [starMatch?, Option.bind_eq_bind, Option.bind_eq_some_iff,
    Prod.exists, splitPattern?_iff, Option.ite_none_right_eq_some,
    Bool.and_eq_true, List.isPrefixOf_iff_prefix,
    List.isSuffixOf_iff_suffix, Option.some.injEq, Prod.mk.injEq]

/-- The test at both ends succeeds for patterns that fit and for those that
overlap. -/
theorem starMatch?_iff {pattern specifier : String} {n : Nat} {m : List Char} :
    starMatch? pattern specifier = some (n, m) ↔
      Fits specifier pattern n m ∨ Overlaps specifier pattern n ∧ m = [] := by
  rw [starMatch?_eq_some]
  constructor
  · rintro ⟨front, behind, hstar, ⟨hfront, hbehind⟩, hn, hm⟩
    by_cases hlength : front.length + behind.length ≤ specifier.toList.length
    · exact .inl ⟨front, behind, hstar, hn,
        (between_iff hfront hbehind hlength).1 hm⟩
    · refine .inr ⟨⟨front, behind, hstar, hn, hfront, hbehind, by omega⟩, ?_⟩
      rw [← hm]
      exact List.drop_eq_nil_of_le (by simp only [List.length_take]; omega)
  · rintro (⟨front, behind, hstar, hn, hwhole⟩ |
      ⟨⟨front, behind, hstar, hn, hfront, hbehind, hlength⟩, rfl⟩)
    · have hfront : front <+: specifier.toList :=
        ⟨m ++ behind, by rw [hwhole, List.append_assoc]⟩
      have hbehind : behind <:+ specifier.toList := ⟨front ++ m, hwhole.symm⟩
      refine ⟨front, behind, hstar, ⟨hfront, hbehind⟩, hn,
        (between_iff hfront hbehind ?_).2 hwhole⟩
      simp only [hwhole, List.length_append]
      omega
    · exact ⟨front, behind, hstar, ⟨hfront, hbehind⟩, hn,
        List.drop_eq_nil_of_le (by simp only [List.length_take]; omega)⟩

/-! ### The best pattern -/

/-- Among entries of a table, the one that fits with the most before its star,
the first of equals, with what it fits by; nothing if none fits. -/
inductive IsBest {α : Type} (fits : String → Nat → List Char → Prop)
    (entries : Table α) :
    Option (Nat × List Char × α) → Prop
  | nothing (h : ∀ e ∈ entries, ∀ n m, ¬ fits e.1 n m) :
      IsBest fits entries none
  | entry {before after : Table α} {pattern : String} {targets : α} {n : Nat}
      {m : List Char}
      (hentries : entries = before ++ (pattern, targets) :: after)
      (hfits : fits pattern n m)
      (hbefore : ∀ e ∈ before, ∀ n' m', fits e.1 n' m' → n' < n)
      (hafter : ∀ e ∈ after, ∀ n' m', fits e.1 n' m' → n' ≤ n) :
      IsBest fits entries (some (n, m, targets))

/-- What a specifier is an alias of: the targets of the first pattern without
star that is the specifier, with nothing for a star, or else those of the best
pattern with star. -/
inductive IsChoice {α : Type} (fits : String → Nat → List Char → Prop)
    (aliases : Table α) (specifier : String) : Option (List Char × α) → Prop
  | plain {before after : Table α} {targets : α}
      (hstar : '*' ∉ specifier.toList)
      (haliases : aliases = before ++ (specifier, targets) :: after)
      (hbefore : ∀ e ∈ before, e.1 ≠ specifier) :
    IsChoice fits aliases specifier (some ([], targets))
  | star {best : Option (Nat × List Char × α)}
      (hplain : ∀ e ∈ aliases, e.1 = specifier → '*' ∈ e.1.toList)
      (hbest : IsBest fits aliases best) :
      IsChoice fits aliases specifier (best.map (·.2))

section

variable {α : Type} {fits fits' : String → Nat → List Char → Prop}
  {entries : Table α} {best : Option (Nat × List Char × α)}

/-- How a choice is shown in practice: the entry that fits, longer in front
than all that stand before it and no shorter than those behind it. -/
theorem IsChoice.entry {specifier pattern : String} {before after : Table α}
    {targets : α} {n : Nat} {m : List Char}
    (hentries : entries = before ++ (pattern, targets) :: after)
    (hplain : ∀ e ∈ entries, e.1 = specifier → '*' ∈ e.1.toList)
    (hfits : fits pattern n m)
    (hbefore : ∀ e ∈ before, ∀ n' m', fits e.1 n' m' → n' < n)
    (hafter : ∀ e ∈ after, ∀ n' m', fits e.1 n' m' → n' ≤ n) :
    IsChoice fits entries specifier (some (m, targets)) :=
  .star hplain (.entry hentries hfits hbefore hafter)

theorem IsBest.congr (h : IsBest fits entries best)
    (hfits : ∀ e ∈ entries, ∀ n m, fits e.1 n m ↔ fits' e.1 n m) :
    IsBest fits' entries best := by
  cases h with
  | nothing h =>
    exact .nothing fun e he n m hf => h e he n m ((hfits e he n m).2 hf)
  | entry hentries hf hbefore hafter =>
    subst hentries
    have hself := hfits _ (List.mem_append_right _ List.mem_cons_self)
    refine .entry rfl ((hself _ _).1 hf) (fun e he n' m' hf => ?_)
      fun e he n' m' hf => ?_
    · exact hbefore e he n' m' ((hfits e (by simp [he]) n' m').2 hf)
    · exact hafter e he n' m' ((hfits e (by simp [he]) n' m').2 hf)

theorem IsChoice.congr {specifier : String} {choice : Option (List Char × α)}
    (h : IsChoice fits entries specifier choice)
    (hfits : ∀ e ∈ entries, ∀ n m, fits e.1 n m ↔ fits' e.1 n m) :
    IsChoice fits' entries specifier choice := by
  cases h with
  | plain hstar haliases hbefore => exact .plain hstar haliases hbefore
  | star hplain hbest => exact .star hplain (hbest.congr hfits)

/-- A pattern fits in one way only. -/
def Functional (fits : String → Nat → List Char → Prop) : Prop :=
  ∀ p n m n' m', fits p n m → fits p n' m' → n = n' ∧ m = m'

/-- Two places in one list are the same, or each is before or behind the
other. -/
theorem eq_or_mem_of_append_eq {γ : Type}
    {before after before' after' : List γ} {x x' : γ}
    (h : before ++ x :: after = before' ++ x' :: after') :
    x = x' ∨ (x ∈ before' ∧ x' ∈ after) ∨ (x' ∈ before ∧ x ∈ after') := by
  rcases List.append_eq_append_iff.1 h with ⟨between, rfl, hrest⟩ |
    ⟨between, rfl, hrest⟩ <;>
    cases between <;> cases hrest <;> simp

/-- The best entry is determined by the entries, provided a pattern fits a
specifier in one way only. -/
theorem IsBest.unique (hfits : Functional fits)
    {best' : Option (Nat × List Char × α)} (h : IsBest fits entries best)
    (h' : IsBest fits entries best') : best = best' := by
  cases h with
  | nothing h =>
    cases h' with
    | nothing => rfl
    | entry hentries hf =>
      subst hentries
      exact absurd hf (h _ (List.mem_append_right _ List.mem_cons_self) _ _)
  | entry hentries hf hbefore hafter =>
    subst hentries
    cases h' with
    | nothing h' =>
      exact absurd hf (h' _ (List.mem_append_right _ List.mem_cons_self) _ _)
    | entry hentries' hf' hbefore' hafter' =>
      -- the earlier of two entries would have less before its star, and yet no
      -- less
      rcases eq_or_mem_of_append_eq hentries' with hsame | ⟨hmem, hmem'⟩ |
        ⟨hmem, hmem'⟩
      · cases hsame
        obtain ⟨rfl, rfl⟩ := hfits _ _ _ _ _ hf hf'
        rfl
      · have := hbefore' _ hmem _ _ hf
        have := hafter _ hmem' _ _ hf'
        omega
      · have := hbefore _ hmem _ _ hf'
        have := hafter' _ hmem' _ _ hf
        omega

/-- So is the choice: two answers to the same question are the same. -/
theorem IsChoice.unique (hfits : Functional fits) {specifier : String}
    {choice choice' : Option (List Char × α)}
    (h : IsChoice fits entries specifier choice)
    (h' : IsChoice fits entries specifier choice') :
    choice = choice' := by
  cases h with
  | plain hstar haliases hbefore =>
    subst haliases
    cases h' with
    | plain _ haliases' hbefore' =>
      rcases eq_or_mem_of_append_eq haliases' with hsame | ⟨hmem, -⟩ | ⟨hmem, -⟩
      · cases hsame
        rfl
      · exact absurd rfl (hbefore' _ hmem)
      · exact absurd rfl (hbefore _ hmem)
    | star hplain _ =>
      exact absurd (hplain _ (List.mem_append_right _ List.mem_cons_self) rfl)
        hstar
  | star hplain hbest =>
    cases h' with
    | plain hstar haliases' _ =>
      subst haliases'
      exact absurd (hplain _ (List.mem_append_right _ List.mem_cons_self) rfl)
        hstar
    | star _ hbest' => rw [hbest.unique hfits hbest']

/-- The entries of a table with other targets, place for place. -/
def retarget {β : Type} (f : α → β) (entries : Table α) : Table β :=
  entries.map fun e => (e.1, f e.2)

variable {β : Type} {f : α → β}

/-- Every split of the retargeted table comes from a split of the table
itself. -/
theorem retarget_eq_append {before after : Table β} {pattern : String}
    {targets : β}
    (h : retarget f entries = before ++ (pattern, targets) :: after) :
    ∃ before' targets' after', entries = before' ++
      (pattern, targets') :: after' ∧ retarget f before' = before ∧
      f targets' = targets ∧ retarget f after' = after := by
  obtain ⟨before', rest, rfl, hbefore, hrest⟩ := List.map_eq_append_iff.1 h
  obtain ⟨⟨pattern', targets'⟩, after', rfl, hentry, hafter⟩ :=
    List.map_eq_cons_iff.1 hrest
  cases hentry
  exact ⟨before', targets', after', rfl, hbefore, rfl, hafter⟩

theorem mem_retarget {e : String × α} (h : e ∈ entries) :
    (e.1, f e.2) ∈ retarget f entries :=
  List.mem_map_of_mem (f := fun e : String × α => (e.1, f e.2)) h

/-- What an entry is worth does not depend on its targets: the best of a
retargeted table is the retargeted best. -/
theorem IsBest.of_retarget {best : Option (Nat × List Char × β)}
    (h : IsBest fits (retarget f entries) best) :
    ∃ best', IsBest fits entries best' ∧ best = best'.map fun b =>
      (b.1, b.2.1, f b.2.2) := by
  cases h with
  | nothing h => exact ⟨none, .nothing fun e he => h _ (mem_retarget he), rfl⟩
  | entry hentries hfits hbefore hafter =>
    obtain ⟨before', targets', after', rfl, rfl, rfl, rfl⟩ :=
      retarget_eq_append hentries
    exact ⟨_, .entry rfl hfits (fun e he => hbefore _ (mem_retarget he))
      (fun e he => hafter _ (mem_retarget he)), rfl⟩

/-- And likewise for the choice, which lets entries be read with their targets
taken for texts. -/
theorem IsChoice.of_retarget {specifier : String}
    {choice : Option (List Char × β)}
    (h : IsChoice fits (retarget f entries) specifier choice) :
    ∃ choice', IsChoice fits entries specifier choice' ∧
      choice = choice'.map fun c => (c.1, f c.2) := by
  cases h with
  | plain hstar haliases hbefore =>
    obtain ⟨before', targets', after', rfl, rfl, rfl, rfl⟩ :=
      retarget_eq_append haliases
    exact ⟨_, .plain hstar rfl fun e he => hbefore _ (mem_retarget he), rfl⟩
  | star hplain hbest =>
    obtain ⟨best', hbest', rfl⟩ := hbest.of_retarget
    exact ⟨_, .star (fun e he => hplain _ (mem_retarget he))
      hbest', by simp [Function.comp_def]⟩

end

/-! ### The pass over the table -/

/-- A pattern is found at both ends of the specifier. -/
def Found (specifier pattern : String) (n : Nat) (m : List Char) : Prop :=
  starMatch? pattern specifier = some (n, m)

theorem functional_found (specifier : String) :
    Functional (Found specifier) := by
  intro p n m n' m' h h'
  cases h.symm.trans h'
  exact ⟨rfl, rfl⟩

section

variable {specifier : String} {entries : Table (List Value)}
  {best : Option (Nat × List Char × List Value)}
  {n : Nat} {m : List Char} {targets : List Value}

/-- No pattern of a table has more before its star than the best one. -/
theorem IsBest.le_of_found
    (h : IsBest (Found specifier) entries (some (n, m, targets)))
    {e : String × List Value} (he : e ∈ entries) {n' : Nat} {m' : List Char}
    (hf : Found specifier e.1 n' m') : n' ≤ n := by
  cases h with
  | entry hentries hfits hbefore hafter =>
    subst hentries
    rcases List.mem_append.1 he with he | he
    · exact Nat.le_of_lt (hbefore e he n' m' hf)
    · rcases List.mem_cons.1 he with rfl | he
      · rw [Found, hfits] at hf
        cases hf
        exact Nat.le_refl n
      · exact hafter e he n' m' hf

/-- The best pattern stays the best if the next one has no more before its
star. -/
theorem IsBest.keep
    (h : IsBest (Found specifier) entries (some (n, m, targets)))
    {e : String × List Value}
    (hle : ∀ n' m', Found specifier e.1 n' m' → n' ≤ n) :
    IsBest (Found specifier) (entries ++ [e]) (some (n, m, targets)) := by
  cases h with
  | entry hentries hfits hbefore hafter =>
    subst hentries
    refine .entry (List.append_assoc ..) hfits hbefore fun e' he' => ?_
    rcases List.mem_append.1 he' with he' | he'
    · exact hafter e' he'
    · rw [List.mem_singleton.1 he']
      exact hle

/-- A pattern with more before its star than all others is the best one. -/
theorem IsBest.of_lt {e : String × List Value} (hf : Found specifier e.1 n m)
    (hlt : ∀ e ∈ entries, ∀ n' m', Found specifier e.1 n' m' → n' < n) :
    IsBest (Found specifier) (entries ++ [e]) (some (n, m, e.2)) :=
  .entry rfl hf hlt fun e' he' => by cases he'

/-- The best of a table after one more entry. -/
theorem IsBest.snoc (h : IsBest (Found specifier) entries best)
    (e : String × List Value) :
    IsBest (Found specifier) (entries ++ [e])
      (longer best ((starMatch? e.1 specifier).map fun x =>
        (x.1, x.2, e.2))) := by
  cases hmatch : starMatch? e.1 specifier with
  | none =>
    have hno : ∀ n m, ¬ Found specifier e.1 n m := fun n m hf => by
      rw [Found, hmatch] at hf
      cases hf
    cases best with
    | none =>
      obtain ⟨hnone⟩ := h
      refine .nothing fun e' he' => ?_
      rcases List.mem_append.1 he' with he' | he'
      · exact hnone e' he'
      · rw [List.mem_singleton.1 he']
        exact hno
    | some b => exact h.keep fun n' m' hf => absurd hf (hno n' m')
  | some found =>
    obtain ⟨n', m'⟩ := found
    cases best with
    | none =>
      obtain ⟨hnone⟩ := h
      exact .of_lt hmatch fun e' he' k l hf => absurd hf (hnone e' he' k l)
    | some b =>
      obtain ⟨n, m, targets⟩ := b
      show IsBest _ _ (if n < n' then some (n', m', e.2)
        else some (n, m, targets))
      split
      · next hlt =>
          exact .of_lt hmatch fun e' he' k l hf =>
            Nat.lt_of_le_of_lt (h.le_of_found he' hf) hlt
      · next hge =>
        refine h.keep fun k l hf => ?_
        rw [Found, hmatch] at hf
        cases hf
        exact Nat.le_of_not_lt hge

/-- The pass over the rest of a table goes on from the best of what is behind
it. -/
theorem IsBest.foldl (h : IsBest (Found specifier) entries best)
    (rest : Table (List Value)) :
    IsBest (Found specifier) (entries ++ rest) (rest.foldl (fun best e =>
      longer best ((starMatch? e.1 specifier).map fun x => (x.1, x.2, e.2)))
        best) := by
  induction rest generalizing entries best with
  | nil => simpa using h
  | cons e rest ih =>
    have hnext := ih (h.snoc e)
    rw [List.append_assoc] at hnext
    exact hnext

/-- The loop over the entries computes the choice, for the fit it uses. -/
theorem isChoice_aliasTargets? (aliases : Table (List Value))
    (specifier : String) :
    IsChoice (Found specifier) aliases specifier
      (aliasTargets? aliases specifier) := by
  unfold aliasTargets?
  split
  · next pattern targets hfind =>
    obtain ⟨hself, before, after, haliases, hbefore⟩ :=
      List.find?_eq_some_iff_append.1 hfind
    simp only [String.contains_char_eq, Bool.and_eq_true, Bool.not_eq_true',
      decide_eq_false_iff_not, beq_iff_eq] at hself
    obtain ⟨hstar, rfl⟩ := hself
    refine .plain hstar haliases fun e he hsame => ?_
    have hother := hbefore e he
    simp [String.contains_char_eq, hsame, hstar] at hother
  · next hfind =>
    refine .star (fun e he hsame => ?_) ?_
    · have hno := List.find?_eq_none.1 hfind e he
      simpa [String.contains_char_eq, hsame] using hno
    · have hstart : IsBest (Found specifier) ([] : Table (List Value)) none :=
        .nothing fun e he => by cases he
      exact hstart.foldl aliases

end

/-! ### Candidates -/

/-- The targets of a choice below a directory, with the filling in place of
every star. -/
def pathsOf (base : Path) : Option (List Char × List String) → List Path
  | none => []
  | some (filling, targets) => targets.map fun target =>
    base.child (String.ofList (filling.intercalate (target.toList.splitOn '*')))

/-- Filling in the stars puts the filling between the pieces that the stars
separate. -/
theorem fillStars_eq (target : String) (filling : List Char) :
    fillStars target filling =
      String.ofList (filling.intercalate (target.toList.splitOn '*')) := by
  unfold fillStars
  congr 1
  induction target.toList with
  | nil => simp
  | cons c cs ih =>
    obtain ⟨piece, pieces, hcs⟩ :=
      List.exists_cons_of_ne_nil (List.splitOn_ne_nil '*' cs)
    unfold List.splitOn at ih hcs ⊢
    rw [List.flatMap_cons, ih, List.splitOnP_cons_eq_if_modifyHead, hcs]
    by_cases hc : c = '*'
    · simp [hc, List.intercalate_cons_cons]
    · cases pieces with
      | nil => simp [hc]
      | cons next pieces => simp [hc, List.intercalate_cons_cons]

/-- Once the choice is known the candidates are its targets, with the matched
text put for the star. -/
theorem aliasCandidates_of_choice {r : Resolver} {base : Path}
    (hbase : r.baseUrl.or r.aliasBase = some base)
    {specifier : String} {choice : Option (List Char × List String)}
    (h : aliasTargets? r.aliases specifier = choice.map fun c =>
    (c.1, c.2.map Value.text)) :
    r.aliasCandidates specifier = .ok (pathsOf base choice) := by
  unfold aliasCandidates
  rw [hbase, h]
  cases choice with
  | none => rfl
  | some c =>
    obtain ⟨filling, targets⟩ := c
    simp only [Option.map_some, pathsOf, ← fillStars_eq]
    clear h
    induction targets with
    | nil => rfl
    | cons target targets ih =>
      rw [List.map_cons, List.mapM_cons, ih]
      rfl

/-- A pattern fits a specifier, or its ends overlap there, which leaves
nothing for the star. -/
def FitsOrOverlaps (specifier pattern : String) (n : Nat) (m : List Char) :
    Prop :=
  Fits specifier pattern n m ∨ Overlaps specifier pattern n ∧ m = []

/-- A pattern is split in one place, so a specifier fits it or overlaps with it
in at most one way. -/
theorem functional_fitsOrOverlaps (specifier : String) :
    Functional (FitsOrOverlaps specifier) := by
  intro p n m n' m' h h'
  cases (starMatch?_iff.2 h).symm.trans (starMatch?_iff.2 h')
  exact ⟨rfl, rfl⟩

/-- The candidates for a specifier come from the one choice among the patterns
that fit it or overlap in it. If none overlaps, that is the one choice among
the patterns that fit. -/
theorem aliasCandidates_chosen (r : Resolver) {base : Path}
    (hbase : r.baseUrl.or r.aliasBase = some base)
    {aliases : Table (List String)}
    (haliases : r.aliases = retarget (List.map Value.text) aliases)
    (specifier : String) :
    ∃ choice, r.aliasCandidates specifier = .ok (pathsOf base choice) ∧
      (∀ other, IsChoice (FitsOrOverlaps specifier) aliases specifier other ↔
        other = choice) ∧
      ((∀ e ∈ aliases, ∀ n, ¬ Overlaps specifier e.1 n) →
        ∀ other, IsChoice (Fits specifier) aliases specifier other ↔
          other = choice) := by
  have hfound := isChoice_aliasTargets? r.aliases specifier
  rw [haliases] at hfound
  obtain ⟨choice, hchoice, htargets⟩ := hfound.of_retarget
  have hloose : ∀ other, IsChoice (FitsOrOverlaps specifier) aliases specifier
      other ↔ other = choice := by
    have hself : IsChoice (FitsOrOverlaps specifier) aliases specifier choice :=
      hchoice.congr fun e _ n m => starMatch?_iff
    exact fun other =>
      ⟨fun h => h.unique (functional_fitsOrOverlaps specifier) hself,
      fun h => h ▸ hself⟩
  refine ⟨choice, aliasCandidates_of_choice hbase (haliases ▸ htargets), hloose,
    fun hno other => ?_⟩
  have hsame : ∀ e ∈ aliases, ∀ n m, Fits specifier e.1 n m ↔
      FitsOrOverlaps specifier e.1 n m :=
    fun e he n m => by simp [FitsOrOverlaps, hno e he n]
  rw [← hloose other]
  exact ⟨fun h => h.congr hsame,
    fun h => h.congr fun e he n m => (hsame e he n m).symm⟩

/-! ### Two tables -/

/-- A fit read off the two ends of the pattern: the specifier is front, match
and back. -/
theorem Fits.of_split {specifier pattern : String} {n : Nat}
    {m front behind : List Char} (h : Fits specifier pattern n m)
    (hsplit : splitPattern? pattern = some (front, behind)) :
    front.length = n ∧ specifier.toList = front ++ m ++ behind := by
  obtain ⟨front', behind', hstar, hn, hwhole⟩ := h
  cases hsplit.symm.trans (splitPattern?_iff.2 hstar)
  exact ⟨hn, hwhole⟩

/-- In a specifier with room for both parts of a pattern they do not overlap. -/
theorem not_overlaps {specifier pattern : String} {front behind : List Char}
    (hsplit : splitPattern? pattern = some (front, behind))
    (hroom : front.length + behind.length ≤ specifier.toList.length) (n : Nat) :
    ¬ Overlaps specifier pattern n := by
  rintro ⟨front', behind', hstar, -, -, -, hshort⟩
  cases hsplit.symm.trans (splitPattern?_iff.2 hstar)
  omega

/-- A project with the given aliases. -/
def aliased (aliases : Table (List String)) : Resolver where
  files := default
  baseUrl := some ⟨.root, ["proj"]⟩
  aliases := retarget (List.map Value.text) aliases

/-- An alias for sources, and one for a part of them that is kept elsewhere. -/
def formAliases : Table (List String) :=
  [("@/*", ["src/*"]), ("@/forms/*", ["src/inputs/*", "lib/*/*"])]

/-- Two stars fit; the longer front wins although its entry comes second. -/
theorem isChoice_formAliases :
    IsChoice (Fits "@/forms/field") formAliases "@/forms/field"
      (some ("field".toList, ["src/inputs/*", "lib/*/*"])) := by
  refine .entry (show _ = [("@/*", ["src/*"])] ++ _ :: [] from rfl) (by decide)
    ⟨"@/forms/".toList, [], ⟨by decide, by decide⟩, rfl, by decide⟩ ?_
      fun e he => by cases he
  intro e he n' m' hf
  obtain rfl := List.mem_singleton.1 he
  obtain ⟨rfl, -⟩ := hf.of_split (show _ = some ("@/".toList, []) by decide)
  decide

theorem aliasCandidates_formAliases :
    (∀ e ∈ formAliases, ∀ n, ¬ Overlaps "@/forms/field" e.1 n) ∧
      IsChoice (Fits "@/forms/field") formAliases "@/forms/field"
        (some ("field".toList, ["src/inputs/*", "lib/*/*"])) ∧
      (aliased formAliases).aliasCandidates "@/forms/field" =
        .ok [⟨.root, ["proj", "src", "inputs", "field"]⟩,
          ⟨.root, ["proj", "lib", "field", "field"]⟩] := by
  have hroom : ∀ e ∈ formAliases, ∀ n, ¬ Overlaps "@/forms/field" e.1 n := by
    intro e he
    rcases List.mem_cons.1 he with rfl | he
    · exact not_overlaps (show _ = some ("@/".toList, []) by decide) (by decide)
    · obtain rfl := List.mem_singleton.1 he
      exact not_overlaps (show _ = some ("@/forms/".toList, []) by decide)
        (by decide)
  obtain ⟨choice, hpaths, -, hchoice⟩ :=
    aliasCandidates_chosen (aliased formAliases) rfl rfl "@/forms/field"
  obtain rfl := (hchoice hroom _).1 isChoice_formAliases
  exact ⟨hroom, isChoice_formAliases,
    hpaths.trans (congrArg Except.ok (by decide))⟩

/-- An alias with a part behind its star, and one for everything else. -/
def uiAliases : Table (List String) :=
  [("@ui/*/ui", ["src/*/ui"]), ("@*", ["vendor/*"])]

/-- Only the second pattern fits, but the first one is taken, since its ends
overlap in the specifier. -/
theorem aliasCandidates_overlap :
    IsChoice (Fits "@ui/ui") uiAliases "@ui/ui"
      (some ("ui/ui".toList, ["vendor/*"])) ∧
      (aliased uiAliases).aliasCandidates "@ui/ui" =
      .ok [⟨.root, ["proj", "src", "ui"]⟩] ∧
      pathsOf ⟨.root, ["proj"]⟩ (some ("ui/ui".toList, ["vendor/*"])) ≠
        [⟨.root, ["proj", "src", "ui"]⟩] := by
  refine ⟨?_, ?_, by decide⟩
  · refine .entry (show _ = [("@ui/*/ui", ["src/*/ui"])] ++ _ :: []
      from rfl) (by decide) ⟨"@".toList, [], ⟨by decide, by decide⟩, rfl, by
      decide⟩ ?_ fun e he => by cases he
    intro e he n' m' hf
    obtain rfl := List.mem_singleton.1 he
    -- the two ends of the first pattern take up more than the specifier has
    have hlength := congrArg List.length
      (hf.of_split (show _ = some ("@ui/".toList, "/ui".toList) by decide)).2
    simp at hlength
  · have hfirst : IsChoice (Found "@ui/ui") (aliased uiAliases).aliases "@ui/ui"
        (some ([], [.text "src/*/ui"])) := by
      refine .entry (show _ = [] ++ _ :: [("@*", [.text "vendor/*"])]
        from rfl) (by decide) (show starMatch? "@ui/*/ui" "@ui/ui" =
        some (4, []) by decide) (fun e he => by cases he) ?_
      intro e he n' m' hf
      obtain rfl := List.mem_singleton.1 he
      cases hf.symm.trans (show _ = some (1, "ui/ui".toList) by decide)
      decide
    have htargets := (isChoice_aliasTargets? _ _).unique
      (functional_found _) hfirst
    unfold aliasCandidates
    rw [htargets]
    rfl

end Resolver

end RenderLoop
