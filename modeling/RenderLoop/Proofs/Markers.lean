import RenderLoop.Finding.Suppression

/-!
# What a silencing comment looks like

The two markers are regular expressions. Here they are read as what they say
about a line: it is cut into the opening of a comment, blanks, a word and a
rest that does not go on with the word.

> `Suppression.search_sameLineMarker`, `Suppression.search_nextLineMarker`:
> the two cuts.

A carriage return at the end of a line belongs to the rest, so that it makes
no difference to either (`Suppression.search_concat_cr`).

An expression is given by the places where it can end. For each operator there
is a lemma about these places in terms of the text that was read
(`Cursor.Spans`), and a marker is taken apart with them from left to right. The
word has to end where it ends: that is what the assertion behind it is for,
and for the shorter word a look ahead as well, since it begins the longer one.
-/

namespace RenderLoop

namespace Cursor

/-- The text from one place to another. -/
def Spans (c : Cursor) (cs : List Char) (e : Cursor) : Prop :=
  c.after = cs ++ e.after ∧ e.before = cs.reverse ++ c.before

variable {c e : Cursor}

theorem spans_nil : Spans c [] e ↔ e = c := by
  obtain ⟨cb, ca⟩ := c
  obtain ⟨eb, ea⟩ := e
  simp only [Spans, List.nil_append, List.reverse_nil, Cursor.mk.injEq]
  constructor
  · rintro ⟨rfl, rfl⟩
    exact ⟨rfl, rfl⟩
  · rintro ⟨rfl, rfl⟩
    exact ⟨rfl, rfl⟩

/-- A text is passed one character at a time. -/
theorem spans_cons {x : Char} {cs : List Char} :
    Spans c (x :: cs) e ↔
      ∃ rest, c.after = x :: rest ∧ Spans ⟨x :: c.before, rest⟩ cs e := by
  unfold Spans
  constructor
  · rintro ⟨hafter, hbefore⟩
    exact ⟨cs ++ e.after, hafter, rfl, by simpa using hbefore⟩
  · rintro ⟨rest, hafter, rfl, hbefore⟩
    exact ⟨hafter, by simpa using hbefore⟩

/-- A single character is read if it is of the kind asked for. -/
theorem mem_next {p : Char → Bool} :
    e ∈ c.next p ↔ ∃ x rest, c.after = x :: rest ∧ p x = true ∧
      e = ⟨x :: c.before, rest⟩ := by
  unfold next
  split
  · next x rest hafter =>
    constructor
    · intro h
      split at h
      · next hp => exact ⟨x, rest, hafter, hp, List.mem_singleton.1 h⟩
      · cases h
    · rintro ⟨y, rest', hafter', hp, rfl⟩
      rw [hafter] at hafter'
      obtain ⟨rfl, rfl⟩ := List.cons.inj hafter'
      rw [if_pos hp]
      exact List.mem_singleton_self _
  · next hafter =>
    constructor
    · intro h
      cases h
    · rintro ⟨x, rest, hafter', -, -⟩
      rw [hafter] at hafter'
      cases hafter'

/-- The places from a given one on are those behind a part of the text. -/
theorem mem_toEnd {before cs : List Char} :
    e ∈ toEnd before cs ↔ ∃ passed, Spans ⟨before, cs⟩ passed e := by
  induction cs generalizing before with
  | nil =>
    constructor
    · intro h
      exact ⟨[], spans_nil.2 (List.mem_singleton.1 h)⟩
    · rintro ⟨passed, hafter, hbefore⟩
      obtain ⟨rfl, hnil⟩ := List.append_eq_nil_iff.1 hafter.symm
      rw [spans_nil.1 ⟨hafter, hbefore⟩]
      exact List.mem_singleton_self _
  | cons x rest ih =>
    rw [toEnd, List.mem_cons, ih]
    constructor
    · rintro (rfl | ⟨passed, h⟩)
      · exact ⟨[], spans_nil.2 rfl⟩
      · exact ⟨x :: passed, spans_cons.2 ⟨rest, rfl, h⟩⟩
    · rintro ⟨passed, h⟩
      cases passed with
      | nil => exact .inl (spans_nil.1 h)
      | cons y passed =>
        obtain ⟨rest', hafter, h⟩ := spans_cons.1 h
        obtain ⟨rfl, rfl⟩ := List.cons.inj hafter
        exact .inr ⟨passed, h⟩

end Cursor

namespace Regex

open Cursor (Spans spans_nil spans_cons)

variable {c e : Cursor}

theorem ends_set (negated : Bool) (items : List CharItem) :
    (set negated items).ends c = c.next fun x =>
      items.any (·.admits x) != negated := rfl

theorem ends_assert (a : Assertion) :
    (assert a).ends c = if a.holds c then [c] else [] := rfl

theorem ends_ahead (negated : Bool) (r : Regex) :
    (ahead negated r).ends c = if (r.ends c).isEmpty == negated then [c]
      else [] := rfl

/-- One expression after another: the second goes on where the first has
ended. -/
theorem mem_ends_seq {r s : Regex} :
    e ∈ (seq r s).ends c ↔ ∃ m ∈ r.ends c, e ∈ s.ends m :=
  List.mem_flatMap

/-- One expression or another. -/
theorem mem_ends_alt {r s : Regex} :
    e ∈ (alt r s).ends c ↔ e ∈ r.ends c ∨ e ∈ s.ends c :=
  List.mem_append

theorem mem_ends_char {x : Char} : e ∈ (char x).ends c ↔ Spans c [x] e := by
  have hadmits : ∀ y,
      ((([.range x x] : List CharItem).any (·.admits y)) != false) = true ↔
      y = x := by
    intro y
    rw [bne_iff_ne, ne_eq, Bool.not_eq_false, List.any_cons, List.any_nil,
      Bool.or_false, CharItem.admits, Bool.and_eq_true, decide_eq_true_eq,
      decide_eq_true_eq]
    constructor
    · rintro ⟨hle, hge⟩
      exact Char.le_antisymm hge hle
    · rintro rfl
      exact ⟨Char.le_refl y, Char.le_refl y⟩
  rw [char, ends_set, Cursor.mem_next, spans_cons]
  constructor
  · rintro ⟨y, rest, hafter, hy, rfl⟩
    obtain rfl := (hadmits y).1 hy
    exact ⟨rest, hafter, spans_nil.2 rfl⟩
  · rintro ⟨rest, hafter, h⟩
    exact ⟨x, rest, hafter, (hadmits x).2 rfl, spans_nil.1 h⟩

/-- A literal reads exactly its text. -/
theorem mem_ends_literal {s : String} :
    e ∈ (literal s).ends c ↔ Spans c s.toList e := by
  unfold literal
  induction s.toList generalizing c with
  | nil =>
    rw [List.foldr_nil, spans_nil]
    exact List.mem_singleton
  | cons x cs ih =>
    rw [List.foldr_cons, mem_ends_seq, spans_cons]
    constructor
    · rintro ⟨m, hm, he⟩
      obtain ⟨rest, hafter, hm⟩ := spans_cons.1 (mem_ends_char.1 hm)
      obtain rfl := spans_nil.1 hm
      exact ⟨rest, hafter, ih.1 he⟩
    · rintro ⟨rest, hafter, he⟩
      exact ⟨⟨x :: c.before, rest⟩,
        mem_ends_char.2 (spans_cons.2 ⟨rest, hafter, spans_nil.2 rfl⟩), ih.2 he⟩

/-- Rounds of one character each pass over a run of them. Every round leaves
less text behind it, so the places it adds are new. -/
theorem mem_upTo_next {p : Char → Bool} {n : Nat} {seen : List Cursor}
    (hn : c.after.length < n) (hc : c ∈ seen)
    (hseen : ∀ d ∈ seen, c.after.length ≤ d.after.length) :
    e ∈ upTo (Cursor.next p) n seen [c] ↔
      e ∈ seen ∨ ∃ cs, (∀ x ∈ cs, p x = true) ∧ Spans c cs e := by
  induction n generalizing c seen with
  | zero => exact absurd hn (Nat.not_lt_zero _)
  | succ n ih =>
    -- without a further round only the place itself is reached
    have hstop : (c.next p = []) →
        ((∃ cs, (∀ x ∈ cs, p x = true) ∧ Spans c cs e) → e ∈ seen) := by
      rintro hnone ⟨cs, hcs, hspan⟩
      cases cs with
      | nil => exact spans_nil.1 hspan ▸ hc
      | cons x cs =>
        obtain ⟨rest, hafter, -⟩ := spans_cons.1 hspan
        have hmem := Cursor.mem_next.2 ⟨x, rest, hafter,
          hcs x List.mem_cons_self, rfl⟩
        rw [hnone] at hmem
        cases hmem
    have hround : ([c].flatMap (Cursor.next p)).eraseDups = c.next p := by
      rw [List.flatMap_singleton]
      unfold Cursor.next
      split
      · split
        · rfl
        · rfl
      · rfl
    rw [upTo, hround]
    by_cases hnone : c.next p = []
    · rw [hnone]
      exact ⟨.inl, fun h => h.elim id (hstop hnone)⟩
    · obtain ⟨d, hd⟩ := List.exists_mem_of_ne_nil _ hnone
      obtain ⟨x, rest, hafter, hx, rfl⟩ := Cursor.mem_next.1 hd
      have hnext : c.next p = [⟨x :: c.before, rest⟩] := by
        unfold Cursor.next
        rw [hafter]
        exact if_pos hx
      have hnew : seen.contains (⟨x :: c.before, rest⟩ : Cursor) = false := by
        rw [List.contains_eq_mem, decide_eq_false_iff_not]
        intro hmem
        have := hseen _ hmem
        rw [hafter, List.length_cons] at this
        exact absurd this (Nat.not_succ_le_self _)
      rw [hnext, List.filter_cons_of_pos (by rw [hnew]; rfl), List.filter_nil]
      have hlen : c.after.length = rest.length + 1 := by
        rw [hafter, List.length_cons]
      have hseen' : ∀ d ∈ seen ++ [⟨x :: c.before, rest⟩],
          rest.length ≤ d.after.length := by
        intro d hd
        rcases List.mem_append.1 hd with hd | hd
        · have := hseen d hd
          omega
        · obtain rfl := List.mem_singleton.1 hd
          exact Nat.le_refl _
      have hmem : (⟨x :: c.before, rest⟩ : Cursor) ∈ seen ++
        [⟨x :: c.before, rest⟩] := by simp
      have ihnext := ih (by show rest.length < n; omega) hmem hseen'
      show e ∈ upTo _ n (seen ++ [_]) [_] ↔ _
      rw [ihnext, List.mem_append, List.mem_singleton]
      constructor
      · rintro ((h | rfl) | ⟨cs, hcs, hspan⟩)
        · exact .inl h
        · exact .inr ⟨[x], by simpa using hx,
            spans_cons.2 ⟨rest, hafter, spans_nil.2 rfl⟩⟩
        · refine .inr ⟨x :: cs, ?_, spans_cons.2 ⟨rest, hafter, hspan⟩⟩
          intro y hy
          rcases List.mem_cons.1 hy with rfl | hy
          · exact hx
          · exact hcs y hy
      · rintro (h | ⟨cs, hcs, hspan⟩)
        · exact .inl (.inl h)
        · cases cs with
          | nil => exact .inl (.inl (spans_nil.1 hspan ▸ hc))
          | cons y cs =>
            obtain ⟨rest', hafter', hspan⟩ := spans_cons.1 hspan
            rw [hafter] at hafter'
            obtain ⟨rfl, rfl⟩ := List.cons.inj hafter'
            exact .inr ⟨cs, fun z hz =>
              hcs z (List.mem_cons_of_mem _ hz), hspan⟩

/-- Blanks are read as long as one likes, or not at all. -/
theorem mem_ends_blanks : e ∈ (rep (set false [.blank false]) 0 none).ends c ↔
    ∃ cs, (∀ x ∈ cs, isBlankChar x = true) ∧ Spans c cs e := by
  have hblank : ∀ x,
      ((([.blank false] : List CharItem).any (·.admits x)) != false) =
      isBlankChar x := by
    intro x
    simp [CharItem.admits]
  have hstep : (set false [.blank false]).ends = Cursor.next isBlankChar := by
    funext d
    rw [ends_set]
    simp only [hblank]
  show e ∈ upTo (set false [.blank false]).ends (c.after.length + 1) [c] [c] ↔ _
  rw [hstep, mem_upTo_next (Nat.lt_succ_self _) List.mem_cons_self (by simp)]
  refine ⟨fun h => h.elim (fun h => ?_) id, .inr⟩
  exact ⟨[], by simp, spans_nil.2 (List.mem_singleton.1 h)⟩

/-- A search succeeds if the expression ends anywhere, begun at any place of
the text. -/
theorem search_eq_true {r : Regex} {s : String} :
    r.search s = true ↔ ∃ passed c e, Spans (.ofText s) passed c ∧
      e ∈ r.ends c := by
  unfold search
  rw [List.any_eq_true]
  constructor
  · rintro ⟨c, hc, hends⟩
    obtain ⟨passed, hspan⟩ := Cursor.mem_toEnd.1 hc
    have hne : r.ends c ≠ [] := by simpa using hends
    obtain ⟨e, he⟩ := List.exists_mem_of_ne_nil _ hne
    exact ⟨passed, c, e, hspan, he⟩
  · rintro ⟨passed, c, e, hspan, he⟩
    refine ⟨c, Cursor.mem_toEnd.2 ⟨passed, hspan⟩, ?_⟩
    have hne := List.ne_nil_of_mem he
    simpa using hne

end Regex

namespace Suppression

open Cursor (Spans spans_nil spans_cons)

variable {s : String} {line rest : List Char} {word : String}

/-- A comment of a line opens with a word, and the rest of the line follows. -/
def Opens (line : List Char) (word : String) (rest : List Char) : Prop :=
  ∃ before opening blanks, line = before ++
    (opening ++ (blanks ++ (word.toList ++ rest))) ∧
    (opening = "//".toList ∨ opening = "/*".toList) ∧
      ∀ x ∈ blanks, isBlankChar x = true

/-- A comment opens with two slashes or with a slash and a star, and blanks
may follow. -/
theorem mem_ends_commentOpening {c e : Cursor} : e ∈ commentOpening.ends c ↔
    ∃ opening blanks, (opening = "//".toList ∨ opening = "/*".toList) ∧
      (∀ x ∈ blanks, isBlankChar x = true) ∧ Spans c (opening ++ blanks) e := by
  rw [commentOpening, Regex.mem_ends_seq]
  constructor
  · rintro ⟨o, ho, he⟩
    obtain ⟨blanks, hblanks, hafter, hbefore⟩ := Regex.mem_ends_blanks.1 he
    have hspan : ∀ opening, Spans c opening o →
        Spans c (opening ++ blanks) e := by
      rintro opening ⟨hoafter, hobefore⟩
      constructor
      · rw [hoafter, hafter, List.append_assoc]
      · rw [hbefore, hobefore, List.reverse_append, List.append_assoc]
    rcases Regex.mem_ends_alt.1 ho with ho | ho
    · exact ⟨_, blanks, .inl rfl, hblanks,
        hspan _ (Regex.mem_ends_literal.1 ho)⟩
    · exact ⟨_, blanks, .inr rfl, hblanks,
        hspan _ (Regex.mem_ends_literal.1 ho)⟩
  · rintro ⟨opening, blanks, hopening, hblanks, hafter, hbefore⟩
    let o : Cursor := ⟨opening.reverse ++ c.before, blanks ++ e.after⟩
    have ho : Spans c opening o := ⟨hafter.trans (List.append_assoc ..), rfl⟩
    refine ⟨o, Regex.mem_ends_alt.2 ?_,
      Regex.mem_ends_blanks.2 ⟨blanks, hblanks, rfl, ?_⟩⟩
    · rcases hopening with rfl | rfl
      · exact .inl (Regex.mem_ends_literal.2 ho)
      · exact .inr (Regex.mem_ends_literal.2 ho)
    · rw [hbefore, List.reverse_append, List.append_assoc]

/-- A marker is a word at the opening of a comment, with a condition on what
follows. -/
theorem search_marker {tail : Regex} {fits : List Char → Prop}
    (htail : ∀ m front, m.before = word.toList.reverse ++ front →
      ((∃ e, e ∈ tail.ends m) ↔ fits m.after)) :
    (Regex.seq commentOpening (.seq (.literal word) tail)).search s = true ↔
      ∃ rest, Opens s.toList word rest ∧ fits rest := by
  rw [Regex.search_eq_true]
  constructor
  · rintro ⟨before, c, e, ⟨hcafter, -⟩, he⟩
    obtain ⟨o, ho, he⟩ := Regex.mem_ends_seq.1 he
    obtain ⟨m, hm, he⟩ := Regex.mem_ends_seq.1 he
    obtain ⟨opening, blanks, hopening, hblanks, hoafter, -⟩ :=
      mem_ends_commentOpening.1 ho
    obtain ⟨hmafter, hmbefore⟩ := Regex.mem_ends_literal.1 hm
    refine ⟨m.after, ⟨before, opening, blanks, ?_, hopening, hblanks⟩,
      (htail m _ hmbefore).1 ⟨e, he⟩⟩
    rw [← hmafter, ← List.append_assoc opening, ← hoafter]
    exact hcafter
  · rintro ⟨rest, ⟨before, opening, blanks, hs, hopening, hblanks⟩, hfits⟩
    let c : Cursor :=
      ⟨before.reverse, opening ++ (blanks ++ (word.toList ++ rest))⟩
    let o : Cursor := ⟨(opening ++ blanks).reverse ++ c.before,
      word.toList ++ rest⟩
    let m : Cursor := ⟨word.toList.reverse ++ o.before, rest⟩
    obtain ⟨e, he⟩ := (htail m _ rfl).2 hfits
    refine ⟨before, c, e, ⟨hs, (List.append_nil _).symm⟩,
      Regex.mem_ends_seq.2 ⟨o, ?_, ?_⟩⟩
    · exact mem_ends_commentOpening.2
        ⟨opening, blanks, hopening, hblanks, (List.append_assoc ..).symm, rfl⟩
    · exact Regex.mem_ends_seq.2 ⟨m, Regex.mem_ends_literal.2 ⟨rfl, rfl⟩, he⟩

/-- Behind a word stands an edge of it iff no further word character follows. -/
theorem exists_ends_wordEdge {m : Cursor} {front : List Char}
    (hbefore : m.before = word.toList.reverse ++ front)
    (hword : Cursor.headIsWord word.toList.reverse = true) :
    (∃ e, e ∈ (Regex.assert .wordEdge).ends m) ↔
      Cursor.headIsWord m.after = false := by
  have hhead : Cursor.headIsWord m.before = true := by
    rw [hbefore]
    cases hrev : word.toList.reverse with
    | nil =>
      rw [hrev] at hword
      cases hword
    | cons x xs =>
      rw [hrev] at hword
      exact hword
  rw [Regex.ends_assert, Assertion.holds, hhead]
  cases Cursor.headIsWord m.after <;> simp

/-- The marker for its own line: the word, and neither the rest of the other
word nor any other letter behind it. -/
theorem search_sameLineMarker : sameLineMarker.search s = true ↔ ∃ rest,
    Opens s.toList "rld-ignore" rest ∧ ¬ "-next-line".toList <+: rest ∧
      Cursor.headIsWord rest = false := by
  refine search_marker fun m front hbefore => ?_
  -- the place itself, unless the word of the other marker goes on from here
  have hahead : ∀ d, d ∈ (Regex.ahead true (.literal "-next-line")).ends m ↔
      d = m ∧ ¬ "-next-line".toList <+: m.after := by
    intro d
    have hnone : ((Regex.literal "-next-line").ends m).isEmpty = true ↔
        ¬ "-next-line".toList <+: m.after := by
      rw [List.isEmpty_iff, List.eq_nil_iff_forall_not_mem]
      constructor
      · rintro hnone ⟨rest, hrest⟩
        exact hnone ⟨"-next-line".toList.reverse ++ m.before, rest⟩
          (Regex.mem_ends_literal.2 ⟨hrest.symm, rfl⟩)
      · intro hnone e he
        exact hnone ⟨e.after, (Regex.mem_ends_literal.1 he).1.symm⟩
    rw [Regex.ends_ahead, ← hnone, beq_true]
    split
    · next h => rw [List.mem_singleton, and_iff_left h]
    · next h => exact iff_of_false List.not_mem_nil fun hd => h hd.2
  rw [← exists_ends_wordEdge hbefore (by decide)]
  constructor
  · rintro ⟨e, he⟩
    obtain ⟨d, hd, hedge⟩ := Regex.mem_ends_seq.1 he
    obtain ⟨rfl, hnot⟩ := (hahead d).1 hd
    exact ⟨hnot, e, hedge⟩
  · rintro ⟨hnot, e, he⟩
    exact ⟨e, Regex.mem_ends_seq.2 ⟨m, (hahead m).2 ⟨rfl, hnot⟩, he⟩⟩

/-- The marker for the line below: the longer word, and no letter behind
it. -/
theorem search_nextLineMarker : nextLineMarker.search s = true ↔ ∃ rest,
    Opens s.toList "rld-ignore-next-line" rest ∧
      Cursor.headIsWord rest = false :=
  search_marker fun _ _ hbefore => exists_ends_wordEdge hbefore (by decide)

/-! ### A carriage return at the end -/

/-- A carriage return at the end of a line stands in the rest behind the
word. -/
theorem opens_concat_cr (hword : word.toList.getLast? ≠ some '\r')
    (hne : word.toList ≠ []) :
    Opens (line ++ ['\r']) word rest ↔ ∃ shorter, rest = shorter ++ ['\r'] ∧
      Opens line word shorter := by
  constructor
  · rintro ⟨before, opening, blanks, hline, hopening, hblanks⟩
    have hlast := congrArg List.getLast? hline
    rcases List.eq_nil_or_concat rest with rfl | ⟨shorter, x, hrest⟩
    · refine absurd ?_ hword
      simpa [List.getLast?_append, hne] using hlast.symm
    · rw [List.concat_eq_append] at hrest
      subst hrest
      have hline' : line ++ ['\r'] = before ++
          (opening ++ (blanks ++ (word.toList ++ shorter))) ++ [x] := by
        simpa using hline
      obtain ⟨hfront, hx⟩ := List.append_inj' hline' rfl
      obtain rfl : '\r' = x := List.singleton_inj.1 hx
      exact ⟨shorter, rfl, before, opening, blanks, hfront, hopening, hblanks⟩
  · rintro ⟨shorter, rfl, before, opening, blanks, rfl, hopening, hblanks⟩
    exact ⟨before, opening, blanks, by simp, hopening, hblanks⟩

theorem headIsWord_concat_cr :
    Cursor.headIsWord (rest ++ ['\r']) = Cursor.headIsWord rest := by
  cases rest with
  | nil => decide
  | cons x rest => rfl

/-- A condition on the rest that a carriage return does not change leaves the
line as it is. -/
theorem exists_opens_concat_cr {fits : List Char → Prop}
    (hword : word.toList.getLast? ≠ some '\r') (hne : word.toList ≠ [])
    (hfits : ∀ rest, fits (rest ++ ['\r']) ↔ fits rest) :
    (∃ rest, Opens (line ++ ['\r']) word rest ∧ fits rest) ↔
      ∃ rest, Opens line word rest ∧ fits rest := by
  constructor
  · rintro ⟨rest, hopens, hrest⟩
    obtain ⟨shorter, rfl, hshorter⟩ := (opens_concat_cr hword hne).1 hopens
    exact ⟨shorter, hshorter, (hfits shorter).1 hrest⟩
  · rintro ⟨rest, hopens, hrest⟩
    exact ⟨rest ++ ['\r'], (opens_concat_cr hword hne).2 ⟨rest, rfl, hopens⟩,
      (hfits rest).2 hrest⟩

/-- A carriage return at the end of a line makes no difference to the
markers. -/
theorem search_concat_cr (line : List Char) :
    sameLineMarker.search (.ofList (line ++ ['\r'])) =
      sameLineMarker.search (.ofList line) ∧
      nextLineMarker.search (.ofList (line ++ ['\r'])) =
      nextLineMarker.search (.ofList line) := by
  have hline : (String.ofList line).toList = line := String.toList_ofList
  have hline_cr : (String.ofList (line ++ ['\r'])).toList = line ++ ['\r'] :=
    String.toList_ofList
  have hnextLine : ∀ rest : List Char,
      "-next-line".toList <+: rest ++ ['\r'] ↔
        "-next-line".toList <+: rest := by
    intro rest
    rw [List.prefix_concat_iff]
    refine or_iff_right fun h => ?_
    have hlast := congrArg List.getLast? h
    rw [List.getLast?_concat] at hlast
    exact absurd hlast (by decide)
  constructor
  · rw [Bool.eq_iff_iff, search_sameLineMarker, search_sameLineMarker,
      hline, hline_cr]
    refine exists_opens_concat_cr (by decide) (by decide) fun rest => ?_
    rw [hnextLine, headIsWord_concat_cr]
  · rw [Bool.eq_iff_iff, search_nextLineMarker, search_nextLineMarker,
      hline, hline_cr]
    refine exists_opens_concat_cr (by decide) (by decide) fun rest => ?_
    rw [headIsWord_concat_cr]

end Suppression

end RenderLoop
