import RenderLoop.Proofs.StrictJson
import Mathlib.Data.List.Flatten

/-!
# Texts and their comments

A text with comments is made up of characters by themselves, string literals
and comments: its stretches. The first characters of a stretch tell what it
is, and those behind them where it ends. A literal or a block that is never
closed takes up all the rest. So every text divides into stretches, and in one
way only:

> `exists_consecutive`, `Consecutive.unique`: a text is the text of one list
> of consecutive stretches.

Taking out comments drops those stretches that are comments. What stood before
one then comes to stand before something else, and could open a comment there
or end later. It does not, since a comment begins with a slash: behind another
slash that would have been the second of a mark already.

> `Consecutive.code`: without the comments the stretches are consecutive, too.

> `stripComments_keeps_code`: so the stretches that are left are those of what
> is left.

A text is free of comments if no mark opens one outside of its literals
(`CommentFree`). That is said of the text alone, without stretches, and agrees
with them by `Consecutive.commentFree_iff`: so stripping a text gives one
without comments, and changes no text that has none.
-/

namespace RenderLoop

namespace Jsonc

/-- A stretch of a text: a character by itself, a string literal with its
quotes, or a comment with its marks. -/
inductive Stretch where
  | plain (c : Char)
  | literal (text : List Char)
  | comment (text : List Char)

namespace Stretch

def text : Stretch → List Char
  | plain c => [c]
  | literal cs | comment cs => cs

def isComment : Stretch → Bool
  | comment _ => true
  | plain _ | literal _ => false

/-- The stretch with a given text. -/
def ofText : List Char → Stretch
  | '"' :: cs => literal ('"' :: cs)
  | [c] => plain c
  | cs => comment cs

end Stretch

/-- The text that stretches make up, one behind the other. -/
def textOf (ss : List Stretch) : List Char := ss.flatMap Stretch.text

/-- The stretches that are no comments. -/
def code (ss : List Stretch) : List Stretch := ss.filter (!·.isComment)

/-- A stretch ends where `rest` begins. A literal that is not closed ends with
the text, and so may a backslash in it that has nothing to escape. A comment
ends before a line break, or with the first mark that closes it. -/
inductive Stretch.EndsBefore (rest : List Char) : Stretch → Prop
  | plain {c : Char} (hquote : c ≠ '"') (hopen : ¬ OpensComment c rest) :
      EndsBefore rest (.plain c)
  | literal {inside : List Char} (hin : Enclosed inside) :
      EndsBefore rest (.literal ('"' :: (inside ++ ['"'])))
  | openLiteral {inside : List Char} (hin : Enclosed inside)
      (hend : rest = []) :
      EndsBefore rest (.literal ('"' :: inside))
  | brokenLiteral {inside : List Char} (hin : Enclosed inside)
      (hend : rest = []) :
      EndsBefore rest (.literal ('"' :: (inside ++ ['\\'])))
  | line {inside : List Char} (hin : '\n' ∉ inside)
      (hend : rest = [] ∨ rest.head? = some '\n') :
      EndsBefore rest (.comment ('/' :: '/' :: inside))
  | block {inside : List Char} (hin : ¬ ['*', '/'] <:+: inside ++ ['*']) :
      EndsBefore rest (.comment ('/' :: '*' :: (inside ++ ['*', '/'])))
  | openBlock {inside : List Char} (hin : ¬ ['*', '/'] <:+: inside)
      (hend : rest = []) :
      EndsBefore rest (.comment ('/' :: '*' :: inside))

/-- Each of some stretches ends where the next one begins. -/
def Consecutive : List Stretch → Prop
  | [] => True
  | s :: ss => s.EndsBefore (textOf ss) ∧ Consecutive ss

/-! ### Where a stretch ends -/

/-- What is behind the string that a text starts in. -/
def afterString : List Char → List Char
  | [] => []
  | '\\' :: _ :: rest => afterString rest
  | c :: rest => if c = '"' then rest else afterString rest

/-- A literal is read to its closing quote, whatever stands inside it. -/
theorem Enclosed.afterString_append {inside : List Char} (h : Enclosed inside)
    (rest : List Char) :
    afterString (inside ++ rest) = afterString rest := by
  induction h with
  | nil => rfl
  | escape c _ ih =>
    rw [List.cons_append, List.cons_append, afterString.eq_def]
    exact ih
  | char hquote hback _ ih =>
    rw [List.cons_append, afterString.eq_def]
    split <;> simp_all

/-- A line comment is read to the end of its line. -/
theorem afterLine_append {inside rest : List Char} (hin : '\n' ∉ inside)
    (hend : rest = [] ∨ rest.head? = some '\n') :
    afterLine (inside ++ rest) = rest := by
  induction inside with
  | nil =>
    cases rest with
    | nil => rfl
    | cons c rest => simp_all [afterLine]
  | cons c inside ih =>
    rw [List.mem_cons, not_or] at hin
    rw [List.cons_append, afterLine,
      if_neg (by simpa using Ne.symm hin.1), ih hin.2]

theorem afterBlock_cons {c : Char} {cs : List Char}
    (h : ¬ ['*', '/'] <+: c :: cs) :
    afterBlock (c :: cs) = afterBlock cs := by
  rw [afterBlock.eq_def]
  split <;> simp_all

/-- Whether a comment closes here is told by what stands before the slash of
its closing mark. -/
theorem closes_append_star (c : Char) (inside rest : List Char) :
    ['*', '/'] <+: c :: (inside ++ '*' :: rest) ↔
      ['*', '/'] <+: c :: (inside ++ ['*']) := by
  cases inside <;> simp

/-- A block comment is read to its first closing mark. -/
theorem afterBlock_append {inside : List Char}
    (hin : ¬ ['*', '/'] <:+: inside ++ ['*']) (rest : List Char) :
    afterBlock (inside ++ '*' :: '/' :: rest) = rest := by
  induction inside with
  | nil => rfl
  | cons c inside ih =>
    rw [List.cons_append, List.infix_cons_iff, not_or] at hin
    rw [List.cons_append, afterBlock_cons (mt (closes_append_star ..).1 hin.1),
      ih hin.2]

/-- A block comment with no closing mark runs to the end of the text. -/
theorem afterBlock_of_not_infix {cs : List Char} (h : ¬ ['*', '/'] <:+: cs) :
    afterBlock cs = [] := by
  induction cs with
  | nil => rfl
  | cons c cs ih =>
    rw [List.infix_cons_iff, not_or] at h
    rw [afterBlock_cons h.1, ih h.2]

/-- What is behind the first stretch of a text. -/
def afterFirst : List Char → List Char
  | [] => []
  | '"' :: cs => afterString cs
  | '/' :: '/' :: cs => afterLine cs
  | '/' :: '*' :: cs => afterBlock cs
  | _ :: cs => cs

namespace Stretch.EndsBefore

variable {s s' : Stretch} {rest rest' : List Char}

/-- One step of the reader takes one stretch, when what follows does not join
it. -/
theorem afterFirst_eq (h : s.EndsBefore rest) :
    afterFirst (s.text ++ rest) = rest := by
  cases h with
  | @plain c hquote hopen =>
    show afterFirst (c :: rest) = rest
    rw [afterFirst.eq_def]
    split <;> simp_all [OpensComment]
  | literal hin =>
    show afterString (_ ++ ['"'] ++ rest) = rest
    rw [List.append_assoc, hin.afterString_append]
    rfl
  | openLiteral hin hend =>
    show afterString (_ ++ rest) = rest
    rw [hin.afterString_append, hend]
    rfl
  | brokenLiteral hin hend =>
    show afterString (_ ++ ['\\'] ++ rest) = rest
    rw [List.append_assoc, hin.afterString_append, hend]
    rfl
  | line hin hend => exact afterLine_append hin hend
  | block hin =>
    show afterBlock (_ ++ ['*', '/'] ++ rest) = rest
    rw [List.append_assoc]
    exact afterBlock_append hin rest
  | openBlock hin hend =>
    show afterBlock (_ ++ rest) = rest
    rw [hend, List.append_nil, afterBlock_of_not_infix hin]

/-- A stretch is known again from its text. -/
theorem ofText_text (h : s.EndsBefore rest) : ofText s.text = s := by
  cases h with
  | @plain c hquote _ =>
    show ofText [c] = .plain c
    rw [ofText.eq_def]
    split <;> simp_all
  | _ => rfl

theorem text_ne_nil (h : s.EndsBefore rest) :
    s.text ≠ [] := by cases h <;> exact List.cons_ne_nil _ _

/-- A text starts with one stretch only. -/
theorem unique (h : s.EndsBefore rest) (h' : s'.EndsBefore rest')
    (htext : s.text ++ rest = s'.text ++ rest') :
    s = s' ∧ rest = rest' := by
  have hrest : rest = rest' := by
    rw [← h.afterFirst_eq, htext, h'.afterFirst_eq]
  subst hrest
  exact ⟨by rw [← h.ofText_text, List.append_cancel_right htext,
    h'.ofText_text], rfl⟩

end Stretch.EndsBefore

/-! ### Every text in stretches -/

/-- A string encloses what is before the first quote that nothing escapes.
Without one it is all that follows, but for a backslash at the end. -/
theorem exists_literal (cs : List Char) : ∃ inside, Enclosed inside ∧
    (cs = inside ++ '"' :: afterString cs ∨
      afterString cs = [] ∧ (cs = inside ∨ cs = inside ++ ['\\'])) := by
  fun_induction afterString cs with
  | case1 => exact ⟨[], .nil, .inr ⟨rfl, .inl rfl⟩⟩
  | case2 c rest ih =>
    obtain ⟨inside, hin, hcs⟩ := ih
    exact ⟨_, .escape c hin, by simpa using hcs⟩
  | case3 rest => exact ⟨[], .nil, .inl rfl⟩
  | case4 c rest hback hquote ih =>
    obtain ⟨inside, hin, hcs⟩ := ih
    by_cases hc : c = '\\'
    · -- a backslash with nothing behind it
      subst hc
      cases rest with
      | nil => exact ⟨[], .nil, .inr ⟨rfl, .inr rfl⟩⟩
      | cons d rest => exact absurd rfl (hback d rest rfl)
    · exact ⟨_, .char hquote hc hin, by simpa using hcs⟩

/-- Every text after `//` splits into the comment and what follows its
line. -/
theorem exists_line (cs : List Char) : ∃ inside, '\n' ∉ inside ∧
    (afterLine cs = [] ∨ (afterLine cs).head? = some '\n') ∧
      cs = inside ++ afterLine cs := by
  fun_induction afterLine cs with
  | case1 => exact ⟨[], by simp, .inl rfl, rfl⟩
  | case2 c rest hc => exact ⟨[], by simp, .inr (by simpa using hc), rfl⟩
  | case3 c rest hc ih =>
    obtain ⟨inside, hin, hend, hcs⟩ := ih
    refine ⟨c :: inside, ?_, hend, by rw [List.cons_append, ← hcs]⟩
    rw [List.mem_cons, not_or]
    exact ⟨fun heq => hc (beq_iff_eq.2 heq.symm), hin⟩

/-- Every text after `/*` either splits at the closing mark or is comment to
its end. -/
theorem exists_block (cs : List Char) :
    (∃ inside, ¬ ['*', '/'] <:+: inside ++ ['*'] ∧ cs = inside ++ '*' :: '/' ::
      afterBlock cs) ∨ ¬ ['*', '/'] <:+: cs ∧ afterBlock cs = [] := by
  fun_induction afterBlock cs with
  | case1 => exact .inr ⟨by simp, rfl⟩
  | case2 rest => exact .inl ⟨[], fun h => absurd h.length_le (by decide), rfl⟩
  | case3 c rest hmark ih =>
    have hhere : ¬ ['*', '/'] <+: c :: rest := by
      rintro ⟨more, hmore⟩
      obtain ⟨rfl, rfl⟩ := List.cons.inj hmore
      exact hmark more rfl rfl
    rcases ih with ⟨inside, hin, hcs⟩ | ⟨hnone, hend⟩
    · refine .inl ⟨c :: inside, ?_, by rw [List.cons_append, ← hcs]⟩
      rw [List.cons_append, List.infix_cons_iff, not_or]
      rw [hcs] at hhere
      exact ⟨mt (closes_append_star ..).2 hhere, hin⟩
    · refine .inr ⟨?_, hend⟩
      rw [List.infix_cons_iff, not_or]
      exact ⟨hhere, hnone⟩

/-- A text that is not empty starts with a stretch. -/
theorem exists_first {cs : List Char} (h : cs ≠ []) :
    ∃ s : Stretch, s.EndsBefore (afterFirst cs) ∧
      s.text ++ afterFirst cs = cs := by
  fun_cases afterFirst cs with
  | case1 => exact absurd rfl h
  | case2 cs =>
    obtain ⟨inside, hin, hcs | ⟨hend, rfl | hcs⟩⟩ := exists_literal cs
    · exact ⟨_, .literal hin, by simp [Stretch.text, ← hcs]⟩
    · exact ⟨_, .openLiteral hin hend, by simp [Stretch.text, hend]⟩
    · exact ⟨_, .brokenLiteral hin hend, by simp [Stretch.text, hend, ← hcs]⟩
  | case3 cs =>
    obtain ⟨inside, hin, hend, hcs⟩ := exists_line cs
    exact ⟨_, .line hin hend, by simp [Stretch.text, ← hcs]⟩
  | case4 cs =>
    obtain ⟨inside, hin, hcs⟩ | ⟨hin, hend⟩ := exists_block cs
    · exact ⟨_, .block hin, by simp [Stretch.text, ← hcs]⟩
    · exact ⟨_, .openBlock hin hend, by simp [Stretch.text, hend]⟩
  | case5 c cs hquote hline hblock =>
    refine ⟨.plain c, .plain hquote ?_, rfl⟩
    rintro ⟨rfl, hmark⟩
    cases cs with
    | nil => simp at hmark
    | cons d cs =>
      rcases hmark with hmark | hmark
      · exact hline cs rfl (by simpa using hmark)
      · exact hblock cs rfl (by simpa using hmark)

theorem textOf_cons (s : Stretch) (ss : List Stretch) :
    textOf (s :: ss) = s.text ++ textOf ss :=
  List.flatMap_cons

/-- Every text is made up of consecutive stretches. -/
theorem exists_consecutive (cs : List Char) :
    ∃ ss, Consecutive ss ∧ textOf ss = cs := by
  induction hlength : cs.length using Nat.strongRecOn generalizing cs with
  | ind n ih =>
    by_cases hcs : cs = []
    · exact ⟨[], trivial, hcs.symm⟩
    · obtain ⟨s, hs, hcs⟩ := exists_first hcs
      have hshorter : (afterFirst cs).length < n := by
        have hpos := List.length_pos_iff.2 hs.text_ne_nil
        have hsum := congrArg List.length hcs
        rw [List.length_append] at hsum
        omega
      obtain ⟨ss, hss, hrest⟩ := ih _ hshorter _ rfl
      exact ⟨s :: ss, ⟨hrest ▸ hs, hss⟩, by rw [textOf_cons, hrest, hcs]⟩

/-- A text is made up of consecutive stretches in one way only. -/
theorem Consecutive.unique {ss ss' : List Stretch} (h : Consecutive ss)
    (h' : Consecutive ss') (htext : textOf ss = textOf ss') : ss = ss' := by
  induction ss generalizing ss' with
  | nil =>
    cases ss' with
    | nil => rfl
    | cons s' ss' =>
      exact absurd (List.append_eq_nil_iff.1 htext.symm).1 h'.1.text_ne_nil
  | cons s ss ih =>
    cases ss' with
    | nil => exact absurd (List.append_eq_nil_iff.1 htext).1 h.1.text_ne_nil
    | cons s' ss' =>
      rw [textOf_cons, textOf_cons] at htext
      obtain ⟨rfl, hrest⟩ := h.1.unique h'.1 htext
      rw [ih h.2 h'.2 hrest]

/-! ### What is left -/

theorem stripFrom_line (cs : List Char) :
    stripFrom false ('/' :: '/' :: cs) = stripFrom false (afterLine cs) := by
  rw [stripFrom.eq_def]
  rfl

theorem stripFrom_block (cs : List Char) :
    stripFrom false ('/' :: '*' :: cs) = stripFrom false (afterBlock cs) := by
  rw [stripFrom.eq_def]
  rfl

/-- Taking out comments drops a stretch that is one and keeps any other. -/
theorem Stretch.EndsBefore.stripFrom_append {s : Stretch} {rest : List Char}
    (h : s.EndsBefore rest) :
    stripFrom false (s.text ++ rest) = (if s.isComment then [] else s.text) ++
      stripFrom false rest := by
  have hafter := h.afterFirst_eq
  cases h with
  | plain hquote hopen => exact stripFrom_outside hquote hopen
  | @literal inside hin =>
    show stripFrom false ('"' :: (inside ++ ['"'] ++ rest)) = '"' ::
      (inside ++ ['"'] ++ stripFrom false rest)
    rw [stripFrom_quote, List.append_assoc, List.append_assoc]
    exact congrArg _ (hin.stripFrom_append_quote rest)
  | @openLiteral inside hin hend =>
    show stripFrom false ('"' :: (inside ++ rest)) = '"' ::
      (inside ++ stripFrom false rest)
    rw [stripFrom_quote, hin.stripFrom_append, hend, stripFrom_nil,
      stripFrom_nil]
  | @brokenLiteral inside hin hend =>
    show stripFrom false ('"' :: (inside ++ ['\\'] ++ rest)) = '"' ::
      (inside ++ ['\\'] ++ stripFrom false rest)
    rw [stripFrom_quote, List.append_assoc, hin.stripFrom_append, hend,
      stripFrom_nil, stripFrom.eq_def]
    simp [stripFrom_nil]
  | line hin hend =>
    exact (stripFrom_line _).trans (congrArg (stripFrom false) hafter)
  | block hin =>
    exact (stripFrom_block _).trans (congrArg (stripFrom false) hafter)
  | openBlock hin hend =>
    exact (stripFrom_block _).trans (congrArg (stripFrom false) hafter)

theorem code_cons (s : Stretch) (ss : List Stretch) :
    code (s :: ss) = if s.isComment then code ss else s :: code ss := by
  unfold code
  rw [List.filter_cons]
  cases s.isComment <;> rfl

/-- Stripping a text whose stretches are known keeps those that are no
comments. -/
theorem Consecutive.stripComments {ss : List Stretch} (h : Consecutive ss) :
    stripComments (textOf ss) = textOf (code ss) := by
  unfold Jsonc.stripComments
  induction ss with
  | nil => exact stripFrom_nil false
  | cons s ss ih =>
    rw [textOf_cons, h.1.stripFrom_append, ih h.2, code_cons]
    cases s.isComment <;> rfl

/-- A comment starts with a slash, so it joins no stretch of code before
it. -/
theorem head?_of_isComment {s : Stretch} {rest : List Char}
    (h : s.EndsBefore rest) (hs : s.isComment = true) :
    (s.text ++ rest).head? = some '/' := by
  cases h with
  | plain | literal | openLiteral | brokenLiteral => cases hs
  | line | block | openBlock => rfl

/-- A text that does not start with a slash, so with no comment, starts the
same without comments. -/
theorem Consecutive.head?_code {ss : List Stretch} (h : Consecutive ss)
    (hslash : (textOf ss).head? ≠ some '/') :
    (textOf (code ss)).head? = (textOf ss).head? := by
  cases ss with
  | nil => rfl
  | cons s ss =>
    rw [textOf_cons] at hslash ⊢
    have hs : ¬ s.isComment = true :=
      fun hs => hslash (head?_of_isComment h.1 hs)
    obtain ⟨c, cs, htext⟩ := List.exists_cons_of_ne_nil h.1.text_ne_nil
    rw [code_cons, if_neg hs, textOf_cons, htext]
    rfl

/-- A stretch that is no comment still ends where it did when the comments
behind it are gone. -/
theorem Stretch.EndsBefore.code {s : Stretch} {ss : List Stretch}
    (h : s.EndsBefore (textOf ss)) (hss : Consecutive ss)
    (hs : ¬ s.isComment = true) : s.EndsBefore (textOf (code ss)) := by
  have hnil (hend : textOf ss = []) : textOf (Jsonc.code ss) = [] := by
    rw [← hss.stripComments, hend]
    exact stripFrom_nil false
  cases h with
  | plain hquote hopen =>
    refine .plain hquote fun hopened => hopen ?_
    obtain ⟨rfl, hmark⟩ := hopened
    -- a comment behind a slash would start with a second slash, and the two
    -- would open a comment
    have hslash : (textOf ss).head? ≠ some '/' :=
      fun hslash => hopen ⟨rfl, .inl hslash⟩
    rw [hss.head?_code hslash] at hmark
    exact ⟨rfl, hmark⟩
  | literal hin => exact .literal hin
  | openLiteral hin hend => exact .openLiteral hin (hnil hend)
  | brokenLiteral hin hend => exact .brokenLiteral hin (hnil hend)
  | line | block | openBlock => exact absurd rfl hs

/-- The kept stretches still follow one another: taking a comment away joins
nothing. -/
theorem Consecutive.code {ss : List Stretch} (h : Consecutive ss) :
    Consecutive (code ss) := by
  induction ss with
  | nil => trivial
  | cons s ss ih =>
    rw [code_cons]
    split
    · exact ih h.2
    · next hs => exact ⟨h.1.code h.2 hs, ih h.2⟩

/-! ### Texts without comments -/

/-- A text that ends outside of string literals. -/
inductive EndsOutside : List Char → Prop
  | nil : EndsOutside []
  | char {c : Char} {cs : List Char} (hquote : c ≠ '"') (h : EndsOutside cs) :
      EndsOutside (c :: cs)
  | literal {inside cs : List Char} (hin : Enclosed inside)
      (h : EndsOutside cs) :
      EndsOutside ('"' :: (inside ++ '"' :: cs))

/-- No mark that opens a comment stands outside of the string literals of a
text. -/
def CommentFree (text : List Char) : Prop :=
  ∀ before c after, text = before ++ c :: after → EndsOutside before →
    ¬ OpensComment c after

namespace EndsOutside

variable {c : Char} {cs before rest : List Char}

/-- A place outside literals stays outside when a character before it is taken
away, unless that character opens a literal. -/
theorem behind_plain (h : EndsOutside before) (hquote : c ≠ '"')
    (heq : c :: cs = before ++ rest) :
    before = [] ∨ ∃ front, EndsOutside front ∧ cs = front ++ rest := by
  cases h with
  | nil => exact .inl rfl
  | char _ h => exact .inr ⟨_, h, (List.cons.inj heq).2⟩
  | literal _ _ => exact absurd (List.cons.inj heq).1 hquote

/-- And it stays outside when a whole literal before it is taken away. -/
theorem behind_literal (h : EndsOutside before)
    (heq : '"' :: cs = before ++ rest) :
    before = [] ∨ ∃ front, EndsOutside front ∧
      afterString cs = front ++ rest := by
  cases h with
  | nil => exact .inl rfl
  | char hquote _ => exact absurd (List.cons.inj heq).1.symm hquote
  | literal hin h =>
    refine .inr ⟨_, h, ?_⟩
    rw [List.cons_append, List.append_assoc] at heq
    rw [(List.cons.inj heq).2, hin.afterString_append]
    rfl

end EndsOutside

theorem commentFree_nil : CommentFree [] := fun _ _ _ heq => by simp at heq

/-- A text is free of comments if its first stretch is none and the rest is
free of them. -/
theorem Stretch.EndsBefore.commentFree_iff {s : Stretch} {rest : List Char}
    (h : s.EndsBefore rest) :
    CommentFree (s.text ++ rest) ↔ ¬ s.isComment = true ∧ CommentFree rest := by
  have hliteral {text : List Char} (hafter : afterString (text ++ rest) = rest)
    (hrest : CommentFree rest) :
      CommentFree ('"' :: text ++ rest) := by
    intro before c after heq hbefore
    rcases hbefore.behind_literal heq with rfl | ⟨front, hfront, hcs⟩
    · rintro ⟨rfl, -⟩
      cases heq
    · exact hrest front c after (hafter.symm.trans hcs) hfront
  have hafter := h.afterFirst_eq
  cases h with
  | @plain c hquote hopen =>
    refine ⟨fun hfree =>
      ⟨Bool.false_ne_true, fun before d after heq hbefore => ?_⟩,
      fun hrest before d after heq hbefore => ?_⟩
    · exact hfree (c :: before) d after (congrArg (c :: ·) heq)
        (.char hquote hbefore)
    · rcases hbefore.behind_plain hquote heq with rfl | ⟨front, hfront, hcs⟩
      · cases heq
        exact hopen
      · exact hrest.2 front d after hcs hfront
  | @literal inside hin =>
    refine ⟨fun hfree =>
      ⟨Bool.false_ne_true, fun before d after heq hbefore => ?_⟩,
      fun hrest => hliteral hafter hrest.2⟩
    exact hfree ('"' :: (inside ++ '"' :: before)) d after
      (by simp [Stretch.text, heq]) (.literal hin hbefore)
  | openLiteral hin hend | brokenLiteral hin hend =>
    subst hend
    exact ⟨fun _ => ⟨Bool.false_ne_true, commentFree_nil⟩,
      fun hrest => hliteral hafter hrest.2⟩
  | line | block | openBlock =>
    refine iff_of_false (fun hfree => ?_) fun hrest => hrest.1 rfl
    exact hfree [] '/' _ rfl .nil ⟨rfl, by simp⟩

/-- A text is free of comments when none of its stretches is one. -/
theorem Consecutive.commentFree_iff {ss : List Stretch} (h : Consecutive ss) :
    CommentFree (textOf ss) ↔ ∀ s ∈ ss, ¬ s.isComment = true := by
  induction ss with
  | nil => exact iff_of_true commentFree_nil (by simp)
  | cons s ss ih =>
    rw [textOf_cons, h.1.commentFree_iff, ih h.2, List.forall_mem_cons]

/-- A text divides into stretches in one way. Taking out comments leaves all
of them that are no comments, literals included, as they are and in order, and
these are the stretches of what is left, so that taking out comments again
changes nothing. What is left is the text with characters missing, and all of
the text iff no mark that opens a comment stands outside of its literals. -/
theorem stripComments_keeps_code (text : List Char) :
    ∃ ss, Consecutive ss ∧ textOf ss = text ∧
    (∀ ss', Consecutive ss' → textOf ss' = text → ss' = ss) ∧
    stripComments text = textOf (code ss) ∧ Consecutive (code ss) ∧
    stripComments (stripComments text) = stripComments text ∧
    List.Sublist (stripComments text) text ∧
    (stripComments text = text ↔ CommentFree text) := by
  obtain ⟨ss, hss, rfl⟩ := exists_consecutive text
  have hleft := hss.stripComments
  refine ⟨ss, hss, rfl, fun ss' hss' htext => hss'.unique hss htext, hleft,
    hss.code, ?_, ?_, ?_⟩
  · have hagain : code (code ss) = code ss := by simp [code]
    rw [hleft, hss.code.stripComments, hagain]
  · rw [hleft]
    exact List.filter_sublist.flatMap _
  · -- equal texts divide into equal stretches
    have hsame : textOf (code ss) = textOf ss ↔ code ss = ss :=
      ⟨hss.code.unique hss, congrArg textOf⟩
    rw [hleft, hss.commentFree_iff, hsame, code, List.filter_eq_self]
    simp

/-- A quote in a comment opens no literal, and a mark in a literal no
comment. -/
example : stripComments "[\"//\", /*\"*/ 1] // \"".toList =
  "[\"//\",  1] ".toList := by decide +kernel

end Jsonc

end RenderLoop
