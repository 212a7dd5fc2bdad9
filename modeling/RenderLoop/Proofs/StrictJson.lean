import RenderLoop.Data.Jsonc
import RenderLoop.Proofs.Outcome
import Mathlib.Data.List.TakeWhile

/-!
# Strict documents among the tolerant ones

A text that reads as JSON has no comments and no comma before a closing
bracket, except inside its strings. `StrictUpTo rest text` says so of the part
of a text before `rest`, and every reader of `Json` leads from its text to a
rest of that kind: the steps are single characters, commas that something
follows, and whole string literals.

Taking out comments heeds strings, so it leaves a strict text alone. Dropping
commas does not heed them: it rewrites each literal by itself, and nothing
between them.

> `Jsonc.parse?_of_strict`: a strict document is read the same with the two
> liberties, if no literal has a comma before a closing bracket.

A literal that has one is read with the comma missing.

The readers are mutually recursive and bounded by steps and by depth, so the
induction is over the steps. Each reader takes off a strict part and leaves a
rest, and says also that it does not begin with a closing bracket: that is
what makes the comma before it one to keep.
-/

namespace RenderLoop

namespace Jsonc

/-- What stands between the quotes of a string literal: no quote, unless
behind a backslash, and no backslash without a character behind it. -/
inductive Enclosed : List Char → Prop
  | nil : Enclosed []
  | escape (c : Char) {cs : List Char} (h : Enclosed cs) :
      Enclosed ('\\' :: c :: cs)
  | char {c : Char} {cs : List Char} (hquote : c ≠ '"') (hback : c ≠ '\\')
      (h : Enclosed cs) :
      Enclosed (c :: cs)

/-- A character that neither starts a string nor belongs to a comment or a
list of items. -/
def IsMark (c : Char) : Prop := c ≠ '"' ∧ c ≠ '/' ∧ c ≠ ','

instance (c : Char) : Decidable (IsMark c) :=
  inferInstanceAs (Decidable (_ ∧ _))

/-- The part of a text before `rest` is strict: outside of strings there is no
slash, and no comma before a closing bracket. -/
inductive StrictUpTo (rest : List Char) : List Char → Prop
  | done : StrictUpTo rest rest
  | mark {c : Char} {text : List Char} (hc : IsMark c)
      (h : StrictUpTo rest text) :
      StrictUpTo rest (c :: text)
  | comma {text : List Char} (hopen : closesNext text = false)
      (h : StrictUpTo rest text) :
      StrictUpTo rest (',' :: text)
  | literal {inside text : List Char} (hin : Enclosed inside)
      (h : StrictUpTo rest text) :
      StrictUpTo rest ('"' :: (inside ++ '"' :: text))

namespace StrictUpTo

variable {text mid rest : List Char}

/-- Strict parts that follow one another are strict together. -/
theorem trans (h : StrictUpTo mid text) (hmid : StrictUpTo rest mid) :
    StrictUpTo rest text := by
  induction h with
  | done => exact hmid
  | mark hc _ ih => exact .mark hc ih
  | comma hopen _ ih => exact .comma hopen ih
  | literal hin _ ih => exact .literal hin ih

/-- Plain characters are strict. -/
theorem marks (front : List Char) (h : ∀ c ∈ front, IsMark c)
    (rest : List Char) :
    StrictUpTo rest (front ++ rest) := by
  induction front with
  | nil => exact .done
  | cons c front ih =>
    exact .mark (h c (by simp)) (ih fun d hd => h d (List.mem_cons_of_mem _ hd))

theorem drop_of_isPrefix {front : List Char} (hfront : front <+: text)
    (h : ∀ c ∈ front, IsMark c) : StrictUpTo (text.drop front.length) text := by
  obtain ⟨rest, rfl⟩ := hfront
  rw [List.drop_left]
  exact marks front h rest

end StrictUpTo

theorem isMark_of_isBlank {c : Char} (h : Json.isBlank c = true) :
    IsMark c := by
  simp only [Json.isBlank, Bool.or_eq_true, beq_iff_eq] at h
  obtain ((rfl | rfl) | rfl) | rfl := h <;> decide

theorem isMark_of_isDigit {c : Char} (h : c.isDigit = true) : IsMark c := by
  refine ⟨?_, ?_, ?_⟩ <;> rintro rfl <;> exact absurd h (by decide)

theorem isBlankChar_of_isBlank {c : Char} (h : Json.isBlank c = true) :
    isBlankChar c = true := by
  simp only [Json.isBlank, Bool.or_eq_true, beq_iff_eq] at h
  obtain ((rfl | rfl) | rfl) | rfl := h <;> decide

/-- Blanks are strict. -/
theorem strictUpTo_skipBlanks (cs : List Char) :
    StrictUpTo (Json.skipBlanks cs) cs := by
  have hcs : cs.takeWhile Json.isBlank ++ Json.skipBlanks cs = cs :=
    List.takeWhile_append_dropWhile
  have hmarks : ∀ c ∈ cs.takeWhile Json.isBlank, IsMark c :=
    fun c hc => isMark_of_isBlank (List.mem_takeWhile_imp hc)
  simpa only [hcs] using StrictUpTo.marks _ hmarks (Json.skipBlanks cs)

/-- Blanks do not keep a comma from standing before a bracket. -/
theorem closesNext_skipBlanks (cs : List Char) :
    closesNext (Json.skipBlanks cs) = closesNext cs := by
  induction cs with
  | nil => rfl
  | cons c cs ih =>
    by_cases hc : Json.isBlank c = true
    · have hstep : closesNext (c :: cs) = closesNext cs := by
        simp only [closesNext,
          List.dropWhile_cons_of_pos (isBlankChar_of_isBlank hc)]
      rw [Json.skipBlanks, List.dropWhile_cons_of_pos hc, hstep]
      exact ih
    · rw [Json.skipBlanks, List.dropWhile_cons_of_neg hc]

theorem strictUpTo_of_skipBlanks {c : Char} {cs rest : List Char}
    (h : Json.skipBlanks cs = c :: rest) (hc : IsMark c) : StrictUpTo rest cs :=
  (strictUpTo_skipBlanks cs).trans (h ▸ .mark hc .done)

/-- A comma is strict if something follows it. -/
theorem strictUpTo_of_comma {cs next rest : List Char}
    (h : Json.skipBlanks cs = ',' :: next)
    (hnext : closesNext (Json.skipBlanks next) = false)
    (hrest : StrictUpTo rest (Json.skipBlanks next)) : StrictUpTo rest cs := by
  rw [closesNext_skipBlanks] at hnext
  have hcomma : StrictUpTo rest (',' :: next) :=
    .comma hnext ((strictUpTo_skipBlanks next).trans hrest)
  exact (strictUpTo_skipBlanks cs).trans (h ▸ hcomma)

/-! ## What the readers use up -/

theorem hexDigit?_quote : Json.hexDigit? '"' = none := by decide

theorem hexDigit?_backslash : Json.hexDigit? '\\' = none := by decide

/-- Digits have a value only if each of them has one. -/
theorem hexDigit?_of_foldl {cs : List Char} {start : Option Nat} {u : Nat}
    (h : cs.foldl (fun acc c => do return 16 * (← acc) + (← Json.hexDigit? c))
    start = some u) :
    start.isSome = true ∧ ∀ c ∈ cs, Json.hexDigit? c ≠ none := by
  induction cs generalizing start with
  | nil => exact ⟨by simp_all, by simp⟩
  | cons c cs ih =>
    obtain ⟨hstep, hcs⟩ := ih h
    cases start with
    | none => simp at hstep
    | some n =>
      cases hc : Json.hexDigit? c with
      | none => simp [hc] at hstep
      | some d => exact ⟨rfl, by simpa [hc] using hcs⟩

/-- The digits of an escape neither end a string nor escape anything. -/
theorem Enclosed.digits {cs rest : List Char} {u : Nat}
    (h : Json.hexValue? cs = some u) (hrest : Enclosed rest) :
    Enclosed (cs ++ rest) := by
  have hdigits := (hexDigit?_of_foldl h).2
  clear h
  induction cs with
  | nil => exact hrest
  | cons c cs ih =>
    have hc := hdigits c (by simp)
    refine .char ?_ ?_ (ih fun d hd => hdigits d (List.mem_cons_of_mem _ hd))
    · rintro rfl; exact hc hexDigit?_quote
    · rintro rfl; exact hc hexDigit?_backslash

/-- A string ends at the quote behind what it encloses. -/
theorem enclosed_of_string? {done cs rest : List Char} {s : String}
    (h : Json.string? done cs = some (s, rest)) :
    ∃ inside, Enclosed inside ∧ cs = inside ++ '"' :: rest := by
  fun_induction Json.string? done cs
  case case1 | case6 | case8 | case10 | case11 => simp at h
  case case2 done tail =>
    obtain ⟨-, rfl⟩ : _ ∧ tail = rest := by simpa using h
    exact ⟨[], .nil, rfl⟩
  case case3 a b c d e f g k _ hi lo hlo hhi _ ih =>
    obtain ⟨inside, hin, rfl⟩ := ih h
    exact ⟨_, .escape 'u' (.digits hhi (.escape 'u' (.digits hlo hin))), rfl⟩
  case case4 hi lo _ hhi _ ih | case5 hi _ hhi ih | case7 hi hhi ih =>
    -- An escape behind this one that makes no pair with it is part of what is
    -- read next.
    obtain ⟨inside, hin, htail⟩ := ih h
    exact ⟨_, .escape 'u' (.digits hhi hin), by simp [htail]⟩
  case case9 c _ _ _ _ _ ih =>
    obtain ⟨inside, hin, rfl⟩ := ih h
    exact ⟨_, .escape c hin, rfl⟩
  case case12 c _ hquote _ _ _ hplain ih =>
    obtain ⟨inside, hin, rfl⟩ := ih h
    exact ⟨_, .char hquote (by rintro rfl; simp at hplain) hin, rfl⟩

/-- A string that can be read is one literal, whatever it holds. -/
theorem strictUpTo_of_string? {cs rest : List Char} {s : String}
    (h : Json.string? [] cs = some (s, rest)) :
    StrictUpTo rest ('"' :: cs) := by
  obtain ⟨inside, hin, rfl⟩ := enclosed_of_string? h
  exact .literal hin .done

/-!
A number uses up digits and the signs among them, and starts with a digit.
-/

theorem wholeDigits_isPrefix (cs : List Char) : Json.wholeDigits cs <+: cs := by
  rw [Json.wholeDigits.eq_def]
  split
  · exact ⟨_, rfl⟩
  · exact List.takeWhile_prefix _

theorem isDigit_of_mem_wholeDigits {cs : List Char} {c : Char}
    (h : c ∈ Json.wholeDigits cs) :
    c.isDigit = true := by
  rw [Json.wholeDigits.eq_def] at h
  split at h
  · obtain rfl : c = '0' := by simpa using h
    decide
  · exact List.mem_takeWhile_imp h

theorem strictUpTo_drop_wholeDigits (cs : List Char) :
    StrictUpTo (cs.drop (Json.wholeDigits cs).length) cs :=
  .drop_of_isPrefix (wholeDigits_isPrefix cs)
    fun _ hc => isMark_of_isDigit (isDigit_of_mem_wholeDigits hc)

theorem strictUpTo_drop_digits (cs : List Char) :
    StrictUpTo (cs.drop (cs.takeWhile Char.isDigit).length) cs :=
  .drop_of_isPrefix (List.takeWhile_prefix _)
    fun _ hc => isMark_of_isDigit (List.mem_takeWhile_imp hc)

theorem strictUpTo_drop_fractionPart (cs : List Char) :
    StrictUpTo (cs.drop (Json.fractionPart cs).length) cs := by
  fun_cases Json.fractionPart cs
  case case1 | case3 => exact .done
  case case2 r _ _ => exact .mark (by decide) (strictUpTo_drop_digits r)

theorem strictUpTo_drop_exponentPart (cs : List Char) :
    StrictUpTo (cs.drop (Json.exponentPart cs).length) cs := by
  fun_cases Json.exponentPart cs
  case case1 | case3 | case4 => exact .done
  case case2 c tail hletter sign r hsplit ds _ =>
    have hc : IsMark c := by
      simp only [Bool.or_eq_true, beq_iff_eq] at hletter
      obtain rfl | rfl := hletter <;> decide
    have hsign : tail = sign ++ r ∧ ∀ d ∈ sign, IsMark d := by
      split at hsplit <;> cases hsplit <;> simp [IsMark]
    obtain ⟨rfl, hmarks⟩ := hsign
    have hrest : (c :: (sign ++ r)).drop (c :: sign ++ ds).length =
        r.drop ds.length := by
      simp [List.drop_append]
    rw [hrest]
    exact .mark hc ((StrictUpTo.marks sign hmarks r).trans
      (strictUpTo_drop_digits r))

theorem closesNext_cons {c : Char} (hc : isBlankChar c = false)
    (cs : List Char) :
    closesNext (c :: cs) = (c == '}' || c == ']') := by
  rw [closesNext, List.dropWhile_cons_of_neg (by simp [hc])]

theorem closesNext_of_isDigit {c : Char} (h : c.isDigit = true)
    (cs : List Char) :
    closesNext (c :: cs) = false := by
  have hrange : 48 ≤ c.toNat ∧ c.toNat ≤ 57 := by
    simpa [Char.isDigit, UInt32.le_iff_toNat_le] using h
  have hblank : isBlankChar c = false := by
    simp [isBlankChar, inRanges]
    omega
  rw [closesNext_cons hblank]
  rw [Bool.or_eq_false_iff, beq_eq_false_iff_ne, beq_eq_false_iff_ne]
  constructor <;> rintro rfl <;> exact absurd h (by decide)

/-- A number is strict, and closes nothing. -/
theorem strictUpTo_of_number? {negative : Bool}
    {cs rest : List Char} {v : Value}
    (h : Json.number? negative cs = some (v, rest)) :
    closesNext cs = false ∧ StrictUpTo rest cs := by
  have hwhole := strictUpTo_drop_wholeDigits cs
  have hfraction := hwhole.trans (strictUpTo_drop_fractionPart _)
  have hall := hfraction.trans (strictUpTo_drop_exponentPart _)
  rw [Json.number?] at h
  simp only at h
  split at h
  · simp at h
  · next hdigits =>
    refine ⟨?_, ?_⟩
    · obtain ⟨tail, htail⟩ := wholeDigits_isPrefix cs
      cases hw : Json.wholeDigits cs with
      | nil => simp [hw] at hdigits
      | cons c w =>
        rw [← htail, hw]
        exact closesNext_of_isDigit
          (isDigit_of_mem_wholeDigits (hw ▸ List.mem_cons_self)) _
    · split at h
      · split at h
        · simp at h
        · obtain ⟨-, rfl⟩ := Prod.mk.inj (Option.some.inj h)
          exact hall
      · obtain ⟨_, _, heq⟩ := Option.map_eq_some_iff.1 h
        obtain ⟨-, rfl⟩ := Prod.mk.inj heq
        exact hall

/-!
A value never starts with a closing bracket, which is what keeps the commas
before the next one apart from those the second liberty allows.
-/

theorem orMalformed_eq_ok {x : Option α} {a : α} :
    Json.orMalformed x = .ok a ↔ x = some a := by
  cases x <;> simp [Json.orMalformed]

mutual

/-- Every value that can be read is strict, and closes nothing. -/
theorem strictUpTo_of_value {steps depth : Nat}
    {cs rest : List Char} {v : Value}
    (h : Json.value steps depth cs = .ok (v, rest)) :
    closesNext cs = false ∧ StrictUpTo rest cs := by
  rw [Json.value.eq_def] at h
  cases steps with
  | zero => simp at h
  | succ steps =>
    simp only at h
    split at h
    · next r =>
      obtain ⟨⟨s, r'⟩, hs, heq⟩ :=
        Option.map_eq_some_iff.1 (orMalformed_eq_ok.1 h)
      obtain ⟨-, rfl⟩ := Prod.mk.inj heq
      exact ⟨rfl, strictUpTo_of_string? hs⟩
    · next r =>
      refine ⟨rfl, .mark (by decide) ?_⟩
      split at h
      · simp at h
      · split at h
        · next hclose =>
          obtain ⟨-, rfl⟩ := Prod.mk.inj (Except.ok.inj h)
          exact strictUpTo_of_skipBlanks hclose (by decide)
        · exact (strictUpTo_skipBlanks r).trans (strictUpTo_of_items h).2
    · next r =>
      refine ⟨rfl, .mark (by decide) ?_⟩
      split at h
      · simp at h
      · split at h
        · next hclose =>
          obtain ⟨-, rfl⟩ := Prod.mk.inj (Except.ok.inj h)
          exact strictUpTo_of_skipBlanks hclose (by decide)
        · exact (strictUpTo_skipBlanks r).trans (strictUpTo_of_members h).2
    · obtain ⟨-, rfl⟩ := Prod.mk.inj (Except.ok.inj h)
      exact ⟨rfl, .marks ['t', 'r', 'u', 'e'] (by simp [IsMark]) _⟩
    · obtain ⟨-, rfl⟩ := Prod.mk.inj (Except.ok.inj h)
      exact ⟨rfl, .marks ['f', 'a', 'l', 's', 'e'] (by simp [IsMark]) _⟩
    · obtain ⟨-, rfl⟩ := Prod.mk.inj (Except.ok.inj h)
      exact ⟨rfl, .marks ['n', 'u', 'l', 'l'] (by simp [IsMark]) _⟩
    · obtain ⟨-, rfl⟩ := Prod.mk.inj (Except.ok.inj h)
      exact ⟨rfl, .marks ['N', 'a', 'N'] (by simp [IsMark]) _⟩
    · obtain ⟨-, rfl⟩ := Prod.mk.inj (Except.ok.inj h)
      exact ⟨rfl, .marks ['I', 'n', 'f', 'i', 'n', 'i', 't', 'y']
        (by simp [IsMark]) _⟩
    · obtain ⟨-, rfl⟩ := Prod.mk.inj (Except.ok.inj h)
      exact ⟨rfl, .marks ['-', 'I', 'n', 'f', 'i', 'n', 'i', 't', 'y']
        (by simp [IsMark]) _⟩
    · exact ⟨rfl, .mark (by decide)
        (strictUpTo_of_number? (orMalformed_eq_ok.1 h)).2⟩
    · exact strictUpTo_of_number? (orMalformed_eq_ok.1 h)

/-- So are the items of a list, together with its closing bracket. -/
theorem strictUpTo_of_items {steps depth : Nat} {done : List Value}
    {cs rest : List Char} {v : Value}
    (h : Json.items steps depth done cs = .ok (v, rest)) :
    closesNext cs = false ∧ StrictUpTo rest cs := by
  rw [Json.items.eq_def] at h
  cases steps with
  | zero => simp at h
  | succ steps =>
    obtain ⟨⟨item, r⟩, hitem, htail⟩ := bind_eq_ok.1 h
    obtain ⟨hopen, hstrict⟩ := strictUpTo_of_value hitem
    refine ⟨hopen, hstrict.trans ?_⟩
    simp only at htail
    split at htail
    · next hcomma =>
      -- The next item follows the comma, so no closing bracket does.
      obtain ⟨hnext, hmore⟩ := strictUpTo_of_items htail
      exact strictUpTo_of_comma hcomma hnext hmore
    · next hclose =>
      obtain ⟨-, rfl⟩ := Prod.mk.inj (Except.ok.inj htail)
      exact strictUpTo_of_skipBlanks hclose (by decide)
    · simp at htail

/-- And the members of a table. -/
theorem strictUpTo_of_members {steps depth : Nat} {done : List (String × Value)}
    {cs rest : List Char} {v : Value}
    (h : Json.members steps depth done cs = .ok (v, rest)) :
    closesNext cs = false ∧ StrictUpTo rest cs := by
  rw [Json.members.eq_def] at h
  cases steps with
  | zero => simp at h
  | succ steps =>
    simp only at h
    split at h
    · obtain ⟨⟨name, r⟩, hname, hentry⟩ := bind_eq_ok.1 h
      refine ⟨rfl, (strictUpTo_of_string? (orMalformed_eq_ok.1 hname)).trans ?_⟩
      simp only at hentry
      split at hentry
      · next r' hcolon =>
        obtain ⟨⟨entry, r''⟩, hvalue, htail⟩ := bind_eq_ok.1 hentry
        refine (strictUpTo_of_skipBlanks hcolon (by decide)).trans ?_
        refine (strictUpTo_skipBlanks r').trans
          ((strictUpTo_of_value hvalue).2.trans ?_)
        simp only at htail
        split at htail
        · next hcomma =>
          obtain ⟨hnext, hmore⟩ := strictUpTo_of_members htail
          exact strictUpTo_of_comma hcomma hnext hmore
        · next hclose =>
          obtain ⟨-, rfl⟩ := Prod.mk.inj (Except.ok.inj htail)
          exact strictUpTo_of_skipBlanks hclose (by decide)
        · simp at htail
      · simp at hentry
    · simp at h

end

/-- A text that reads as JSON is strict to its end. -/
theorem strictUpTo_of_read {depth : Nat} {cs : List Char} {v : Value}
    (h : Json.read depth cs = .ok v) : StrictUpTo [] cs := by
  rw [Json.read] at h
  split at h
  · next rest hvalue =>
    split at h
    · next hrest =>
      have hblanks : Json.skipBlanks rest = [] := List.isEmpty_iff.1 hrest
      have hend : StrictUpTo [] rest := hblanks ▸ strictUpTo_skipBlanks rest
      exact (strictUpTo_skipBlanks cs).trans
        ((strictUpTo_of_value hvalue).2.trans hend)
    · simp at h
  · simp at h

/-- A text that reads as a value is strict throughout. -/
theorem strictUpTo_of_parse? {cs : List Char} {v : Value}
    (h : Json.parse? cs = some v) :
    StrictUpTo [] cs :=
  strictUpTo_of_read (toOption_eq_some.1 h)

/-! ## Comments -/

theorem stripFrom_nil (inString : Bool) : stripFrom inString [] = [] := by
  rw [stripFrom.eq_def]

/-- What is escaped in a string is kept. -/
theorem stripFrom_escape (c : Char) (rest : List Char) :
    stripFrom true ('\\' :: c :: rest) = '\\' :: c :: stripFrom true rest := by
  rw [stripFrom.eq_def]
  rfl

/-- So is everything else, and only a quote ends the string. -/
theorem stripFrom_inside {c : Char} (hback : c ≠ '\\') (rest : List Char) :
    stripFrom true (c :: rest) = c :: stripFrom (c != '"') rest := by
  rw [stripFrom.eq_def]
  split <;> simp_all

theorem stripFrom_quote (rest : List Char) :
    stripFrom false ('"' :: rest) = '"' :: stripFrom true rest := by
  rw [stripFrom.eq_def]
  rfl

/-- A character opens a comment, together with the one behind it. -/
def OpensComment (c : Char) (rest : List Char) : Prop :=
  c = '/' ∧ (rest.head? = some '/' ∨ rest.head? = some '*')

/-- Outside of strings everything is kept that opens no comment. -/
theorem stripFrom_outside {c : Char} {rest : List Char} (hquote : c ≠ '"')
    (hopen : ¬ OpensComment c rest) :
    stripFrom false (c :: rest) = c :: stripFrom false rest := by
  rw [stripFrom.eq_def]
  split <;> simp_all [OpensComment]

/-- A string keeps its text, comment marks included. -/
theorem Enclosed.stripFrom_append {inside : List Char} (h : Enclosed inside)
    (rest : List Char) :
    stripFrom true (inside ++ rest) = inside ++ stripFrom true rest := by
  induction h with
  | nil => rfl
  | escape c _ ih => simp only [List.cons_append, stripFrom_escape, ih]
  | @char c _ hquote hback _ ih =>
    have hinside : (c != '"') = true := by simpa using hquote
    simp only [List.cons_append, stripFrom_inside hback, hinside, ih]

/-- So a literal is kept as a whole. -/
theorem Enclosed.stripFrom_append_quote {inside : List Char}
    (h : Enclosed inside) (rest : List Char) :
    stripFrom true (inside ++ '"' :: rest) = inside ++ '"' ::
      stripFrom false rest := by
  rw [h.stripFrom_append, stripFrom_inside (by decide)]
  rfl

/-- A strict text has no comments to take out. -/
theorem StrictUpTo.stripComments {text : List Char} (h : StrictUpTo [] text) :
    stripComments text = text := by
  rw [Jsonc.stripComments]
  induction h with
  | done => exact stripFrom_nil false
  | mark hc _ ih => rw [stripFrom_outside hc.1 fun hopen => hc.2.1 hopen.1, ih]
  | comma _ _ ih =>
    rw [stripFrom_outside (by decide) fun hopen =>
      absurd hopen.1 (by decide), ih]
  | literal hin _ ih => rw [stripFrom_quote, hin.stripFrom_append_quote, ih]

/-! ## Commas -/

/-- No comma stands before a closing bracket, blanks aside. -/
def KeepsCommas (cs : List Char) : Prop :=
  ∀ before after, cs = before ++ ',' :: after → closesNext after = false

theorem keepsCommas_nil : KeepsCommas [] := fun _ _ h => by simp at h

/-- A text keeps its commas iff its first character does, if it is one, and
the rest does. -/
theorem keepsCommas_cons {c : Char} {cs : List Char} :
    KeepsCommas (c :: cs) ↔ (c = ',' → closesNext cs = false) ∧
      KeepsCommas cs := by
  constructor
  · intro h
    refine ⟨?_, fun before after heq =>
      h (c :: before) after (by rw [heq, List.cons_append])⟩
    rintro rfl
    exact h [] cs rfl
  · rintro ⟨hhead, htail⟩ before after heq
    cases before with
    | nil =>
      obtain ⟨rfl, rfl⟩ : c = ',' ∧ cs = after := by simpa using heq
      exact hhead rfl
    | cons _ before => exact htail before after (List.cons.inj heq).2

/-- A comma is dropped or kept by what stands behind it up to the end of the
string. -/
theorem closesNext_append_quote (cs rest : List Char) :
    closesNext (cs ++ '"' :: rest) = closesNext cs := by
  induction cs with
  | nil => rfl
  | cons c cs ih =>
    cases hc : isBlankChar c with
    | true => simpa [closesNext, hc] using ih
    | false => rw [List.cons_append, closesNext_cons hc, closesNext_cons hc]

/-- A quote keeps a comma before it, whatever follows. -/
theorem keepsCommas_append_quote {inside rest : List Char} :
    KeepsCommas (inside ++ '"' :: rest) ↔ KeepsCommas inside ∧
      KeepsCommas rest := by
  induction inside with
  | nil => simp [keepsCommas_cons, keepsCommas_nil]
  | cons c inside ih =>
    rw [List.cons_append, keepsCommas_cons, keepsCommas_cons,
      closesNext_append_quote, ih, and_assoc]

/-- A character is kept, unless it is a comma before a bracket. -/
theorem dropTrailingCommas_cons {c : Char} {cs : List Char}
    (h : c = ',' → closesNext cs = false) :
    dropTrailingCommas (c :: cs) = c :: dropTrailingCommas cs := by
  rw [dropTrailingCommas, if_neg]
  simpa using h

theorem length_dropTrailingCommas_le (cs : List Char) :
    (dropTrailingCommas cs).length ≤ cs.length := by
  fun_induction dropTrailingCommas cs <;> simp_all
  omega

/-- Nothing is dropped iff all commas are to be kept. -/
theorem dropTrailingCommas_eq_self_iff {cs : List Char} :
    dropTrailingCommas cs = cs ↔ KeepsCommas cs := by
  induction cs with
  | nil => simp [dropTrailingCommas, keepsCommas_nil]
  | cons c cs ih =>
    rw [keepsCommas_cons, ← ih]
    by_cases hc : c = ',' → closesNext cs = false
    · rw [dropTrailingCommas_cons hc]
      exact ⟨fun heq => ⟨hc, (List.cons.inj heq).2⟩, fun h => congrArg _ h.2⟩
    · -- A dropped comma leaves the text shorter, so it cannot be the same.
      have hdrop : dropTrailingCommas (c :: cs) = dropTrailingCommas cs := by
        rw [dropTrailingCommas, if_pos]
        simpa using hc
      have hlength := length_dropTrailingCommas_le cs
      refine ⟨fun heq => ?_, fun h => absurd h.1 hc⟩
      rw [hdrop] at heq
      rw [heq, List.length_cons] at hlength
      omega

/-- What is dropped before a quote does not depend on what is behind it. -/
theorem dropTrailingCommas_append_quote (inside rest : List Char) :
    dropTrailingCommas (inside ++ '"' :: rest) =
      dropTrailingCommas inside ++ '"' :: dropTrailingCommas rest := by
  induction inside with
  | nil => exact dropTrailingCommas_cons (by simp)
  | cons c inside ih =>
    simp only [List.cons_append, dropTrailingCommas,
      closesNext_append_quote, ih]
    split <;> rfl

/-! ## Literals and what stands between them -/

/-- A string literal, by what it encloses, or a single character outside of
the strings. -/
inductive Piece where
  | mark (c : Char)
  | literal (inside : List Char)

/-- The pieces of a text without comments. `inside` holds, in reverse, what
the string in progress encloses so far; one that is never closed is no
piece. -/
def piecesFrom : Option (List Char) → List Char → List Piece
  | _, [] => []
  | none, c :: rest =>
    if c = '"' then piecesFrom (some []) rest
    else .mark c :: piecesFrom none rest
  | some inside, '\\' :: c :: rest =>
    piecesFrom (some (c :: '\\' :: inside)) rest
  | some inside, c :: rest =>
    if c = '"' then .literal inside.reverse :: piecesFrom none rest
    else piecesFrom (some (c :: inside)) rest

def pieces (text : List Char) : List Piece := piecesFrom none text

/-- The text of a piece, when what a literal encloses is rewritten by `f`. -/
def Piece.textWith (f : List Char → List Char) : Piece → List Char
  | .mark c => [c]
  | .literal inside => '"' :: (f inside ++ ['"'])

/-- A literal is read to its end as one piece. -/
theorem piecesFrom_enclosed {inside : List Char} (h : Enclosed inside)
    (done rest : List Char) :
    piecesFrom (some done) (inside ++ '"' :: rest) =
      .literal (done.reverse ++ inside) :: piecesFrom none rest := by
  induction h generalizing done with
  | nil => simp [piecesFrom]
  | escape c _ ih => simp [piecesFrom, ih]
  | char hquote hback _ ih =>
    rw [List.cons_append, piecesFrom.eq_def]
    split <;> simp_all

theorem pieces_mark {c : Char} (h : c ≠ '"') (rest : List Char) :
    pieces (c :: rest) = .mark c :: pieces rest := by
  simp [pieces, piecesFrom, h]

/-- A literal is a piece. -/
theorem pieces_literal {inside : List Char} (h : Enclosed inside)
    (rest : List Char) :
    pieces ('"' :: (inside ++ '"' :: rest)) =
      .literal inside :: pieces rest := by
  simp [pieces, piecesFrom, piecesFrom_enclosed h]

/-- The pieces of a strict text give the text again. -/
theorem StrictUpTo.flatMap_pieces {text : List Char} (h : StrictUpTo [] text) :
    (pieces text).flatMap (Piece.textWith id) = text := by
  induction h with
  | done => rfl
  | mark hc _ ih =>
    rw [pieces_mark hc.1, List.flatMap_cons, ih]
    rfl
  | comma _ _ ih =>
    rw [pieces_mark (by decide), List.flatMap_cons, ih]
    rfl
  | literal hin _ ih =>
    rw [pieces_literal hin, List.flatMap_cons, ih]
    simp [Piece.textWith]

/-- Dropping commas rewrites the literals of a strict text, each by itself,
and nothing else. -/
theorem StrictUpTo.dropTrailingCommas {text : List Char}
    (h : StrictUpTo [] text) :
    dropTrailingCommas text =
      (pieces text).flatMap (Piece.textWith Jsonc.dropTrailingCommas) := by
  induction h with
  | done => rfl
  | @mark c text hc _ ih =>
    rw [dropTrailingCommas_cons (fun hcomma => absurd hcomma hc.2.2),
      pieces_mark hc.1, List.flatMap_cons, ← ih]
    rfl
  | @comma text hopen _ ih =>
    rw [dropTrailingCommas_cons (fun _ => hopen), pieces_mark (by decide),
      List.flatMap_cons, ← ih]
    rfl
  | @literal inside text hin _ ih =>
    rw [dropTrailingCommas_cons (by simp), dropTrailingCommas_append_quote,
      pieces_literal hin, List.flatMap_cons, ← ih]
    simp [Piece.textWith]

/-- In a strict text only the literals can hold a comma that is dropped. -/
theorem StrictUpTo.keepsCommas_iff {text : List Char} (h : StrictUpTo [] text) :
    KeepsCommas text ↔ ∀ inside, Piece.literal inside ∈ pieces text →
      KeepsCommas inside := by
  induction h with
  | done => simp [pieces, piecesFrom, keepsCommas_nil]
  | mark hc _ ih =>
    rw [keepsCommas_cons, ih, pieces_mark hc.1]
    simp [hc.2.2]
  | comma hopen _ ih =>
    rw [keepsCommas_cons, ih, pieces_mark (by decide)]
    simp [hopen]
  | literal hin _ ih =>
    rw [keepsCommas_cons, keepsCommas_append_quote, ih, pieces_literal hin]
    simp

theorem exists_table_of_asTable? {v : Option Value}
    (h : (v.bind Value.asTable?).isSome = true) :
    ∃ entries, v = some (.table entries) := by
  obtain ⟨entries, hentries⟩ := Option.isSome_iff_exists.1 h
  obtain ⟨w, rfl, hw⟩ := Option.bind_eq_some_iff.1 hentries
  cases w with
  | table _ => exact ⟨_, rfl⟩
  | _ => simp [Value.asTable?] at hw

/-- A document that reads as JSON without any liberty. It loses no comments,
and it is made up of literals and the characters between them; commas are lost
inside of literals only, where one stands before a closing bracket. If no
literal has such a comma, then the document is read the same with the
liberties, also by a reader that goes only so deep. -/
theorem parse?_of_strict {text : String} {entries : Table Value}
    (h : Json.parse? text.toList = some (.table entries)) :
    stripComments text.toList = text.toList ∧
    (pieces text.toList).flatMap (Piece.textWith id) = text.toList ∧
    dropTrailingCommas text.toList =
      (pieces text.toList).flatMap (Piece.textWith dropTrailingCommas) ∧
    (dropTrailingCommas text.toList = text.toList ↔
      ∀ inside, Piece.literal inside ∈ pieces text.toList →
        KeepsCommas inside) ∧
    ((∀ inside, Piece.literal inside ∈ pieces text.toList →
      KeepsCommas inside) → parse? text = some entries ∧
      ∀ depth, Json.read depth text.toList = .ok (.table entries) →
        read depth text = .ok entries) := by
  have hstrict := strictUpTo_of_parse? h
  -- Outside of the literals no comma of a strict text is before a closing
  -- bracket.
  have hcommas : dropTrailingCommas text.toList = text.toList ↔
      ∀ inside, Piece.literal inside ∈ pieces text.toList →
        KeepsCommas inside :=
    dropTrailingCommas_eq_self_iff.trans hstrict.keepsCommas_iff
  refine ⟨hstrict.stripComments, hstrict.flatMap_pieces,
    hstrict.dropTrailingCommas, hcommas, fun hkeeps => ?_⟩
  have hplain : plain text = text.toList := by
    rw [plain, hstrict.stripComments, hcommas.2 hkeeps]
  refine ⟨?_, fun depth hdepth => ?_⟩
  · rw [parse?, hplain, h]
    rfl
  · rw [read, hplain, hdepth]
    rfl

/-- Comment marks, commas and brackets in strings. -/
def markedText : String :=
  "\x7b\"src/**/*.ts\": [\"http://x\", \"a, b\"], \"]\": \"\\\",\"\x7d"

/-- Marks inside of strings are left alone. -/
theorem parse?_markedText :
    ∃ entries, Json.parse? markedText.toList = some (.table entries) ∧
      parse? markedText = some entries := by
  obtain ⟨entries, h⟩ :
      ∃ entries, Json.parse? markedText.toList = some (.table entries) :=
    exists_table_of_asTable? (by decide +kernel)
  have hkeeps : dropTrailingCommas markedText.toList = markedText.toList := by
    decide +kernel
  obtain ⟨-, -, -, hcommas, hread⟩ := parse?_of_strict h
  exact ⟨entries, h, (hread (hcommas.1 hkeeps)).1⟩

/-- A file pattern with an empty alternative. -/
def patternText : String := "\x7b\"include\": \"src/*\x7b.d,\x7d.ts\"\x7d"

/-- The empty alternative of the pattern is lost. -/
theorem parse?_patternText :
    ∃ entries, Json.parse? patternText.toList = some (.table entries) ∧
      (Table.get? entries "include").bind Value.asText? =
        some "src/*\x7b.d,\x7d.ts" ∧
      (parse? patternText).bind
        (fun t => (Table.get? t "include").bind Value.asText?) =
        some "src/*\x7b.d\x7d.ts" ∧
      parse? patternText ≠ some entries := by
  obtain ⟨entries, h⟩ :
      ∃ entries, Json.parse? patternText.toList = some (.table entries) :=
    exists_table_of_asTable? (by decide +kernel)
  have hstrict : (Json.parse? patternText.toList).bind
      (fun v => (v.get? "include").bind Value.asText?) =
        some "src/*\x7b.d,\x7d.ts" := by
    decide +kernel
  have hloaded : (parse? patternText).bind
      (fun t => (Table.get? t "include").bind Value.asText?) =
        some "src/*\x7b.d\x7d.ts" := by
    decide +kernel
  rw [h] at hstrict
  -- Both readings have the entry, with different texts.
  refine ⟨entries, h, hstrict, hloaded, fun hsame => ?_⟩
  rw [hsame] at hloaded
  have hequal : some "src/*\x7b.d,\x7d.ts" = some "src/*\x7b.d\x7d.ts" :=
    hstrict.symm.trans hloaded
  exact absurd hequal (by decide)

end Jsonc

end RenderLoop
