import RenderLoop.Tree.Rows
import RenderLoop.Proofs.Anchors
import RenderLoop.Proofs.Markers
import RenderLoop.Proofs.TextRows

/-!
# The line of a finding

A finding takes its line from the row of the node it stands at, and a comment
silences it if it stands on that line or on the one above. The row counts line
feeds; the lines that are looked up end at other characters too.

> `Check.file_keeps_by_row`: if none of these characters stands in the rows up
> to the finding, it is dropped iff its own row silences it or the one above
> does. Otherwise the lines looked up are not those rows.

The number of line feeds is that of bytes, since no other character has a byte
of that value (`SourceIndex.row_ofText`).

Two ways of counting lines are compared. The parser counts line feeds, and
gives rows (`textRows`). The comments are looked up in a list of lines that
ends at every kind of line break, so each row falls into pieces; the lines are
the pieces of all rows, but for an empty one at the end
(`isLineIgnored_splitLines`). As long as every row up to a finding has one
piece, both ways agree on the number of its line.

With a line separator in front of the element the two disagree, and a comment
on its own row does not silence the finding (`Check.file_not_silenced`).
-/

namespace RenderLoop

/-! ### Rows of nodes -/

namespace SourceIndex

/-- The bytes of an array, read one by one. -/
theorem toList_bytes (bytes : ByteArray) :
    bytes.toList = bytes.data.toList := by
  have hloop : ∀ (i : Nat) (done : List UInt8),
      ByteArray.toList.loop bytes i done = done.reverse ++
        bytes.data.toList.drop i := by
    intro i done
    induction i, done using ByteArray.toList.loop.induct bytes with
    | case1 i done hi ih =>
      have hdrop : bytes.data.toList.drop i = bytes.get! i ::
          bytes.data.toList.drop (i + 1) := by
        rw [List.drop_eq_getElem_cons (by simpa using hi)]
        simp [ByteArray.get!, hi]
      rw [ByteArray.toList.loop, if_pos hi, ih, hdrop, List.reverse_cons,
        List.append_assoc]
      rfl
    | case2 i done hi =>
      rw [ByteArray.toList.loop, if_neg hi,
        List.drop_of_length_le (by simpa using hi), List.append_nil]
  exact hloop 0 []

theorem toList_toUTF8 (text : String) :
    text.toUTF8.toList = text.toList.flatMap String.utf8EncodeChar := by
  show text.toByteArray.toList = _
  rw [toList_bytes, ← String.utf8Encode_toList, List.utf8Encode,
    List.toList_data_toByteArray]

/-- A line feed is one byte, and no other character has that byte. -/
theorem count_utf8EncodeChar (c : Char) :
    (String.utf8EncodeChar c).count 10 = if c = '\n' then 1 else 0 := by
  by_cases hc : c = '\n'
  · rw [hc]
    decide
  · have hne : c.val.toNat ≠ 10 := by
      intro h
      exact hc (Char.toNat_inj.1 h)
    rw [if_neg hc, List.count_eq_zero]
    intro hmem
    have hbyte : ∀ {x : Nat}, 10 = UInt8.ofNat x → x % 256 = 10 := by
      intro x hx
      have := congrArg UInt8.toNat hx
      rw [UInt8.toNat_ofNat'] at this
      exact this.symm
    -- every byte of a longer character is at least 128
    unfold String.utf8EncodeChar at hmem
    simp only at hmem
    split at hmem
    · have := hbyte (List.mem_singleton.1 hmem)
      omega
    · split at hmem
      · simp only [List.mem_cons, List.not_mem_nil, or_false] at hmem
        rcases hmem with h | h <;> have := hbyte h <;> omega
      · split at hmem
        · simp only [List.mem_cons, List.not_mem_nil, or_false] at hmem
          rcases hmem with h | h | h <;> have := hbyte h <;> omega
        · simp only [List.mem_cons, List.not_mem_nil, or_false] at hmem
          rcases hmem with h | h | h | h <;> have := hbyte h <;> omega

/-- The table of line breaks counts the line feeds before each byte. -/
theorem getElem?_breaksBefore {bytes : List UInt8} {i : Nat}
    (hi : i ≤ bytes.length) (seen : Nat) :
    (breaksBefore seen bytes)[i]? = some (seen + (bytes.take i).count 10) := by
  induction bytes generalizing i seen with
  | nil =>
    obtain rfl : i = 0 := Nat.le_zero.1 hi
    rfl
  | cons b bytes ih =>
    rw [breaksBefore]
    cases i with
    | zero => rfl
    | succ i =>
      rw [List.getElem?_cons_succ, ih (Nat.le_of_succ_le_succ hi),
        List.take_succ_cons, List.count_cons]
      by_cases hb : b = 10
      · simp [hb]; omega
      · simp [hb]

/-- The row behind a part of a text is the number of its line feeds. -/
theorem row_ofText (before after : String) :
    (ofText (before ++ after)).row before.utf8ByteSize =
      before.toList.count '\n' := by
  have hbytes : (before ++ after).toUTF8.toList =
      before.toUTF8.toList ++ after.toUTF8.toList := by
    rw [toList_toUTF8, toList_toUTF8, toList_toUTF8, String.toList_append,
      List.flatMap_append]
  have hsize : before.utf8ByteSize = before.toUTF8.toList.length := by
    rw [toList_bytes, Array.length_toList, ByteArray.size_data]
    exact String.size_toByteArray.symm
  have hcount : before.toUTF8.toList.count 10 = before.toList.count '\n' := by
    rw [toList_toUTF8]
    induction before.toList with
    | nil => rfl
    | cons c cs ih =>
      rw [List.flatMap_cons, List.count_append, ih, count_utf8EncodeChar,
        List.count_cons]
      simp [Nat.add_comm]
  unfold row ofText
  simp only
  rw [Array.getD_eq_getD_getElem?, List.getElem?_toArray, hbytes, hsize,
    getElem?_breaksBefore (by simp), List.take_left, hcount]
  simp

end SourceIndex

namespace Tree

variable {source : SourceIndex}

/-- The nodes of trees that are put together from rows are labelled by these
rows. -/
theorem exists_row_of_takeTrees {fuel count : Nat} {rows rest : List Row}
    {trees : List Tree}
    (h : takeTrees source fuel count rows = some (trees, rest)) :
    rest ⊆ rows ∧ ∀ above, ∀ n ∈ walkList above trees,
      ∃ r ∈ rows, n.label = r.label source := by
  induction fuel generalizing count rows rest trees with
  | zero =>
    cases count with
    | zero =>
      obtain ⟨rfl, rfl⟩ := Prod.mk.inj (Option.some.inj h)
      exact ⟨List.Subset.refl _, fun above n hn => nomatch hn⟩
    | succ count => cases h
  | succ fuel ih =>
    cases count with
    | zero =>
      obtain ⟨rfl, rfl⟩ := Prod.mk.inj (Option.some.inj h)
      exact ⟨List.Subset.refl _, fun above n hn => nomatch hn⟩
    | succ count =>
      cases rows with
      | nil => cases h
      | cons r rows =>
        obtain ⟨⟨children, behind⟩, hchildren, h⟩ := Option.bind_eq_some_iff.1 h
        obtain ⟨⟨siblings, last⟩, hsiblings, h⟩ := Option.bind_eq_some_iff.1 h
        obtain ⟨rfl, rfl⟩ := Prod.mk.inj (Option.some.inj h)
        obtain ⟨hbehind, hdown⟩ := ih hchildren
        obtain ⟨hlast, hright⟩ := ih hsiblings
        refine ⟨List.Subset.trans (List.Subset.trans hlast hbehind)
          (List.subset_cons_self _ _), fun above n hn => ?_⟩
        rw [walkList, List.mem_append, walk, List.mem_cons] at hn
        rcases hn with (rfl | hn) | hn
        · exact ⟨r, List.mem_cons_self, rfl⟩
        · obtain ⟨s, hs, hlabel⟩ := hdown _ n hn
          exact ⟨s, List.mem_cons_of_mem _ hs, hlabel⟩
        · obtain ⟨s, hs, hlabel⟩ := hright _ n hn
          exact ⟨s, List.mem_cons_of_mem _ (hbehind hs), hlabel⟩

/-- Every node of a tree that is built from rows is one of the rows. -/
theorem exists_row_of_ofRows? {text : String} {rows : List Row} {tree : Tree}
    (h : ofRows? text rows = some tree) {n : Node}
    (hn : n ∈ (Node.ofRoot tree).walk) :
    ∃ r ∈ rows, n.label = r.label (.ofText text) := by
  unfold ofRows? at h
  split at h
  · next t htake =>
    cases h
    have hmem : n ∈ walkList [] [tree] := by
      rw [walkList, walkList, List.append_nil]
      exact hn
    exact (exists_row_of_takeTrees htake).2 [] n hmem
  · cases h

end Tree

/-- The rows start at characters of the text. -/
def StartAtCharacters (text : String) (rows : List Row) : Prop :=
  ∀ r ∈ rows, ∃ before after, text = before ++ after ∧
    before.utf8ByteSize = r.start

/-- The line of a node is one more than the number of line feeds before it. -/
theorem exists_line_eq {text : String} {rows : List Row} {tree : Tree}
    (hrows : StartAtCharacters text rows)
    (h : Tree.ofRows? text rows = some tree) {n : Node}
    (hn : n ∈ (Node.ofRoot tree).walk) :
      ∃ before after, text = before ++ after ∧ before.utf8ByteSize = n.start ∧
      n.line = before.toList.count '\n' + 1 := by
  obtain ⟨r, hr, hlabel⟩ := Tree.exists_row_of_ofRows? h hn
  obtain ⟨before, after, rfl, hstart⟩ := hrows r hr
  refine ⟨before, after, rfl, ?_, ?_⟩
  · rw [Node.start, hlabel, hstart]
    rfl
  · rw [Node.line, hlabel, ← SourceIndex.row_ofText before after, hstart]
    rfl

/-! ### Looking lines up -/

section

open Suppression

/-- A line is silenced by a marker on it, or by the other marker on the line
above. -/
theorem isLineIgnored_eq (lines : List String) (k : Nat) :
    isLineIgnored lines (k + 1 : Nat) =
      (lines[k]?.any sameLineMarker.search || decide (k ≠ 0) &&
        lines[k - 1]?.any nextLineMarker.search) := by
  unfold isLineIgnored lineAt?
  cases k with
  | zero => simp
  | succ k =>
    have h₁ : ((k + 1 + 1 : Nat) - 1 : Int).toNat = k + 1 := by omega
    have h₂ : ((k + 1 + 1 : Nat) - 1 - 1 : Int).toNat = k := by omega
    rw [if_pos (by omega), if_pos (by omega), h₁, h₂]
    simp

/-- Lists that give the same answers at two places silence the same line. -/
theorem isLineIgnored_congr {lines others : List String} {k : Nat}
    (hsame : lines[k]?.any sameLineMarker.search =
      others[k]?.any sameLineMarker.search)
    (hnext : k ≠ 0 → lines[k - 1]?.any nextLineMarker.search =
      others[k - 1]?.any nextLineMarker.search) :
    isLineIgnored lines (k + 1 : Nat) = isLineIgnored others (k + 1 : Nat) := by
  rw [isLineIgnored_eq, isLineIgnored_eq, hsame]
  by_cases hk : k = 0
  · simp [hk]
  · rw [hnext hk]

/-- An empty line at the end silences nothing. -/
theorem any_getElem?_append {lines rest : List String}
    (hrest : rest = [] ∨ rest = [""]) {p : String → Bool}
    (hp : p "" = false) (k : Nat) :
    (lines ++ rest)[k]?.any p = lines[k]?.any p := by
  rcases hrest with rfl | rfl
  · rw [List.append_nil]
  · by_cases hk : k < lines.length
    · rw [List.getElem?_append_left hk]
    · have hnone : lines[k]? = none := List.getElem?_eq_none (Nat.not_lt.1 hk)
      rw [List.getElem?_append_right (Nat.not_lt.1 hk), hnone]
      cases k - lines.length with
      | zero => exact hp
      | succ d => rfl

/-- A last line that is empty makes no difference to what is silenced. -/
theorem isLineIgnored_splitLines (text : String) (k : Nat) :
    isLineIgnored (splitLines text) (k + 1 : Nat) =
      isLineIgnored ((textRows text).flatMap pieces) (k + 1 : Nat) := by
  obtain ⟨rest, hlines, hrest⟩ := exists_flatMap_pieces text
  rw [hlines]
  apply isLineIgnored_congr
  · exact (any_getElem?_append hrest (by decide +kernel) k).symm
  · intro _
    exact (any_getElem?_append hrest (by decide +kernel) (k - 1)).symm

variable {text : String} {k : Nat}

/-- Behind plain rows alone, the row with a number counts up to its first
boundary. -/
theorem isLineIgnored_of_plain_before
    (hplain : ∀ row ∈ (textRows text).take k, IsPlain row) :
    isLineIgnored ((textRows text).flatMap pieces) (k + 1 : Nat) =
      isLineIgnored ((textRows text).map fun row => .ofList (rowFront row))
        (k + 1 : Nat) := by
  have hrows : ∀ row ∈ textRows text, '\n' ∉ row :=
    fun row => newline_not_mem_of_mem_textRows
  apply isLineIgnored_congr
  · rw [getElem?_flatMap_pieces hrows hplain, List.getElem?_map]
  · intro _
    have hless : ∀ row ∈ (textRows text).take (k - 1), IsPlain row := by
      intro row hrow
      exact hplain row (List.take_subset_take_left _ (Nat.sub_le k 1) hrow)
    rw [getElem?_flatMap_pieces hrows hless, List.getElem?_map]

/-- The markers do not tell a plain row from its front. -/
theorem search_rowFront {row : List Char} (h : IsPlain row) :
    sameLineMarker.search (.ofList (rowFront row)) =
      sameLineMarker.search (.ofList row) ∧
      nextLineMarker.search (.ofList (rowFront row)) =
      nextLineMarker.search (.ofList row) := by
  rcases h with h | h
  · rw [← h]
    exact ⟨rfl, rfl⟩
  · obtain ⟨hsame, hnext⟩ := search_concat_cr (rowFront row)
    rw [← h] at hsame hnext
    exact ⟨hsame.symm, hnext.symm⟩

/-- Where the row itself is plain as well, it counts as a whole. -/
theorem isLineIgnored_of_plain
    (hplain : ∀ row ∈ (textRows text).take (k + 1), IsPlain row) :
    isLineIgnored ((textRows text).map fun row => .ofList (rowFront row))
      (k + 1 : Nat) = isLineIgnored ((textRows text).map .ofList)
      (k + 1 : Nat) := by
  have hat : ∀ i ≤ k, ∀ row, (textRows text)[i]? = some row → IsPlain row := by
    intro i hi row hrow
    apply hplain
    apply List.mem_of_getElem? (i := i)
    rw [List.getElem?_take_of_lt (by omega)]
    exact hrow
  apply isLineIgnored_congr
  · rw [List.getElem?_map, List.getElem?_map]
    cases hrow : (textRows text)[k]? with
    | none => rfl
    | some row => exact (search_rowFront (hat k (Nat.le_refl k) row hrow)).1
  · intro _
    rw [List.getElem?_map, List.getElem?_map]
    cases hrow : (textRows text)[k - 1]? with
    | none => rfl
    | some row =>
      exact (search_rowFront (hat (k - 1) (Nat.sub_le k 1) row hrow)).2

end

namespace Check

variable {ctx : Context} {path text : String} {rows : List Row} {tree : Tree}
  {f : SourceFile} {imported : String → Option SetterTaker} {x : Finding}

/-- How a finding with `k` line feeds before it is kept or dropped. -/
structure KeptByRow (text : String) (k : Nat) (kept : Prop) : Prop where
  /-- The lines that are looked up are the pieces of the rows. -/
  looked : kept ↔ isLineIgnored ((textRows text).flatMap pieces)
    (k + 1 : Nat) = false
  /-- If all rows up to the finding are plain, these are the rows themselves. -/
  plain : (∀ row ∈ (textRows text).take (k + 1), IsPlain row) →
    (kept ↔ isLineIgnored ((textRows text).map .ofList) (k + 1 : Nat) = false)
  /-- If only its own row is not, that row counts up to its first boundary. -/
  front : (∀ row ∈ (textRows text).take k, IsPlain row) →
    (kept ↔ isLineIgnored ((textRows text).map fun row =>
      .ofList (rowFront row)) (k + 1 : Nat) = false)
  /-- If one before it is not, a piece of an earlier row is looked up in place
  of its own. -/
  behind : (∃ row ∈ (textRows text).take k, ¬ IsPlain row) →
    ∃ row ∈ (textRows text).take k, ∃ p ∈ pieces row,
    ((textRows text).flatMap pieces)[k]? = some p

/-- How a finding is kept follows from how its line is looked up. -/
theorem keptByRow {k : Nat} (hk : k ≤ (textRows text).length) {kept : Prop}
    (hkept : kept ↔ isLineIgnored (splitLines text) (k + 1 : Nat) = false) :
    KeptByRow text k kept := by
  rw [isLineIgnored_splitLines] at hkept
  refine ⟨hkept, fun hplain => ?_, fun hplain => ?_, fun hsome => ?_⟩
  · have hbefore : ∀ row ∈ (textRows text).take k, IsPlain row :=
      fun row hrow =>
      hplain row (List.take_subset_take_left _ (Nat.le_succ k) hrow)
    rw [hkept, isLineIgnored_of_plain_before hbefore,
      isLineIgnored_of_plain hplain]
  · rw [hkept, isLineIgnored_of_plain_before hplain]
  · exact exists_piece_of_not_isPlain
      (fun row => newline_not_mem_of_mem_textRows) hk hsome

/-- A finding stands behind as many line feeds as its line says. It is dropped
iff its row or the one above silences it, if the rows up to it are plain;
otherwise other lines decide. -/
theorem file_keeps_by_row (hrows : StartAtCharacters text rows)
    (htree : Tree.ofRows? text rows = some tree)
    (hf : SourceFile.ofTree path text tree = .ok f)
    (hx : x ∈ (allFindings ctx f imported).findings) :
    ∃ n ∈ f.root.walk, StandsAt path n x ∧
      ∃ before after, text = before ++ after ∧ before.utf8ByteSize = n.start ∧
      x.line = 1 + before.toList.count '\n' ∧
      KeptByRow text (before.toList.count '\n')
        (x ∈ (file ctx f imported).findings) := by
  obtain ⟨htext, hpath, hroot⟩ : f.text = text ∧ f.path = path ∧
      f.root = .ofRoot tree := by
    unfold SourceFile.ofTree at hf
    simp only at hf
    split at hf
    · cases hf
    · cases hf
      exact ⟨rfl, rfl, rfl⟩
  obtain ⟨n, hn, hstands⟩ := exists_standsAt hx
  obtain ⟨before, after, rfl, hstart, hline⟩ :=
    exists_line_eq hrows htree (hroot ▸ hn)
  have hxline : x.line = (before.toList.count '\n' + 1 : Nat) := by
    rw [hstands.line, hline]
  refine ⟨n, hn, hpath ▸ hstands, before, after, rfl, hstart, by omega,
    keptByRow ?_ ?_⟩
  · rw [length_textRows, String.toList_append, List.count_append]
    omega
  · rw [file, List.mem_filter, SourceFile.lines, htext, hxline]
    simp [hx]

/-! ### A silenced element behind a comment -/

/-- A provider with a fresh value and a comment that silences its line, behind
some other text. -/
def silenced (lead : String) : String :=
  lead ++ "<C.Provider value=\x7b[]\x7d />; // rld-ignore"

/-- The tree of the element, which starts behind the other text. -/
def silencedRows (lead : String) : List Row :=
  let s := lead.utf8ByteSize
  [⟨"program", s, s + 40, 1, none, false⟩,
    ⟨"jsx_self_closing_element", s, s + 25, 2, none, false⟩,
    ⟨"nested_identifier", s + 1, s + 11, 0, some "name", false⟩,
    ⟨"jsx_attribute", s + 12, s + 22, 2, none, false⟩,
    ⟨"property_identifier", s + 12, s + 17, 0, none, false⟩,
    ⟨"jsx_expression", s + 18, s + 22, 1, none, false⟩,
      ⟨"array", s + 19, s + 21, 0, none, false⟩]

/-- It is enough to try all the places between two characters. -/
theorem startAtCharacters_of_cuts
    (h : ∀ r ∈ rows, ∃ k ∈ List.range (text.length + 1),
      (String.ofList (text.toList.take k)).utf8ByteSize = r.start) :
      StartAtCharacters text rows := by
  intro r hr
  obtain ⟨k, -, hk⟩ := h r hr
  refine ⟨.ofList (text.toList.take k), .ofList (text.toList.drop k), ?_, hk⟩
  rw [← String.ofList_append, List.take_append_drop, String.ofList_toList]

/-- What the checks say about the element, as far as its line is concerned. -/
theorem exists_silenced (lead : String) (found kept : List Int)
    (h : ((Tree.ofRows? (silenced lead) (silencedRows lead)).bind fun tree =>
      (SourceFile.ofTree "a.tsx" (silenced lead) tree).toOption.map fun f =>
        ((allFindings .usual f fun _ => none).findings.map (·.line),
          (file .usual f fun _ => none).findings.map (·.line))) =
          some (found, kept)) :
    ∃ tree f, Tree.ofRows? (silenced lead) (silencedRows lead) = some tree ∧
      SourceFile.ofTree "a.tsx" (silenced lead) tree = .ok f ∧
      (allFindings .usual f fun _ => none).findings.map (·.line) = found ∧
      (file .usual f fun _ => none).findings.map (·.line) = kept := by
  obtain ⟨tree, htree, h⟩ := Option.bind_eq_some_iff.1 h
  obtain ⟨f, hf, h⟩ := Option.map_eq_some_iff.1 h
  obtain ⟨hfound, hkept⟩ := Prod.mk.inj h
  refine ⟨tree, f, htree, ?_, hfound, hkept⟩
  cases hof : SourceFile.ofTree "a.tsx" (silenced lead) tree with
  | error e =>
    rw [hof] at hf
    cases hf
  | ok g =>
    rw [hof] at hf
    cases hf
    rfl

/-- On the second row, behind a first that ends in a carriage return, the
element is silenced. -/
theorem file_silenced : ∃ tree f x,
    Tree.ofRows? (silenced "/* */\r\n") (silencedRows "/* */\r\n") = some tree ∧
    SourceFile.ofTree "a.tsx" (silenced "/* */\r\n") tree = .ok f ∧
    x ∈ (allFindings .usual f fun _ => none).findings ∧ x.line = 2 ∧
    x ∉ (file .usual f fun _ => none).findings := by
  obtain ⟨tree, f, htree, hf, hfound, -⟩ :=
    exists_silenced "/* */\r\n" [2] [] (by decide +kernel)
  obtain ⟨x, hx, hline⟩ := List.map_eq_singleton_iff.1 hfound
  have hmem : x ∈ (allFindings .usual f fun _ => none).findings := by
    rw [hx]
    exact List.mem_singleton_self x
  refine ⟨tree, f, x, htree, hf, hmem, hline, ?_⟩
  have hrows : StartAtCharacters (silenced "/* */\r\n")
      (silencedRows "/* */\r\n") :=
    startAtCharacters_of_cuts (by decide +kernel)
  obtain ⟨n, -, -, before, after, -, -, hcount, hkept⟩ :=
    file_keeps_by_row hrows htree hf hmem
  have hone : before.toList.count '\n' = 1 := by omega
  rw [hone] at hkept
  rw [hkept.plain (by decide +kernel)]
  decide +kernel

/-- Behind a line separator on the same row it is not, although the comment
stands on its row. -/
theorem file_not_silenced : ∃ tree f x,
    Tree.ofRows? (silenced "/*\u2028*/ ")
      (silencedRows "/*\u2028*/ ") = some tree ∧
    SourceFile.ofTree "a.tsx" (silenced "/*\u2028*/ ") tree = .ok f ∧
    x ∈ (file .usual f fun _ => none).findings ∧
    isLineIgnored ((textRows (silenced "/*\u2028*/ ")).map .ofList)
      x.line = true := by
  obtain ⟨tree, f, htree, hf, -, hkept⟩ :=
    exists_silenced "/*\u2028*/ " [1] [1] (by decide +kernel)
  obtain ⟨x, hx, hline⟩ := List.map_eq_singleton_iff.1 hkept
  refine ⟨tree, f, x, htree, hf, ?_, ?_⟩
  · rw [hx]
    exact List.mem_singleton_self x
  · rw [hline]
    decide +kernel

end Check

end RenderLoop
