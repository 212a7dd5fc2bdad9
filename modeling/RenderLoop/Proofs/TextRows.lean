import RenderLoop.Text.Lines
import RenderLoop.Proofs.Links

/-!
# Rows and lines

A parser counts the rows of a text, which end at line feeds. The lines of
`splitLines` end at further characters as well, so that a row may be shown as
several pieces. A row is plain if it is one piece: none of these characters
stands in it, a carriage return at its end apart.

> `exists_flatMap_pieces`: the lines of a text are the pieces of its rows, one
> row after another.

> `getElem?_flatMap_pieces`: behind plain rows alone, the line with a number
> is the front of the row with that number.

> `exists_piece_of_not_isPlain`: behind a row that is not plain, it is a piece
> of an earlier row.

The lines are made by a pass that looks at one character, or at two where a
carriage return and a line feed belong together. The proofs go along with that
pass: up to the first boundary nothing happens (`splitLinesFrom_front`), and
what happens at a boundary depends on which one it is. A row is followed to
its line feed, and then the next one begins with an empty line.
-/

namespace RenderLoop

/-- The rows of a text: the parts between its line feeds. -/
def textRows (text : String) : List (List Char) := text.toList.splitOn '\n'

/-- What an editor shows of a row. -/
def pieces (row : List Char) : List String := splitLinesFrom [] (row ++ ['\n'])

/-- The part of a row before its first line boundary. -/
def rowFront (row : List Char) : List Char := row.takeWhile (!isLineBoundary ·)

/-- A row without line boundaries, a carriage return at its end apart. -/
def IsPlain (row : List Char) : Prop :=
  row = rowFront row ∨ row = rowFront row ++ ['\r']

instance (row : List Char) : Decidable (IsPlain row) :=
  inferInstanceAs (Decidable (_ ∨ _))

variable {row rest : List Char} {c : Char}

/-! ### One row -/

/-- One character further: a boundary ends the line, unless it is half of a
pair. -/
theorem splitLinesFrom_cons (done : List Char)
    (h : c ≠ '\r' ∨ rest.head? ≠ some '\n') :
    splitLinesFrom done (c :: rest) =
      if isLineBoundary c then String.ofList done.reverse ::
        splitLinesFrom [] rest
      else splitLinesFrom (c :: done) rest := by
  -- the equation of the last pattern is costly to make, that of the definition
  -- is not
  rw [splitLinesFrom.eq_def]
  split
  · next heq => cases heq
  · next tail heq =>
    obtain ⟨rfl, rfl⟩ := List.cons.inj heq
    simp at h
  · next d tail _ heq =>
    obtain ⟨rfl, rfl⟩ := List.cons.inj heq
    rfl

theorem splitLinesFrom_nil : splitLinesFrom [] [] = [] := rfl

/-- A line feed ends the line. -/
theorem splitLinesFrom_newline (done rest : List Char) :
    splitLinesFrom done ('\n' :: rest) = String.ofList done.reverse ::
      splitLinesFrom [] rest := by
  rw [splitLinesFrom_cons done (.inl (by decide)), if_pos (by decide)]

/-- A line feed ends the current line together with a carriage return before
it. -/
theorem splitLinesFrom_return_newline (done rest : List Char) :
    splitLinesFrom done ('\r' :: '\n' :: rest) = String.ofList done.reverse ::
      splitLinesFrom [] rest :=
  rfl

/-- In a row a carriage return stands before a line feed only at the end. -/
theorem not_pair (hrow : '\n' ∉ row) (h : ¬ (c = '\r' ∧ row = []))
    (tail : List Char) :
    c ≠ '\r' ∨ (row ++ tail).head? ≠ some '\n' := by
  by_cases hc : c = '\r'
  · right
    intro hhead
    obtain ⟨d, row', rfl⟩ := List.exists_cons_of_ne_nil fun hnil => h ⟨hc, hnil⟩
    obtain rfl : d = '\n' := by simpa using hhead
    exact hrow List.mem_cons_self
  · exact .inl hc

/-- The pieces of a row do not depend on what follows its line feed. -/
theorem splitLinesFrom_append_newline (hrow : '\n' ∉ row)
    (done rest : List Char) :
    splitLinesFrom done (row ++ '\n' :: rest) =
      splitLinesFrom done (row ++ ['\n']) ++ splitLinesFrom [] rest := by
  induction row generalizing done with
  | nil =>
    rw [List.nil_append, List.nil_append, splitLinesFrom_newline,
      splitLinesFrom_newline]
    rfl
  | cons c row ih =>
    have hrest : '\n' ∉ row := fun h => hrow (List.mem_cons_of_mem _ h)
    by_cases hcr : c = '\r' ∧ row = []
    · -- the carriage return and the line feed end the line together
      obtain ⟨rfl, rfl⟩ := hcr
      show splitLinesFrom done ('\r' :: '\n' :: rest) =
        splitLinesFrom done ['\r', '\n'] ++ _
      rw [splitLinesFrom_return_newline, splitLinesFrom_return_newline]
      rfl
    · rw [List.cons_append, List.cons_append,
        splitLinesFrom_cons done (not_pair hrest hcr _),
        splitLinesFrom_cons done (not_pair hrest hcr _)]
      split
      · rw [ih hrest, List.cons_append]
      · exact ih hrest (c :: done)

/-- Without a line feed at its end a text lacks at most an empty line. -/
theorem exists_splitLinesFrom_concat (hrow : '\n' ∉ row) (done : List Char) :
    ∃ rest, splitLinesFrom done (row ++ ['\n']) =
      splitLinesFrom done row ++ rest ∧ (rest = [] ∨ rest = [""]) := by
  induction row generalizing done with
  | nil =>
    rw [List.nil_append, splitLinesFrom_newline]
    cases done with
    | nil => exact ⟨[""], rfl, .inr rfl⟩
    | cons d done => exact ⟨[], rfl, .inl rfl⟩
  | cons c row ih =>
    have hrest : '\n' ∉ row := fun h => hrow (List.mem_cons_of_mem _ h)
    by_cases hcr : c = '\r' ∧ row = []
    · obtain ⟨rfl, rfl⟩ := hcr
      refine ⟨[], ?_, .inl rfl⟩
      show splitLinesFrom done ['\r', '\n'] = splitLinesFrom done ['\r'] ++ []
      rw [splitLinesFrom_return_newline,
        splitLinesFrom_cons done (.inr (by simp)), if_pos (by decide)]
      rfl
    · have hlast := not_pair hrest hcr []
      rw [List.append_nil] at hlast
      rw [List.cons_append, splitLinesFrom_cons done (not_pair hrest hcr _),
        splitLinesFrom_cons done hlast]
      split
      · obtain ⟨extra, hextra, hcases⟩ := ih hrest []
        exact ⟨extra, by rw [hextra, List.cons_append], hcases⟩
      · exact ih hrest (c :: done)

/-- Nothing ends a line before its first boundary. -/
theorem splitLinesFrom_front (done : List Char) (tail : List Char) :
    splitLinesFrom done (rowFront row ++ tail) =
      splitLinesFrom ((rowFront row).reverse ++ done) tail := by
  unfold rowFront
  induction row generalizing done with
  | nil => rfl
  | cons c row ih =>
    by_cases hc : isLineBoundary c = true
    · rw [List.takeWhile_cons_of_neg (by simpa using hc)]
      rfl
    · have hne : c ≠ '\r' := by
        rintro rfl
        exact hc (by decide)
      rw [List.takeWhile_cons_of_pos (by simpa using hc), List.cons_append,
        splitLinesFrom_cons done (.inl hne), if_neg hc, ih]
      simp

/-- A row is its front, or goes on with a boundary. -/
theorem front_cases (row : List Char) :
    row = rowFront row ∨ ∃ c rest, isLineBoundary c = true ∧
      row = rowFront row ++ c :: rest := by
  have hsplit : rowFront row ++ row.dropWhile (!isLineBoundary ·) = row :=
    List.takeWhile_append_dropWhile
  cases hdrop : row.dropWhile (!isLineBoundary ·) with
  | nil =>
    rw [hdrop, List.append_nil] at hsplit
    exact .inl hsplit.symm
  | cons c rest =>
    rw [hdrop] at hsplit
    have hc := List.head?_dropWhile_not (!isLineBoundary ·) row
    rw [hdrop] at hc
    exact .inr ⟨c, rest, by simpa using hc, hsplit.symm⟩

/-- A plain row is one piece, its front. -/
theorem pieces_of_isPlain (h : IsPlain row) :
    pieces row = [String.ofList (rowFront row)] := by
  have hend : ∀ tail, tail = [] ∨ tail = ['\r'] →
      splitLinesFrom [] (rowFront row ++ (tail ++ ['\n'])) =
        [String.ofList (rowFront row)] := by
    rintro tail (rfl | rfl)
    · rw [splitLinesFrom_front, List.nil_append, splitLinesFrom_newline]
      simp [splitLinesFrom_nil]
    · show splitLinesFrom [] (rowFront row ++ ['\r', '\n']) = _
      rw [splitLinesFrom_front, splitLinesFrom_return_newline]
      simp [splitLinesFrom_nil]
  have hrow : ∃ tail, (tail = [] ∨ tail = ['\r']) ∧
      row = rowFront row ++ tail := by
    rcases h with h | h
    · exact ⟨[], .inl rfl, by rw [List.append_nil, ← h]⟩
    · exact ⟨['\r'], .inr rfl, h⟩
  obtain ⟨tail, htail, hrow⟩ := hrow
  have happend : row ++ ['\n'] = rowFront row ++ (tail ++ ['\n']) := by
    rw [← List.append_assoc, ← hrow]
  rw [pieces, happend, hend tail htail]

/-- A row that goes on behind its front goes on with the pieces of the rest. -/
theorem pieces_of_boundary (hc : isLineBoundary c = true) (hrest : '\n' ∉ rest)
    (hcr : ¬ (c = '\r' ∧ rest = [])) (h : row = rowFront row ++ c :: rest) :
    pieces row = String.ofList (rowFront row) :: pieces rest := by
  have happend : row ++ ['\n'] = rowFront row ++ (c :: (rest ++ ['\n'])) := by
    rw [← List.cons_append, ← List.append_assoc, ← h]
  rw [pieces, happend, splitLinesFrom_front,
    splitLinesFrom_cons _ (not_pair hrest hcr _), if_pos hc]
  simp [pieces]

/-- The first piece of a row is its front. If the row is not plain there is a
second one. -/
theorem exists_pieces (hrow : '\n' ∉ row) :
    ∃ others, pieces row = String.ofList (rowFront row) :: others ∧
      (IsPlain row ∨ others ≠ []) := by
  -- the induction is on the length, since the rest behind a boundary is a row
  -- again
  induction hlength : row.length using Nat.strongRecOn generalizing row with
  | ind n ih =>
    by_cases hplain : IsPlain row
    · exact ⟨[], pieces_of_isPlain hplain, .inl hplain⟩
    · rcases front_cases row with h | ⟨c, rest, hc, h⟩
      · exact absurd (.inl h) hplain
      · have hcr : ¬ (c = '\r' ∧ rest = []) := by
          rintro ⟨rfl, rfl⟩
          exact hplain (.inr h)
        have hrest : '\n' ∉ rest := fun hmem => hrow (by rw [h]; simp [hmem])
        have hshorter : rest.length < n := by
          rw [← hlength, h]
          simp
          omega
        obtain ⟨others, hothers, -⟩ := ih rest.length hshorter hrest rfl
        exact ⟨pieces rest, pieces_of_boundary hc hrest hcr h,
          .inr (by rw [hothers]; simp)⟩

/-! ### All rows -/

/-- A row has no line feed. -/
theorem newline_not_mem_of_mem_textRows {text : String}
    (h : row ∈ textRows text) : '\n' ∉ row :=
  Path.not_mem_of_mem_splitOn h

/-- There is one more row than line feeds. -/
theorem length_textRows (text : String) :
    (textRows text).length = text.toList.count '\n' + 1 := by
  unfold textRows
  induction text.toList with
  | nil => rfl
  | cons c cs ih =>
    rw [List.splitOn_cons_eq_if_modifyHead, List.count_cons]
    split
    · rw [List.length_cons, ih]
    · rw [List.length_modifyHead, ih, Nat.add_zero]

variable {rows : List (List Char)} {last : List Char} {k : Nat}

theorem intercalate_newline_cons (row : List Char) (rows : List (List Char))
    (last : List Char) :
    ['\n'].intercalate (row :: (rows ++ [last])) =
      row ++ '\n' :: ['\n'].intercalate (rows ++ [last]) := by
  cases rows with
  | nil => simp [List.intercalate]
  | cons other rows => simp [List.intercalate]

/-- The lines of joined rows are the pieces of the rows, up to an empty line
at the end. -/
theorem exists_flatMap_pieces_of_rows (hrows : ∀ row ∈ rows, '\n' ∉ row)
    (hlast : '\n' ∉ last) :
    ∃ rest, (rows ++ [last]).flatMap pieces =
      splitLinesFrom [] (['\n'].intercalate (rows ++ [last])) ++ rest ∧
        (rest = [] ∨ rest = [""]) := by
  induction rows with
  | nil =>
    simpa [pieces, List.intercalate] using exists_splitLinesFrom_concat hlast []
  | cons row rows ih =>
    obtain ⟨rest, hrest, hcases⟩ :=
      ih fun row h => hrows row (List.mem_cons_of_mem _ h)
    refine ⟨rest, ?_, hcases⟩
    rw [List.cons_append, intercalate_newline_cons,
      splitLinesFrom_append_newline (hrows row List.mem_cons_self),
        List.flatMap_cons, hrest,
      List.append_assoc, pieces]

/-- The lines of a text are the pieces of its rows, up to an empty line at
the end. -/
theorem exists_flatMap_pieces (text : String) :
    ∃ rest, (textRows text).flatMap pieces = splitLines text ++ rest ∧
      (rest = [] ∨ rest = [""]) := by
  have hne : textRows text ≠ [] := List.splitOn_ne_nil _ _
  have hrows : (textRows text).dropLast ++ [(textRows text).getLast hne] =
      textRows text :=
    List.dropLast_append_getLast hne
  have hbefore : ∀ row ∈ (textRows text).dropLast, '\n' ∉ row := fun row hrow =>
    newline_not_mem_of_mem_textRows ((List.dropLast_sublist _).subset hrow)
  have h := exists_flatMap_pieces_of_rows hbefore
    (newline_not_mem_of_mem_textRows (List.getLast_mem hne))
  rw [hrows, textRows, List.intercalate_splitOn] at h
  exact h

/-- Behind plain rows alone, the line with a number is the front of the row
with that number. -/
theorem getElem?_flatMap_pieces (hrows : ∀ row ∈ rows, '\n' ∉ row)
    (hplain : ∀ row ∈ rows.take k, IsPlain row) :
    (rows.flatMap pieces)[k]? = rows[k]?.map fun row =>
      String.ofList (rowFront row) := by
  induction rows generalizing k with
  | nil => rfl
  | cons row rows ih =>
    obtain ⟨others, hpieces, -⟩ := exists_pieces (hrows row List.mem_cons_self)
    rw [List.flatMap_cons]
    cases k with
    | zero =>
      rw [hpieces]
      rfl
    | succ k =>
      rw [pieces_of_isPlain (hplain row List.mem_cons_self)]
      exact ih (fun row h => hrows row (List.mem_cons_of_mem _ h))
        fun row h => hplain row (List.mem_cons_of_mem _ h)

/-- There are at least as many pieces as rows, and more if a row is not
plain. -/
theorem length_flatMap_pieces (hrows : ∀ row ∈ rows, '\n' ∉ row) :
    rows.length ≤ (rows.flatMap pieces).length ∧
      ((∃ row ∈ rows, ¬ IsPlain row) →
        rows.length < (rows.flatMap pieces).length) := by
  induction rows with
  | nil => simp
  | cons row rows ih =>
    obtain ⟨others, hpieces, hothers⟩ :=
      exists_pieces (hrows row List.mem_cons_self)
    obtain ⟨hle, hlt⟩ := ih fun row h => hrows row (List.mem_cons_of_mem _ h)
    rw [List.flatMap_cons, hpieces, List.length_append, List.length_cons,
      List.length_cons]
    refine ⟨by omega, ?_⟩
    rintro ⟨other, hother, hnot⟩
    rcases List.mem_cons.1 hother with rfl | hother
    · have := List.length_pos_of_ne_nil (hothers.resolve_left hnot)
      omega
    · have := hlt ⟨other, hother, hnot⟩
      omega

/-- Behind a row that is not plain, the line with a number is a piece of an
earlier row. -/
theorem exists_piece_of_not_isPlain (hrows : ∀ row ∈ rows, '\n' ∉ row)
    (hk : k ≤ rows.length) (hsome : ∃ row ∈ rows.take k, ¬ IsPlain row) :
    ∃ row ∈ rows.take k, ∃ p ∈ pieces row,
      (rows.flatMap pieces)[k]? = some p := by
  have hshort : k < ((rows.take k).flatMap pieces).length := by
    have h :=
      (length_flatMap_pieces fun row h => hrows row (List.mem_of_mem_take h)).2
      hsome
    rwa [List.length_take, Nat.min_eq_left hk] at h
  have hsplit : rows.flatMap pieces = (rows.take k).flatMap pieces ++
      (rows.drop k).flatMap pieces := by
    rw [← List.flatMap_append, List.take_append_drop]
  have hget : (rows.flatMap pieces)[k]? =
      some (((rows.take k).flatMap pieces).get ⟨k, hshort⟩) := by
    rw [hsplit, List.getElem?_append_left hshort]
    exact List.getElem?_eq_getElem hshort
  obtain ⟨row, hrow, hp⟩ :=
    List.mem_flatMap.1 (List.get_mem ((rows.take k).flatMap pieces) ⟨k, hshort⟩)
  exact ⟨row, hrow, _, hp, hget⟩

end RenderLoop
