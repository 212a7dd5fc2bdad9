import RenderLoop.Report.Basic
import RenderLoop.Proofs.TextRows

/-!
# Texts on one line

A text stands on one line if it has no line feed. What is put together of such
texts stands on one line again, and so do numbers and the paths of files with
such names. A compact report puts its lines one below the other, so its rows
are those of its lines:

> `Report.rows_compact`: the rows of a compact report are the rows of its
> lines, one line after another.

> `Report.length_rows_compact`: there are as many rows as findings iff every
> line stands on one line.

To be free of line feeds is a property of the characters, so it goes through
joins in both directions (`oneLine_append`): a joined text is broken iff one
of its pieces is. Fixed texts are settled by evaluation (`OneLine.literal`),
numbers by the digits they are written in, and paths by their names, since a
separator is no line feed. For the report as a whole it is enough to know how
rows behave when texts are joined by line feeds (`textRows_intercalate`).
-/

namespace RenderLoop

/-- A text without line feeds. -/
def OneLine (s : String) : Prop := '\n' ∉ s.toList

instance (s : String) : Decidable (OneLine s) :=
  inferInstanceAs (Decidable (¬ _))

/-- No line feed is among some characters. -/
def isUnbroken : List Char → Bool
  | [] => true
  | c :: cs => c != '\n' && isUnbroken cs

variable {s t : String}

theorem isUnbroken_iff {cs : List Char} : isUnbroken cs = true ↔ '\n' ∉ cs := by
  induction cs with
  | nil => exact iff_of_true rfl List.not_mem_nil
  | cons c cs ih =>
    rw [isUnbroken, Bool.and_eq_true, bne_iff_ne, ih, List.mem_cons, not_or]
    exact and_congr_left fun _ => ne_comm

/-- For a text that is written out: its characters are looked at one by one. -/
theorem OneLine.literal {cs : List Char} (h : isUnbroken cs = true) :
    OneLine (String.ofList cs) := by
  unfold OneLine
  rw [String.toList_ofList]
  exact isUnbroken_iff.1 h

/-- Two texts that are joined stand on one line iff both do. -/
theorem oneLine_append : OneLine (s ++ t) ↔ OneLine s ∧ OneLine t := by
  unfold OneLine
  rw [String.toList_append, List.mem_append, not_or]

theorem OneLine.append (hs : OneLine s) (ht : OneLine t) : OneLine (s ++ t) :=
  oneLine_append.2 ⟨hs, ht⟩

/-- So do texts that are joined by a separator on one line. -/
theorem OneLine.intercalate {separator : String}
    (hseparator : OneLine separator) {texts : List String}
    (h : ∀ s ∈ texts, OneLine s) : OneLine (separator.intercalate texts) := by
  induction texts with
  | nil => exact .literal rfl
  | cons s texts ih =>
    obtain ⟨hs, htexts⟩ := List.forall_mem_cons.1 h
    by_cases hnil : texts = []
    · subst hnil
      rw [String.intercalate_singleton]
      exact hs
    · rw [String.intercalate_cons_of_ne_nil hnil]
      exact (hs.append hseparator).append (ih htexts)

/-- A number is written in digits. -/
theorem oneLine_natRepr (n : Nat) : OneLine n.repr := by
  unfold OneLine
  rw [Nat.repr_eq_ofList_toDigits, String.toList_ofList]
  intro h
  exact absurd (Nat.isDigit_of_mem_toDigits (by decide) (by decide) h)
    (by decide)

theorem oneLine_toString_int : ∀ i : Int, OneLine (toString i)
  | .ofNat n => oneLine_natRepr n
  | .negSucc n => .append (.literal (by decide)) (oneLine_natRepr (n + 1))

/-! ### Paths -/

theorem mem_intercalate {α : Type} {separator part : List α}
    {parts : List (List α)} {a : α} (hpart : part ∈ parts) (ha : a ∈ part) :
    a ∈ separator.intercalate parts := by
  induction parts with
  | nil => cases hpart
  | cons first rest ih =>
    by_cases hnil : rest = []
    · subst hnil
      rw [List.intercalate_singleton, ← List.mem_singleton.1 hpart]
      exact ha
    · rw [List.intercalate_cons_of_ne_nil hnil]
      rcases List.mem_cons.1 hpart with rfl | hpart
      · exact List.mem_append_left _ (List.mem_append_left _ ha)
      · exact List.mem_append_right _ (ih hpart)

namespace Path

/-- The names of a path are parts of what was written. -/
theorem oneLine_of_mem_namesOf (h : OneLine s) {name : String}
    (hname : name ∈ namesOf s) : OneLine name := by
  obtain ⟨part, hpart, rfl⟩ := List.mem_map.1 (List.mem_filter.1 hname).1
  unfold OneLine
  rw [String.toList_ofList]
  intro hbreak
  have hjoin : ['/'].intercalate (s.toList.splitOn '/') = s.toList :=
    List.intercalate_splitOn '/'
  refine h ?_
  rw [← hjoin]
  exact mem_intercalate hpart hbreak

/-- The path of files with such names stands on one line. -/
theorem oneLine_text {p : Path} (h : ∀ name ∈ p.names, OneLine name) :
    OneLine p.text := by
  unfold text
  split
  · exact .literal rfl
  · refine .append ?_ (.intercalate (.literal rfl) h)
    cases p.anchor <;> exact .literal rfl

end Path

/-! ### The rows of a compact report -/

/-- Lists that are put together from one piece for each element are as long as
the list of elements iff every piece is a single one. -/
theorem length_flatMap_eq {α β : Type} {f : α → List β} {xs : List α}
    (h : ∀ x ∈ xs, 1 ≤ (f x).length) :
    xs.length ≤ (xs.flatMap f).length ∧
      ((xs.flatMap f).length = xs.length ↔ ∀ x ∈ xs, (f x).length = 1) := by
  induction xs with
  | nil => simp
  | cons x xs ih =>
    obtain ⟨hx, hxs⟩ := List.forall_mem_cons.1 h
    obtain ⟨hle, hiff⟩ := ih hxs
    rw [List.flatMap_cons, List.length_append, List.length_cons,
      List.forall_mem_cons]
    refine ⟨by omega, fun heq => ⟨by omega, hiff.1 (by omega)⟩, fun hall => ?_⟩
    have := hiff.2 hall.2
    omega

/-- A text has one row iff it stands on one line. -/
theorem length_textRows_eq_one : (textRows s).length = 1 ↔ OneLine s := by
  rw [length_textRows, OneLine, ← List.count_eq_zero]
  omega

theorem textRows_of_oneLine (h : OneLine s) : textRows s = [s.toList] :=
  List.splitOn_eq_singleton h

/-- Texts joined by line feeds have the rows of all of them, one after
another. -/
theorem textRows_intercalate {texts : List String} (h : texts ≠ []) :
    textRows ("\n".intercalate texts) = texts.flatMap textRows := by
  induction texts with
  | nil => exact absurd rfl h
  | cons s texts ih =>
    by_cases hnil : texts = []
    · subst hnil
      rw [String.intercalate_singleton, List.flatMap_singleton]
    · have hbreak : "\n".toList = ['\n'] := by decide
      rw [List.flatMap_cons, ← ih hnil]
      unfold textRows
      rw [String.intercalate_cons_of_ne_nil hnil, String.toList_append,
        String.toList_append, hbreak, List.append_assoc, List.singleton_append,
        List.splitOn_append_cons_self]

namespace Report

/-- A path is shown on one line if it is given on one. -/
theorem oneLine_shownPath (root : Option Path) (h : OneLine s) :
    OneLine (shownPath root s) := by
  unfold shownPath
  split
  · next p hp =>
    obtain ⟨r, -, hp⟩ := Option.bind_eq_some_iff.1 hp
    unfold Path.relativeTo? at hp
    split at hp
    · cases hp
      refine Path.oneLine_text fun name hname =>
        Path.oneLine_of_mem_namesOf h ?_
      exact List.mem_of_mem_drop hname
    · cases hp
  · exact h

/-- The rows of a compact report are the rows of its lines, one line after
another. -/
theorem rows_compact {r : Report} (h : r.findings ≠ []) :
    textRows (compact r) = r.findings.flatMap fun x =>
      textRows (compactLine r.root x) := by
  unfold compact
  rw [textRows_intercalate (by simpa using h), List.flatMap_map]

/-- If every line stands on one line, the rows are the lines. -/
theorem rows_compact_of_oneLine {r : Report} (h : r.findings ≠ [])
    (hlines : ∀ x ∈ r.findings, OneLine (compactLine r.root x)) :
    textRows (compact r) = r.findings.map fun x =>
      (compactLine r.root x).toList := by
  rw [rows_compact h, ← List.flatMap_singleton' (r.findings.map _),
    List.flatMap_map]
  exact List.flatMap_congr fun x hx => textRows_of_oneLine (hlines x hx)

/-- Every line has a row of its own, and a line that breaks has more. -/
theorem length_rows_compact {r : Report} (h : r.findings ≠ []) :
    (textRows (compact r)).length = r.findings.length ↔
      ∀ x ∈ r.findings, OneLine (compactLine r.root x) := by
  rw [rows_compact h, (length_flatMap_eq fun x _ => ?_).2]
  · simp only [length_textRows_eq_one]
  · rw [length_textRows]
    omega

end Report

end RenderLoop
