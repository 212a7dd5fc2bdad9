import RenderLoop.Proofs.Explanations
import RenderLoop.Proofs.Isolation
import RenderLoop.Proofs.Sketch
import Mathlib.Data.List.Forall2

/-!
# The lines of a compact report

A compact report has a line for each finding, which begins with the place and
the code of the finding and ends with its explanation. Nothing else on the
line can break it, so a line is broken iff the finding repeats a broken
excerpt.

> `compact_shows_findings`: the rows of the report on a file come in blocks,
> one for each finding and in their order. A block begins with the place and
> the code of its finding, and has no other row iff the excerpts that the
> finding repeats are unbroken. There are as many rows as findings iff that
> holds of all of them.

A key that calls a function with a line feed between the parentheses is enough
to get two rows for one finding (`compact_breaks_at_key`).

A row is what stands between two line feeds, so the rows of two texts joined
by a line feed are the rows of both (`textRows_append_of_oneLine`). Everything
on a line but the explanation is a number, a fixed text or the path of the
file: the code is one of a known list (`code_mem_known`), and the names of
levels are words. The explanation is left to the module on explanations.
-/

namespace RenderLoop

/-- A source file is its path, its text and the root of its tree. -/
theorem SourceFile.eq_of_ofTree {path text : String} {tree : Tree}
    {f : SourceFile} (h : ofTree path text tree = .ok f) :
    f = ⟨path, text, .ofRoot tree⟩ := by
  unfold ofTree at h
  simp only at h
  split at h
  · cases h
  · cases h
    rfl

/-! ### Codes -/

/-- The codes are written without line breaks. -/
theorem Code.oneLine_text {c : Code} (h : c ∈ known) : OneLine c.text := by
  cases c with
  | other written => simp [known] at h
  | _ => exact .literal (by decide)

namespace Check

variable {ctx : Context} {file : String} {facts : Facts} {h : Hook}
  {i : Interaction} {x : Finding}

/-- Reporting a finding does not change its code. -/
theorem code_report_mem_known {y : Finding} {doubts : List Doubt} {c : Code}
    (hy : y.code = c) (hc : c ∈ Code.known) :
    (ctx.report y doubts).code ∈ Code.known := by
  rw [Context.code_report, hy]
  exact hc

theorem ite_mem_known {p : Prop} [Decidable p] {c d : Code}
    (hc : c ∈ Code.known) (hd : d ∈ Code.known) :
    (if p then c else d) ∈ Code.known := by
  split
  · exact hc
  · exact hd

theorem loopCode_mem_known (h : Hook) : loopCode h ∈ Code.known :=
  ite_mem_known (by decide) (by decide)

/-- A verdict about a listed state carries a known code. -/
theorem code_mem_known_of_dependencyVerdict {state setter : String}
    (hx : dependencyVerdict ctx h file i state setter = some x) :
    x.code ∈ Code.known := by
  rcases cases_of_dependencyVerdict hx with ⟨-, rfl⟩ | ⟨-, guard, rfl⟩ |
    ⟨-, why, rfl⟩
  · exact code_report_mem_known rfl
      (ite_mem_known (by decide) (loopCode_mem_known h))
  · unfold unsafeFinding
    simp only
    split
    · exact code_report_mem_known (c := .spreadGuard) rfl (by decide)
    · exact code_report_mem_known rfl (ite_mem_known (by decide) (by decide))
  · exact code_report_mem_known rfl (loopCode_mem_known h)

/-- So does everything that is found on a hook. -/
theorem code_mem_known_of_hookFindings
    (hx : x ∈ hookFindings ctx file facts h i) : x.code ∈ Code.known := by
  cases foundOnHook hx with
  | withoutArray _ _ hx =>
    unfold effectWithoutDeps at hx
    simp only at hx
    split at hx
    · rw [List.mem_singleton.1 hx]
      exact code_report_mem_known (c := .effectWithoutDeps) rfl (by decide)
    · split at hx
      · cases hx
      · rw [List.mem_singleton.1 hx]
        exact code_report_mem_known (c := .effectWithoutDeps) rfl (by decide)
  | unstable _ v _ hx =>
    have hcode : unstableCode h v ∈ Code.known := by
      unfold unstableCode
      split
      · decide
      · cases v.kind <;> decide
    rw [hx]
    unfold unstableFinding
    simp only
    split <;> exact code_report_mem_known rfl hcode
  | dependency _ _ _ _ _ _ hx => exact code_mem_known_of_dependencyVerdict hx
  | memo _ hx =>
    rcases cases_of_mem_memoHook hx with rfl | ⟨state, setter, -, rfl⟩
    · exact code_report_mem_known (c := .missingDeps) rfl (by decide)
    · exact code_report_mem_known (c := .memoSelfUpdate) rfl (by decide)

/-- And everything that is found while rendering. -/
theorem code_mem_known_of_renderNode {input : RenderInput} {fn n : Node}
    {component : Component} (hx : x ∈ renderNode input fn component n) :
    x.code ∈ Code.known := by
  rcases cases_of_mem_renderNode hx with ⟨u, -, guard, rfl⟩ | hx
  · obtain ⟨y, doubts, heq, -, -, hcode, -⟩ :=
      exists_renderFinding_eq input.ctx input.file input.facts u guard
    rw [heq]
    exact code_report_mem_known hcode (ite_mem_known (by decide) (by decide))
  · unfold refWriteFinding? at hx
    split at hx
    · cases hx
    · split at hx
      · cases hx
        exact code_report_mem_known (c := .refWrite) rfl (by decide)
      · cases hx

/-- The checks report under known codes only. -/
theorem code_mem_known {f : SourceFile} {imported : String → Option SetterTaker}
    (hx : x ∈ (allFindings ctx f imported).findings) : x.code ∈ Code.known := by
  cases foundInFile hx with
  | render _ _ _ _ hx =>
    obtain ⟨fn, -, component, -, n, -, hx⟩ := exists_renderNode hx
    exact code_mem_known_of_renderNode hx
  | hook _ _ _ _ _ _ _ _ hx => exact code_mem_known_of_hookFindings hx
  | props _ _ hx =>
    obtain ⟨element, -, prop, value, what, isProvider, -, -, rfl⟩ :=
      exists_propFinding hx
    exact code_report_mem_known rfl (ite_mem_known (by decide) (by decide))
  | snapshots hx =>
    obtain ⟨call, -, snapshot, rfl⟩ := exists_snapshotFinding hx
    exact code_report_mem_known (c := .freshSnapshot) rfl (by decide)
  | keys hx =>
    obtain ⟨element, -, value, index, verdict, -, -, rfl⟩ :=
      exists_keyFinding hx
    exact code_report_mem_known rfl (ite_mem_known (by decide) (by decide))

end Check

/-! ### Lines -/

theorem Level.oneLine_name (l : Level) : OneLine l.name := by
  cases l <;> exact .literal (by decide)

/-- What stands in front on one line stands in front of the first row. -/
theorem textRows_append_of_oneLine {s : String} (h : OneLine s) (t : String) :
    textRows (s ++ t) = (textRows t).modifyHead (s.toList ++ ·) := by
  have hsplit : ∀ {front : List Char}, '\n' ∉ front →
      (front ++ t.toList).splitOn '\n' = (t.toList.splitOn '\n').modifyHead
      (front ++ ·) := by
    intro front hfront
    induction front with
    | nil => exact (congrFun List.modifyHead_id _).symm
    | cons c cs ih =>
      obtain ⟨hc, hcs⟩ := not_or.1 fun hmem => hfront (List.mem_cons.2 hmem)
      rw [List.cons_append, List.splitOn_cons_eq_if_modifyHead, ih hcs,
        if_neg (by simpa using ne_comm.1 hc), List.modifyHead_modifyHead]
      rfl
  unfold textRows
  rw [String.toList_append]
  exact hsplit h

namespace Report

variable {root : Option Path} {x : Finding}

/-- The place and the code of a finding, which its line begins with. -/
def heading (root : Option Path) (x : Finding) : String :=
  shownPath root x.file ++ ":" ++ toString x.line ++ ":" ++
    toString x.humanColumn ++ ": " ++ x.code.text

/-- The compact line is the heading, the severity and the explanation. -/
theorem compactLine_eq (root : Option Path) (x : Finding) :
    compactLine root x = heading root x ++
      (" " ++ x.severity.name ++ " " ++ x.explanation) := by
  unfold compactLine heading
  simp only [String.append_assoc]

/-- The heading of a finding is one line when the path of its file is. -/
theorem oneLine_heading (hfile : OneLine x.file) (hcode : x.code ∈ Code.known) :
    OneLine (heading root x) := by
  unfold heading
  simp only [oneLine_append]
  refine ⟨⟨⟨⟨⟨⟨oneLine_shownPath root hfile, ?_⟩, oneLine_toString_int _⟩, ?_⟩,
    oneLine_toString_int _⟩, ?_⟩, Code.oneLine_text hcode⟩ <;>
    exact .literal (by decide)

/-- Only the explanation can break the line of a finding. -/
theorem oneLine_compactLine (hfile : OneLine x.file)
    (hcode : x.code ∈ Code.known) :
    OneLine (compactLine root x) ↔ OneLine x.explanation := by
  rw [compactLine_eq]
  simp only [oneLine_append]
  refine ⟨fun h => h.2.2,
    fun h => ⟨oneLine_heading hfile hcode,
    ⟨⟨?_, x.severity.oneLine_name⟩, ?_⟩, h⟩⟩ <;>
    exact .literal (by decide)

end Report

namespace Check

variable {ctx : Context} {f : SourceFile}
  {imported : String → Option SetterTaker} {x : Finding}

/-- Some rows show a finding on a file: they begin with its place and its
code, and there is just one of them iff the excerpts that the finding repeats
are unbroken. -/
structure ShownBy (ctx : Context) (f : SourceFile)
    (imported : String → Option SetterTaker) (root : Option Path)
    (block : List (List Char)) (x : Finding) : Prop where
  opens : ∃ first rest, block = first :: rest ∧
    (Report.heading root x).toList <+: first
  single_iff : block.length = 1 ↔ ∀ s, Quotes ctx f imported x s → OneLine s

section

variable (hpath : OneLine f.path) (hwords : f.root.WordsUnbroken)
  (htop : f.root.above = []) (hx : x ∈ (file ctx f imported).findings)

include hpath hwords htop hx

/-- The only thing that can break a compact line is a text the finding quotes
from the source. -/
theorem oneLine_compactLine_iff (root : Option Path) :
    OneLine (Report.compactLine root x) ↔
      ∀ s, Quotes ctx f imported x s → OneLine s := by
  have hx := (List.mem_filter.1 hx).1
  obtain ⟨n, -, hstands⟩ := exists_standsAt hx
  rw [Report.oneLine_compactLine (hstands.file ▸ hpath) (code_mem_known hx),
    oneLine_explanation_iff hwords htop hx]

/-- The rows of a finding's line show the finding. -/
theorem shownBy_compactLine (root : Option Path) :
    ShownBy ctx f imported root (textRows (Report.compactLine root x)) x := by
  refine ⟨?_, ?_⟩
  · have hx := (List.mem_filter.1 hx).1
    obtain ⟨n, -, hstands⟩ := exists_standsAt hx
    have hheading : OneLine (Report.heading root x) :=
      Report.oneLine_heading (hstands.file ▸ hpath) (code_mem_known hx)
    rw [Report.compactLine_eq, textRows_append_of_oneLine hheading]
    obtain ⟨first, rest, hrows⟩ :=
      List.exists_cons_of_ne_nil (List.splitOn_ne_nil '\n'
        (" " ++ x.severity.name ++ " " ++ x.explanation).toList)
    unfold textRows
    rw [hrows]
    exact ⟨_, rest, rfl, List.prefix_append _ _⟩
  · rw [length_textRows_eq_one, oneLine_compactLine_iff hpath hwords htop hx]

end

/-- The compact report on a parsed file shows its findings one below the
other, each on a row of its own iff none of them repeats a broken excerpt. -/
theorem compact_shows_findings (ctx : Context)
    (imported : String → Option SetterTaker) {path text : String}
    {tree : Tree} {f : SourceFile}
    (hf : SourceFile.ofTree path text tree = .ok f) (hpath : OneLine path)
    (hwords : (Node.ofRoot tree).WordsUnbroken) {r : Report}
    (hr : r.findings = (file ctx f imported).findings) :
    (r.findings = [] → Report.compact r = "") ∧
    (r.findings ≠ [] →
      (∃ blocks, textRows (Report.compact r) = blocks.flatten ∧
        List.Forall₂ (ShownBy ctx f imported r.root) blocks r.findings) ∧
      ((textRows (Report.compact r)).length = r.findings.length ↔
        ∀ x ∈ r.findings, ∀ s, Quotes ctx f imported x s → OneLine s) ∧
      ((∀ x ∈ r.findings, ∀ s, Quotes ctx f imported x s → OneLine s) →
        List.Forall₂ (fun row x => (Report.heading r.root x).toList <+: row)
          (textRows (Report.compact r)) r.findings)) := by
  obtain rfl := SourceFile.eq_of_ofTree hf
  have hline (x : Finding) (hx : x ∈ r.findings) :
      OneLine (Report.compactLine r.root x) ↔
      ∀ s, Quotes ctx ⟨path, text, .ofRoot tree⟩ imported x s → OneLine s :=
    oneLine_compactLine_iff hpath hwords rfl (hr ▸ hx) r.root
  refine ⟨fun hnone => ?_, fun hsome => ⟨?_, ?_, fun hall => ?_⟩⟩
  · unfold Report.compact
    rw [hnone]
    rfl
  -- a block is what the line of its finding is split into
  · refine ⟨r.findings.map fun x => textRows (Report.compactLine r.root x), ?_,
      ?_⟩
    · rw [Report.rows_compact hsome, List.flatMap_def]
    · rw [List.forall₂_map_left_iff, List.forall₂_same]
      exact fun x hx => shownBy_compactLine hpath hwords rfl (hr ▸ hx) r.root
  · rw [Report.length_rows_compact hsome]
    exact forall₂_congr hline
  · rw [Report.rows_compact_of_oneLine hsome fun x hx =>
      (hline x hx).2 (hall x hx), List.forall₂_map_left_iff, List.forall₂_same]
    intro x _
    rw [Report.compactLine_eq, String.toList_append]
    exact List.prefix_append _ _

/-- A check that ends reports all the findings about keys. -/
theorem mem_findings_of_unstableKeys
    (hdone : (allFindings ctx f imported).failed = false)
    (hx : x ∈ unstableKeys ctx f.path f.root) :
    x ∈ (allFindings ctx f imported).findings := by
  have hends := ends_allFindings ctx f imported
  generalize allFindings ctx f imported = found at hends hdone ⊢
  cases hends with
  | complete _ _ => exact List.mem_append_right _ hx
  | withoutFacts => cases hdone
  | withoutHelpers => cases hdone
  | atHook => cases hdone

/-! ### A key with a line feed in it -/

open Sketch in
/-- An element whose key is made by a call of `uuid`, with the given text for
the arguments. -/
def keyedItem (arguments : String) : Sketch :=
  run (phrase .jsxSelfClosing true none [between "<", as .name (name "li"),
    between " ", phrase .jsxAttribute true none
    [phrase (.other "property_identifier") true none [between "key"],
      between "=", phrase .jsxExpression true none [between "\x7b",
        phrase .call true none [as .function (name "uuid"),
          phrase .arguments true (some .arguments) [between arguments]],
            between "\x7d"]],
    between "/>"])

/-- Two such elements, the second with a line feed between the parentheses. -/
def listing : SourceFile :=
  Sketch.file "List.tsx" [keyedItem "()", keyedItem "(\n)"]

namespace listing

def report : Report :=
  { findings := (file .usual listing fun _ => none).findings }

/-- The second element. -/
def element : Node := listing.root.at [1, 0]

/-- The key of the second element. -/
def key : Node := element.at [1, 1, 0]

theorem parsed : SourceFile.ofTree "List.tsx" listing.text listing.root.tree =
    .ok listing := by
  have hsound : (listing.root.walk.find? (·.isFault)).isNone = true := by
    decide +kernel
  have hsound : (Node.ofRoot listing.root.tree).walk.find? (·.isFault) = none :=
    Option.isNone_iff_eq_none.1 hsound
  unfold SourceFile.ofTree
  simp only [hsound]
  rfl

theorem wordsUnbroken : listing.root.WordsUnbroken := by decide +kernel

theorem classify?_key (random : List String) (index : Option String) :
    Keys.classify? random index key = some (.randomCall key.text) := by
  unfold Keys.classify?
  rw [Keys.verdicts_eq]
  rfl

/-- The listing's key is a call of `Math.random`, and that is reported. -/
theorem keyFinding_mem :
    keyFinding .usual listing.path key (.randomCall key.text) ∈
      report.findings := by
  have hdone : (allFindings .usual listing fun _ => none).failed = false := by
    decide +kernel
  refine List.mem_filter.2
    ⟨mem_findings_of_unstableKeys hdone ?_, by decide +kernel⟩
  refine List.mem_flatMap.2 ⟨element,
    List.mem_filter.2 ⟨listing.root.at_mem_walk _, rfl⟩, ?_⟩
  refine List.mem_filterMap.2 ⟨("key", some key),
    List.mem_of_getElem? (i := 0) rfl, ?_⟩
  simp only [classify?_key]
  rfl

end listing

theorem compact_shows_listing :
    SourceFile.ofTree "List.tsx" listing.text listing.root.tree = .ok listing ∧
      OneLine "List.tsx" ∧ (Node.ofRoot listing.root.tree).WordsUnbroken ∧
      listing.report.findings.length = 2 ∧
      ∃ blocks, textRows (Report.compact listing.report) = blocks.flatten ∧
        List.Forall₂ (ShownBy .usual listing (fun _ => none) none) blocks
          listing.report.findings := by
  have hpath : OneLine "List.tsx" := .literal (by decide)
  have htwo : listing.report.findings.length = 2 := by decide +kernel
  obtain ⟨-, hshown⟩ :=
    compact_shows_findings .usual (fun _ => none) listing.parsed hpath
    listing.wordsUnbroken (r := listing.report) rfl
  exact ⟨listing.parsed, hpath, listing.wordsUnbroken, htwo,
    (hshown (by rintro h; simp [h] at htwo)).1⟩

/-- There are two findings, but not two rows. -/
theorem compact_breaks_at_key :
    SourceFile.ofTree "List.tsx" listing.text listing.root.tree = .ok listing ∧
      OneLine "List.tsx" ∧ listing.report.findings =
      (file .usual listing fun _ => none).findings ∧
      listing.report.findings.length = 2 ∧
        (textRows (Report.compact listing.report)).length ≠ 2 := by
  have hpath : OneLine "List.tsx" := .literal (by decide)
  have htwo : listing.report.findings.length = 2 := by decide +kernel
  refine ⟨listing.parsed, hpath, rfl, htwo, fun hrows => ?_⟩
  have hmem := listing.keyFinding_mem
  have hlines := (Report.length_rows_compact (List.ne_nil_of_mem hmem)).1
    (hrows.trans htwo.symm) _ hmem
  have hcode := code_mem_known (List.mem_filter.1 hmem).1
  rw [Report.oneLine_compactLine hpath hcode, oneLine_keyFinding,
    oneLine_randomCall] at hlines
  exact absurd hlines (by decide +kernel)

end Check

end RenderLoop
