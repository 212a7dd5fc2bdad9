import RenderLoop.Project.Exports
import RenderLoop.Proofs.SearchOrder

/-!
# Where an exported name comes from

A file offers a function of its own under a name, passes a name on from
another file, or passes on whatever another file offers. So a name in a file
leads from symbol to symbol, possibly in circles, to the functions that may
stand behind it (`ExportTable.Leads`, `ExportTable.Offers`).

> `definition?_exact`: the search ends, what it finds is a function that the
> name leads to, and it finds none only if the name leads to none.

Of several functions the order of the ways on decides:

> `definition?_prefers_stars`: a name that a file passes on by itself is only
> looked for if nothing is found in the files that it passes on as a whole.

The search is an instance of the general one over a finite space, whose steps
are those of `ExportTable.PassedOn`; that the space is finite and closed is a
count of the files and names that are passed on at all (`length_domain`). So
being exact is inherited, and only the order of the ways on needs an argument
of its own: a search equals the search of its first step, with the symbol it
began with left out (`definition?_eq_or`). Leaving it out is harmless, since
the way back to it would only repeat what has been tried.
-/

namespace RenderLoop

namespace ExportTable

open Relation (ReflTransGen)

variable {t : ExportTable} {s u v d : Symbol}

/-- The file of a symbol takes the name from another file. -/
inductive PassedOn (t : ExportTable) (s : Symbol) : Symbol → Prop where
  /-- The name is passed on, under this name or another. -/
  | named (u : Symbol)
      (h : (fileExports t s.file).reexports.get? s.name = some u) :
      PassedOn t s u
  /-- All that a file offers is passed on. -/
  | star (file : String) (h : file ∈ (fileExports t s.file).stars) :
      PassedOn t s ⟨file, s.name⟩

/-- A symbol leads to another one, in any number of steps. -/
def Leads (t : ExportTable) : Symbol → Symbol → Prop :=
  ReflTransGen (PassedOn t)

/-- The file of a symbol offers a function of its own under the name. -/
structure Offers (t : ExportTable) (s d : Symbol) : Prop where
  exported : (fileExports t s.file).exports.get? s.name = some d.name
  isFunction : d.name ∈ (fileExports t s.file).functions
  file : d.file = s.file

/-- A function of its own is what the file offers under the name. -/
theorem own?_eq_some_iff : own? t s = some d ↔ Offers t s d := by
  unfold own?
  constructor
  · intro h
    simp only at h
    split at h
    · next name hname =>
      split at h
      · next hfn =>
        cases h
        exact ⟨hname, List.contains_iff_mem.1 hfn, rfl⟩
      · cases h
    · cases h
  · rintro ⟨hname, hfn, hfile⟩
    obtain ⟨file, name⟩ := d
    cases hfile
    simp [hname, hfn]

/-- The ways on from a symbol are those by which its file takes the name from
elsewhere. -/
theorem mem_sources_iff : u ∈ sources t s ↔ PassedOn t s u := by
  unfold sources
  rw [List.mem_append]
  constructor
  · rintro (h | h)
    · obtain ⟨file, hfile, rfl⟩ := List.mem_map.1 h
      exact .star file (List.mem_reverse.1 hfile)
    · exact .named u (Option.mem_toList.1 h)
  · rintro (⟨_, h⟩ | ⟨file, h⟩)
    · exact .inr (Option.mem_toList.2 h)
    · exact .inl (List.mem_map.2 ⟨file, List.mem_reverse.2 h, rfl⟩)

/-- So a step of the search is a step from symbol to symbol. -/
theorem step_space : (space t s).Step = PassedOn t := by
  funext a b
  exact propext mem_sources_iff

/-- The search stays among the files and names that are passed on, and those
it begins with. -/
theorem length_domain (t : ExportTable) (s : Symbol) :
    (domain t s).length = ((passedFiles t).length + 1) *
      ((passedNames t).length + 1) := by
  unfold domain
  simp only [List.length_flatMap, List.length_map, List.map_const',
    List.sum_replicate_nat, List.length_cons]

/-! ### What is found -/

/-- A search for a function that visits what a relation leads to. -/
theorem find?_own?_exact {space : Space Symbol} {reach : Symbol → Prop}
    (hreach : ∀ u, (∃ a ∈ space.start, ReflTransGen space.Step a u) ↔ reach u) :
    (∀ d, space.find? (own? t) = some d → ∃ u, reach u ∧ Offers t u d) ∧
      (space.find? (own? t) = none ↔ ¬ ∃ u d, reach u ∧ Offers t u d) := by
  constructor
  · intro d hd
    obtain ⟨a, ha, u, hu, hd⟩ := Space.exists_of_find?_eq_some hd
    exact ⟨u, (hreach u).1 ⟨a, ha, hu⟩, own?_eq_some_iff.1 hd⟩
  · rw [Space.find?_eq_none_iff]
    constructor
    · rintro hnone ⟨u, d, hu, hd⟩
      obtain ⟨a, ha, hu⟩ := (hreach u).2 hu
      have hfree := hnone a ha u hu
      rw [own?_eq_some_iff.2 hd] at hfree
      cases hfree
    · intro hnone a ha u hu
      by_contra hd
      obtain ⟨d, hd⟩ := Option.ne_none_iff_exists'.1 hd
      exact hnone ⟨u, d, (hreach u).1 ⟨a, ha, hu⟩, own?_eq_some_iff.1 hd⟩

/-- The search visits each symbol at most once, and no more symbols than there
are pairs of a file and a name. What it finds is offered by a symbol that the
given one leads to, and nothing is found only if no such symbol offers
anything. -/
theorem definition?_exact (t : ExportTable) (s : Symbol) :
    ((space t s).visit.Nodup ∧
      (space t s).visit.length ≤ ((passedFiles t).length + 1) *
        ((passedNames t).length + 1)) ∧
    (∀ d, definition? t s = some d → ∃ u, Leads t s u ∧ Offers t u d) ∧
    (definition? t s = none ↔ ¬ ∃ u d, Leads t s u ∧ Offers t u d) := by
  refine ⟨⟨Space.nodup_visit _, ?_⟩, find?_own?_exact fun u => ?_⟩
  · rw [← length_domain t s]
    exact Space.length_visit_le _
      (fun a ha => List.mem_singleton.1 ha ▸ mem_domain_self t s)
      fun a ha b hb => mem_domain_of_mem_sources ha hb
  · rw [step_space]
    constructor
    · rintro ⟨a, ha, hreach⟩
      obtain rfl := List.mem_singleton.1 ha
      exact hreach
    · intro hreach
      exact ⟨s, List.mem_cons_self, hreach⟩

/-- Two files pass each other on as a whole. One of them has a function, which
the other also passes on under another name. -/
def circle : ExportTable :=
  [("index", { reexports := [("save", ⟨"store", "put"⟩)], stars := ["store"] }),
    ("store", { functions := ["put"], exports := [("put", "put")], stars :=
      ["index"] })]

/-- A circle of files: the search ends, with a function and without. -/
theorem definition?_circle :
    definition? circle ⟨"index", "save"⟩ = some ⟨"store", "put"⟩ ∧
    (∃ u, Leads circle ⟨"index", "save"⟩ u ∧ Offers circle u ⟨"store", "put"⟩) ∧
    definition? circle ⟨"index", "load"⟩ = none ∧
    ¬ ∃ u d, Leads circle ⟨"index", "load"⟩ u ∧ Offers circle u d := by
  have hsave : definition? circle ⟨"index", "save"⟩ =
      some ⟨"store", "put"⟩ := by
    simp [circle, own?, fileExports, sources, Table.get?, definition?,
      Space.visit, Space.visitFrom, space]
  have hload : definition? circle ⟨"index", "load"⟩ = none := by
    simp [circle, own?, fileExports, sources, Table.get?, definition?,
      Space.visit, Space.visitFrom, space]
  exact ⟨hsave, (definition?_exact circle _).2.1 _ hsave, hload,
    (definition?_exact circle _).2.2.1 hload⟩

/-! ### What is found first -/

/-- The function behind a symbol, as far as it can be found without another
one. -/
def definitionBeside? (t : ExportTable) (s u : Symbol) : Option Symbol :=
  ((space t u).without s).find? (own? t)

/-- A symbol leads to another one on a way that a third one is not part of. -/
def LeadsBeside (t : ExportTable) (s u v : Symbol) : Prop :=
  u ≠ s ∧ ReflTransGen (fun a b => PassedOn t a b ∧ b ≠ s) u v

theorem step_without :
    ((space t u).without s).Step = fun a b => PassedOn t a b ∧ b ≠ s := by
  funext a b
  unfold Space.Step Space.without
  simp only [List.mem_filter, decide_eq_true_eq]
  exact propext (and_congr_left' mem_sources_iff)

/-- What is found beside a symbol is what can be reached without passing
through it. -/
theorem definitionBeside?_exact (t : ExportTable) (s u : Symbol) :
    (∀ d, definitionBeside? t s u = some d → ∃ v, LeadsBeside t s u v ∧
      Offers t v d) ∧ (definitionBeside? t s u = none ↔
      ¬ ∃ v d, LeadsBeside t s u v ∧ Offers t v d) := by
  refine find?_own?_exact fun v => ?_
  rw [step_without]
  constructor
  · rintro ⟨a, ha, hreach⟩
    obtain ⟨ha, hne⟩ := List.mem_filter.1 ha
    obtain rfl := List.mem_singleton.1 ha
    exact ⟨by simpa using hne, hreach⟩
  · rintro ⟨hne, hreach⟩
    exact ⟨u, List.mem_filter.2 ⟨List.mem_cons_self, by simpa using hne⟩,
      hreach⟩

/-- One step of the search: the file's own function, or else the first that
one of the ways on leads to. -/
theorem definition?_eq_or (t : ExportTable) (s : Symbol) :
    definition? t s = (own? t s).or
      ((sources t s).findSome? (definitionBeside? t s)) :=
  Space.find?_eq_or (r := space t) (fun _ => rfl) (fun _ => rfl) s

/-- A file that offers no function of its own under a name, but passes the
name on, lets the files that it passes on as a whole come first, the last of
them before all others. What a file leads to counts unless the way comes back
to the name itself. -/
theorem definition?_prefers_stars (hown : own? t s = none)
    (hnamed : (fileExports t s.file).reexports.get? s.name = some u) :
    definition? t s =
      ((fileExports t s.file).stars.reverse.findSome? fun file =>
        definitionBeside? t s ⟨file, s.name⟩).or (definition? t u) ∧
    ∀ v, (∀ d, definitionBeside? t s v = some d → ∃ w, LeadsBeside t s v w ∧
      Offers t w d) ∧ (definitionBeside? t s v = none ↔
      ¬ ∃ w d, LeadsBeside t s v w ∧ Offers t w d) := by
  refine ⟨?_, definitionBeside?_exact t s⟩
  have hways : definition? t s =
      ((fileExports t s.file).stars.reverse.findSome? fun file =>
        definitionBeside? t s ⟨file, s.name⟩).or (definitionBeside? t s u) := by
    rw [definition?_eq_or, hown, Option.none_or, sources, List.findSome?_append,
      List.findSome?_map, hnamed]
    cases hu : definitionBeside? t s u <;> simp [hu, Function.comp_def]
  cases hstars : (fileExports t s.file).stars.reverse.findSome? fun file =>
      definitionBeside? t s ⟨file, s.name⟩ with
  | some d => rw [hways, hstars, Option.some_or, Option.some_or]
  | none =>
    rw [Option.none_or]
    by_cases hu : u = s
    · rw [hu]
    · rw [hways, hstars, Option.none_or]
      -- of the ways out of the symbol only this one is left
      refine Space.find?_without (r := space t) (fun _ => rfl) (fun _ => rfl) hu
        hown fun v hv hne => ?_
      rcases mem_sources_iff.1 hv with ⟨_, h⟩ | ⟨file, h⟩
      · exact absurd (Option.some.inj (h.symm.trans hnamed)) hne
      · exact List.findSome?_eq_none_iff.1 hstars file (List.mem_reverse.2 h)

/-- The file that is passed on as a whole only leads back, so the name that is
passed on counts. -/
theorem definition?_circle_named : own? circle ⟨"index", "save"⟩ = none ∧
    (fileExports circle "index").reexports.get? "save" = some ⟨"store", "put"⟩ ∧
    definitionBeside? circle ⟨"index", "save"⟩ ⟨"store", "save"⟩ = none ∧
    definition? circle ⟨"index", "save"⟩ =
      definition? circle ⟨"store", "put"⟩ := by
  have hown : own? circle ⟨"index", "save"⟩ = none := rfl
  have hnamed : (fileExports circle "index").reexports.get? "save" =
    some ⟨"store", "put"⟩ := rfl
  have hstar : definitionBeside? circle ⟨"index", "save"⟩ ⟨"store", "save"⟩ =
      none := by
    simp [circle, own?, fileExports, sources, Table.get?, definitionBeside?,
      Space.find?, Space.visit, Space.without, Space.visitFrom, space]
  refine ⟨hown, hnamed, hstar,
    (definition?_prefers_stars hown hnamed).1.trans ?_⟩
  show (List.findSome? _ ["store"]).or _ = _
  rw [List.findSome?_cons, hstar]
  rfl

/-- Two files with a function of the same name. A third one passes on that of
the first by name and the second as a whole. -/
def rivals : ExportTable :=
  [("index", { reexports := [("save", ⟨"a", "save"⟩)], stars := ["b"] }),
    ("a", { functions := ["save"], exports := [("save", "save")] }),
    ("b", { functions := ["save"], exports := [("save", "save")] })]

/-- The function that is passed on by name is found from where it comes from,
but not from where it is passed on. -/
theorem definition?_overlooks_named : own? rivals ⟨"index", "save"⟩ = none ∧
    (fileExports rivals "index").reexports.get? "save" = some ⟨"a", "save"⟩ ∧
    definition? rivals ⟨"a", "save"⟩ = some ⟨"a", "save"⟩ ∧
    definition? rivals ⟨"index", "save"⟩ = some ⟨"b", "save"⟩ := by
  refine ⟨rfl, rfl, ?_, ?_⟩
  · rw [definition?_eq_or]
    rfl
  · have hstar : definitionBeside? rivals ⟨"index", "save"⟩ ⟨"b", "save"⟩ =
        some ⟨"b", "save"⟩ :=
      Space.find?_without_of_some (r := space rivals) (fun _ => rfl)
        (fun _ => rfl) (by decide) rfl
    rw [definition?_eq_or]
    show (List.findSome? _ ((⟨"b", "save"⟩ : Symbol) :: _)) = _
    rw [List.findSome?_cons, hstar]

end ExportTable

end RenderLoop
