import RenderLoop.Project.Closure
import RenderLoop.Proofs.Cycles

/-!
# What the import closure takes in

A file is in reach if it is requested, or if it is a source that can be parsed
and that a file in reach imports. `Closure.expand` takes in files in reach and
nothing else, each once, and looks at the imports of all of them:

> `takeIn_spec`: what one file's imports add, and which paths have been tried
> afterwards.

> `Progress.step`, `Progress.grow`: what holds of the files taken in while
> there are files left to look at, so also at the end.

Until the limit is reached nothing is left out: the files taken in are then
exactly those in reach (`mem_expand`). The closure fails only at an import of
a file in reach (`fails_of_expand`).

The invariant says four things about the files taken in so far: all of them
are in reach, none is listed twice, the requested ones are among them, and
whatever a file that has been looked at imports has been tried. When nothing
is left to look at, the last of these says that no file in reach is missing,
as long as the limit has left room for all.
-/

namespace RenderLoop

namespace Closure

/-- The files that are requested, or imported from a file in reach. -/
inductive InReach (r : Resolve) (parse : Parse) (requested : SourceSet) :
    String → SourceFile → Prop
  | requested {file : String} {f : SourceFile} (h : (file, f) ∈ requested) :
    InReach r parse requested file f
  | imported {file : String} {f g : SourceFile} {i : Import} {p : Path}
      (hfile : InReach r parse requested file f) (hi : i ∈ f.imports)
      (hp : r file i.source = .ok (some p)) (hsource : isSource p = true)
      (hnew : p.text ∉ requested.names) (hparse : parse p.text = .ok g) :
    InReach r parse requested p.text g

/-- A file in reach is what its path is parsed to, unless it was requested. -/
theorem InReach.parsed {r : Resolve} {parse : Parse} {requested : SourceSet}
    {file : String} {f : SourceFile} (h : InReach r parse requested file f)
    (hnew : file ∉ requested.names) :
    parse file = .ok f := by
  cases h with
  | requested h => exact absurd (List.mem_map.2 ⟨_, h, rfl⟩) hnew
  | imported _ _ _ _ _ hparse => exact hparse

/-! ### The imports of one file -/

/-- What taking in the targets `found` with a limit `room` makes of a state:
the files `new` are added. -/
structure TakesIn (parse : Parse) (s : State) (room : Nat) (found : List Path)
    (s' : State) (new : SourceSet) : Prop where
  files : s'.files = s.files ++ new
  once : new.names.Nodup
  fresh : ∀ path ∈ new.names, path ∉ s.attempted
  parsed : ∀ path g, (path, g) ∈ new → parse path = .ok g
  attempted : ∀ path, path ∈ s'.attempted ↔
    path ∈ s.attempted ∨ ∃ target ∈ found, isSource target = true ∧
      target.text = path
  tried : ∀ path ∈ new.names, path ∈ s'.attempted
  /-- Below the limit only what cannot be parsed is left out. -/
  settled : new.length < room → ∀ path ∈ s'.attempted, path ∉ s.attempted →
    path ∉ new.names → ∀ g, parse path ≠ .ok g

section

variable {parse : Parse} {s s' : State} {room : Nat} {target : Path}
  {rest : List Path} {new : SourceSet}

theorem TakesIn.nil : TakesIn parse s room [] s [] where
  files := (List.append_nil _).symm
  once := .nil
  fresh _ h := absurd h List.not_mem_nil
  parsed _ _ h := absurd h List.not_mem_nil
  attempted := by simp
  tried _ h := absurd h List.not_mem_nil
  settled _ _ h hnew := absurd h hnew

/-- A target that was tried before, or is no source, is passed over. -/
theorem TakesIn.pass (h : TakesIn parse s room rest s' new)
    (hpass : target.text ∈ s.attempted ∨ isSource target = false) :
    TakesIn parse s room (target :: rest) s' new := by
  refine { h with attempted := fun path => ?_ }
  rw [h.attempted path]
  constructor
  · rintro (hpath | ⟨other, hother, hpath⟩)
    · exact .inl hpath
    · exact .inr ⟨other, List.mem_cons_of_mem _ hother, hpath⟩
  · rintro (hpath | ⟨other, hother, hsource, rfl⟩)
    · exact .inl hpath
    · rcases List.mem_cons.1 hother with rfl | hother
      · refine .inl (hpass.resolve_right ?_)
        simp [hsource]
      · exact .inr ⟨other, hother, hsource, rfl⟩

/-- The paths tried are those before, a source that is tried now, and the
rest. -/
theorem attempted_cons (hsource : isSource target = true) (path : String) :
    (path ∈ target.text :: s.attempted ∨ ∃ t ∈ rest, isSource t = true ∧
      t.text = path) ↔ path ∈ s.attempted ∨
      ∃ t ∈ target :: rest, isSource t = true ∧ t.text = path := by
  simp only [List.mem_cons, exists_eq_or_imp, hsource, true_and]
  rw [eq_comm (a := path), or_assoc, or_left_comm]

/-- A source that is tried without success. -/
theorem TakesIn.leave
    (h : TakesIn parse ⟨s.files, target.text :: s.attempted⟩ room rest s' new)
    (hsource : isSource target = true)
    (hleft : room = 0 ∨ ∀ g, parse target.text ≠ .ok g) :
    TakesIn parse s room (target :: rest) s' new where
  files := h.files
  once := h.once
  fresh path hpath :=
    fun hold => h.fresh path hpath (List.mem_cons_of_mem _ hold)
  parsed := h.parsed
  attempted path := (h.attempted path).trans (attempted_cons hsource path)
  tried := h.tried
  settled hroom path hpath hold hnew := by
    by_cases hself : path = target.text
    · subst hself
      exact hleft.resolve_left (by omega)
    · exact h.settled hroom path hpath (by simp [hself, hold]) hnew

/-- A source that is taken in. -/
theorem TakesIn.add {f : SourceFile}
    (h : TakesIn parse ⟨s.files ++ [(target.text, f)],
      target.text :: s.attempted⟩ room rest s' new)
    (hsource : isSource target = true) (hfresh : target.text ∉ s.attempted)
    (hparse : parse target.text = .ok f) :
    TakesIn parse s (room + 1)
      (target :: rest) s' ((target.text, f) :: new) where
  files := by
    rw [h.files, List.append_assoc]
    rfl
  once := List.nodup_cons.2
    ⟨fun hself => h.fresh _ hself List.mem_cons_self, h.once⟩
  fresh path hpath := by
    rcases List.mem_cons.1 hpath with rfl | hpath
    · exact hfresh
    · exact fun hold => h.fresh path hpath (List.mem_cons_of_mem _ hold)
  parsed path g hg := by
    rcases List.mem_cons.1 hg with heq | hg
    · cases heq
      exact hparse
    · exact h.parsed path g hg
  attempted path := (h.attempted path).trans (attempted_cons hsource path)
  tried path hpath := by
    rcases List.mem_cons.1 hpath with rfl | hpath
    · exact (h.attempted _).2 (.inl List.mem_cons_self)
    · exact h.tried path hpath
  settled hroom path hpath hold hnew := by
    obtain ⟨hself, hnew⟩ := not_or.1 (List.mem_cons.not.1 hnew)
    refine h.settled (Nat.lt_of_succ_lt_succ hroom) path hpath ?_ hnew
    exact List.mem_cons.not.2 (not_or.2 ⟨hself, hold⟩)

end

/-- What taking in the targets of a file makes of the state. -/
theorem takeIn_spec (parse : Parse) (s : State) (room : Nat)
    (found : List Path) :
    ∃ new : SourceSet, (takeIn parse s room found).2 = new.names ∧
      TakesIn parse s room found (takeIn parse s room found).1 new := by
  fun_induction takeIn parse s room found with
  | case1 s room => exact ⟨[], rfl, .nil⟩
  | case2 s room target rest path hskip ih =>
    obtain ⟨new, hadded, hnew⟩ := ih
    exact ⟨new, hadded, hnew.pass (by simpa using hskip)⟩
  | case3 s target rest path hskip tried room f hparse s' added heq ih =>
    obtain ⟨new, hadded, hnew⟩ := ih
    rw [heq] at hadded hnew
    obtain ⟨hfresh, hsource⟩ : path ∉ s.attempted ∧ isSource target = true := by
      simpa using hskip
    exact ⟨(path, f) :: new, congrArg (path :: ·) hadded,
      hnew.add hsource hfresh hparse⟩
  | case4 s target rest path hskip tried room hleft ih =>
    obtain ⟨new, hadded, hnew⟩ := ih
    obtain ⟨-, hsource⟩ : path ∉ s.attempted ∧ isSource target = true := by
      simpa using hskip
    refine ⟨new, hadded, hnew.leave hsource ?_⟩
    cases room with
    | zero => exact .inl rfl
    | succ room => exact .inr fun g hg => hleft room g rfl hg

/-! ### The files to look at -/

/-- The targets of a file are what its imports stand for. -/
theorem mem_targets {r : Resolve} {file : String} {f : SourceFile}
    {found : List Path} (h : targets r file f = .ok found) {p : Path} :
    p ∈ found ↔ ∃ i ∈ f.imports, r file i.source = .ok (some p) := by
  obtain ⟨answers, hanswers, h⟩ := bind_eq_ok.1 h
  cases h
  simp only [List.mem_filterMap, id, exists_eq_right, mem_of_mapM hanswers]

/-- If there are targets, every import got an answer. -/
theorem answered_of_targets {r : Resolve} {file : String} {f : SourceFile}
    {found : List Path} (h : targets r file f = .ok found) {i : Import}
    (hi : i ∈ f.imports) :
    ∃ answer, r file i.source = .ok answer := by
  obtain ⟨answers, hanswers, -⟩ := bind_eq_ok.1 h
  exact exists_of_mapM hanswers hi

/-- What holds while files are taken in: `queue` are the files that are still
to be looked at, and up to `room` files may be added. -/
structure Progress (r : Resolve) (parse : Parse) (requested : SourceSet)
    (limit room : Nat) (s : State) (queue : List String) : Prop where
  sound : ∀ file f, (file, f) ∈ s.files → InReach r parse requested file f
  once : s.files.names.Nodup
  kept : ∀ e ∈ requested, e ∈ s.files
  tried : ∀ file ∈ s.files.names, file ∈ s.attempted
  looked : ∀ file f, (file, f) ∈ s.files → file ∈ queue ∨
    ∀ i ∈ f.imports, ∃ answer, r file i.source = .ok answer ∧
      ∀ p, answer = some p → isSource p = true → p.text ∈ s.attempted
  count : s.files.length + room = requested.length + limit
  /-- Below the limit only what cannot be parsed was left out. -/
  settled : s.files.length < requested.length + limit →
    ∀ path ∈ s.attempted, path ∈ s.files.names ∨ ∀ g, parse path ≠ .ok g

section

variable {r : Resolve} {parse : Parse} {requested : SourceSet}
  {limit room : Nat} {s : State} {queue : List String}

/-- Before the first step, all requested files are still to be looked at. -/
theorem Progress.start (hnames : requested.names.Nodup) :
    Progress r parse requested limit limit ⟨requested, requested.names⟩
      requested.names where
  sound _ _ h := .requested h
  once := hnames
  kept _ h := h
  tried _ h := h
  looked _ _ h := .inl (List.mem_map.2 ⟨_, h, rfl⟩)
  count := rfl
  settled _ _ h := .inl h

/-- What is taken in for a file is imported there. -/
theorem TakesIn.exists_import {file : String} {found : List Path} {s' : State}
    {new : SourceSet} (hnew : TakesIn parse s room found s' new)
    (hfound : targetsOf r s file = .ok found) {path : String}
    (hpath : path ∈ new.names) : ∃ f i p, (file, f) ∈ s.files ∧ i ∈ f.imports ∧
      r file i.source = .ok (some p) ∧ isSource p = true ∧ p.text = path := by
  obtain ⟨target, htarget, hsource, rfl⟩ :=
    ((hnew.attempted path).1 (hnew.tried path hpath)).resolve_left
      (hnew.fresh path hpath)
  unfold targetsOf at hfound
  cases hget : s.files.get? file with
  | none =>
    rw [hget] at hfound
    cases hfound
    cases htarget
  | some f =>
    rw [hget] at hfound
    obtain ⟨i, hi, hp⟩ := (mem_targets hfound).1 htarget
    exact ⟨f, i, target, Table.mem_of_get? hget, hi, hp, hsource, rfl⟩

/-- What is taken in for the first file of the queue is in reach. -/
theorem Progress.inReach_of_takesIn {file : String} {found : List Path}
    {s' : State} {new : SourceSet}
    (h : Progress r parse requested limit room s (file :: queue))
    (hfound : targetsOf r s file = .ok found)
    (hnew : TakesIn parse s room found s' new) {path : String} {g : SourceFile}
    (hg : (path, g) ∈ new) : InReach r parse requested path g := by
  have hpath : path ∈ new.names := List.mem_map.2 ⟨_, hg, rfl⟩
  have hrequested : path ∉ requested.names := by
    intro hmem
    obtain ⟨e, he, hname⟩ := List.mem_map.1 hmem
    exact hnew.fresh path hpath
      (hname ▸ h.tried e.1 (List.mem_map.2 ⟨e, h.kept e he, rfl⟩))
  obtain ⟨f, i, p, hf, hi, hp, hsource, rfl⟩ := hnew.exists_import hfound hpath
  exact .imported (h.sound file f hf) hi hp hsource hrequested
    (hnew.parsed _ _ hg)

/-- Looking at one file of the queue keeps up the progress. -/
theorem Progress.step {file : String} {found : List Path} {s' : State}
    {new : SourceSet}
    (h : Progress r parse requested limit room s (file :: queue))
    (hfound : targetsOf r s file = .ok found)
    (hnew : TakesIn parse s room found s' new) (hroom : new.length ≤ room) :
    Progress r parse requested limit (room - new.length) s'
      (queue ++ new.names) := by
  have hnames : s'.files.names = s.files.names ++ new.names := by
    rw [hnew.files, Table.names_append]
  have hlength : s'.files.length = s.files.length + new.length := by
    rw [hnew.files, List.length_append]
  have hattempted : ∀ path ∈ s.attempted, path ∈ s'.attempted :=
    fun path hpath =>
    (hnew.attempted path).2 (.inl hpath)
  have hcount := h.count
  constructor
  case sound =>
    intro path g hg
    rw [hnew.files] at hg
    rcases List.mem_append.1 hg with hg | hg
    · exact h.sound path g hg
    · exact h.inReach_of_takesIn hfound hnew hg
  case once =>
    rw [hnames]
    refine List.nodup_append.2 ⟨h.once, hnew.once,
      fun path hpath other hother heq => ?_⟩
    exact hnew.fresh other hother (heq ▸ h.tried path hpath)
  case kept =>
    intro e he
    rw [hnew.files]
    exact List.mem_append_left _ (h.kept e he)
  case tried =>
    intro path hpath
    rw [hnames] at hpath
    rcases List.mem_append.1 hpath with hpath | hpath
    · exact hattempted path (h.tried path hpath)
    · exact hnew.tried path hpath
  case looked =>
    intro path g hg
    rw [hnew.files] at hg
    rcases List.mem_append.1 hg with hg | hg
    · rcases h.looked path g hg with hqueue | hlooked
      · rcases List.mem_cons.1 hqueue with rfl | hqueue
        · -- the file looked at now
          rw [targetsOf, (Table.get?_eq_some_iff h.once).2 hg] at hfound
          refine .inr fun i hi => ?_
          obtain ⟨answer, hanswer⟩ := answered_of_targets hfound hi
          refine ⟨answer, hanswer, fun p hp hsource =>
            (hnew.attempted _).2 (.inr ⟨p, ?_, hsource, rfl⟩)⟩
          exact (mem_targets hfound).2 ⟨i, hi, hp ▸ hanswer⟩
        · exact .inl (List.mem_append_left _ hqueue)
      · refine .inr fun i hi => ?_
        obtain ⟨answer, hanswer, hto⟩ := hlooked i hi
        exact ⟨answer, hanswer, fun p hp hsource =>
          hattempted _ (hto p hp hsource)⟩
    · exact .inl (List.mem_append_right _ (List.mem_map.2 ⟨_, hg, rfl⟩))
  case count => omega
  case settled =>
    intro hbelow path hpath
    rw [hnames, List.mem_append]
    -- below the limit now means below the limit before, and room for more in
    -- between
    by_cases hold : path ∈ s.attempted
    · exact (h.settled (by omega) path hold).imp_left .inl
    · by_cases hpathNew : path ∈ new.names
      · exact .inl (.inr hpathNew)
      · exact .inr (hnew.settled (by omega) path hpath hold hpathNew)

/-- The same with the targets taken in by `takeIn`. -/
theorem Progress.takeIn {file : String} {found : List Path}
    (h : Progress r parse requested limit room s (file :: queue))
    (hfound : targetsOf r s file = .ok found) :
    Progress r parse requested limit
      (room - (takeIn parse s room found).2.length)
      (takeIn parse s room found).1
      (queue ++ (takeIn parse s room found).2) := by
  obtain ⟨new, hadded, hnew⟩ := takeIn_spec parse s room found
  have hroom := length_takeIn_le parse s room found
  have hlength : (Closure.takeIn parse s room found).2.length = new.length := by
    rw [hadded]
    exact List.length_map _
  rw [hlength] at hroom ⊢
  rw [hadded]
  exact h.step hfound hnew hroom

/-- When no file is left to look at, the progress is still up. -/
theorem Progress.grow {everything : SourceSet}
    (h : Progress r parse requested limit room s queue)
    (hgrow : grow r parse room s queue = .ok everything) :
    ∃ room attempted, Progress r parse requested limit room ⟨everything,
      attempted⟩ [] := by
  fun_induction Closure.grow r parse room s queue with
  | case1 room s =>
    cases hgrow
    exact ⟨room, s.attempted, h⟩
  | case2 room s file queue ih =>
    obtain ⟨found, hfound, hgrow⟩ := bind_eq_ok.1 hgrow
    exact ih found (h.takeIn hfound) hgrow

/-- An import of a file in reach gets no answer but a failure. -/
def FailsIn (r : Resolve) (parse : Parse) (requested : SourceSet)
    (e : ProjectError) : Prop :=
  ∃ file f, InReach r parse requested file f ∧ ∃ i ∈ f.imports,
    r file i.source = .error e

/-- An import that gets no answer is one of a file in reach. -/
theorem Progress.fails_of_targetsOf {file : String} {e : ProjectError}
    (h : Progress r parse requested limit room s queue)
    (herror : targetsOf r s file = .error e) :
    FailsIn r parse requested e := by
  unfold targetsOf at herror
  cases hget : s.files.get? file with
  | none =>
    rw [hget] at herror
    cases herror
  | some f =>
    rw [hget] at herror
    rcases bind_eq_error.1 herror with herror | ⟨answers, -, herror⟩
    · obtain ⟨i, hi, hfails⟩ := exists_of_mapM_error herror
      exact ⟨file, f, h.sound file f (Table.mem_of_get? hget), i, hi, hfails⟩
    · cases herror

/-- So if the closure fails, an import of a file in reach gets no answer. -/
theorem Progress.fails_of_grow {e : ProjectError}
    (h : Progress r parse requested limit room s queue)
    (herror : Closure.grow r parse room s queue = .error e) :
    FailsIn r parse requested e := by
  fun_induction Closure.grow r parse room s queue with
  | case1 => cases herror
  | case2 room s file queue ih =>
    rcases bind_eq_error.1 herror with herror | ⟨found, hfound, herror⟩
    · exact h.fails_of_targetsOf herror
    · exact ih found (h.takeIn hfound) herror

/-! ### The closure -/

variable {everything : SourceSet}

/-- What holds at the end, when there is nothing left to look at. -/
theorem progress_expand (hnames : requested.names.Nodup) (hlimit : limit ≠ 0)
    (h : expand r parse limit requested = .ok everything) :
    ∃ room attempted, Progress r parse requested limit room ⟨everything,
      attempted⟩ [] := by
  rw [expand, if_neg hlimit] at h
  exact (Progress.start hnames).grow h

/-- The closure fails only at an import of a file in reach. -/
theorem fails_of_expand {e : ProjectError} (hnames : requested.names.Nodup)
    (h : expand r parse limit requested = .error e) :
    limit ≠ 0 ∧ FailsIn r parse requested e := by
  unfold expand at h
  split at h
  · cases h
  · next hlimit => exact ⟨hlimit, (Progress.start hnames).fails_of_grow h⟩

/-- The imports of all files taken in have got an answer. -/
theorem answered_expand {r : Resolver} (hnames : requested.names.Nodup)
    (hlimit : limit ≠ 0) (h : expand r parse limit requested = .ok everything) :
    ImportGraph.Answered everything r := by
  obtain ⟨room, attempted, hprogress⟩ := progress_expand hnames hlimit h
  intro file f hf i hi
  obtain ⟨answer, hanswer, -⟩ :=
    (hprogress.looked file f hf).resolve_left List.not_mem_nil i hi
  exact ⟨answer, hanswer⟩

/-- Only files in reach are taken in, each once. -/
theorem inReach_expand (hnames : requested.names.Nodup)
    (h : expand r parse limit requested = .ok everything) :
    everything.names.Nodup ∧ ∀ file f, (file, f) ∈ everything →
      InReach r parse requested file f := by
  by_cases hlimit : limit = 0
  · rw [expand, if_pos hlimit] at h
    cases h
    exact ⟨hnames, fun _ _ => .requested⟩
  · obtain ⟨room, attempted, hprogress⟩ := progress_expand hnames hlimit h
    exact ⟨hprogress.once, hprogress.sound⟩

/-- Below the limit all files in reach are taken in. -/
theorem mem_expand (hnames : requested.names.Nodup) (hlimit : limit ≠ 0)
    (h : expand r parse limit requested = .ok everything)
    (hbelow : everything.length < requested.length + limit) {file : String}
    {f : SourceFile} :
    (file, f) ∈ everything ↔ InReach r parse requested file f := by
  refine ⟨(inReach_expand hnames h).2 file f, fun hreach => ?_⟩
  obtain ⟨room, attempted, hprogress⟩ := progress_expand hnames hlimit h
  induction hreach with
  | requested hf => exact hprogress.kept _ hf
  | @imported file f g i p _ hi hp hsource hnew hparse ih =>
    obtain ⟨answer, hanswer, hto⟩ :=
      (hprogress.looked file f ih).resolve_left List.not_mem_nil i hi
    have htried := hto p (Except.ok.inj (hanswer.symm.trans hp)) hsource
    have hin := (hprogress.settled hbelow _ htried).resolve_right fun hnone =>
      hnone g hparse
    obtain ⟨⟨_, other⟩, hother, rfl⟩ := List.mem_map.1 hin
    -- what was taken in under this path was parsed from it
    have hparsed := (hprogress.sound _ other hother).parsed hnew
    obtain rfl : other = g := Except.ok.inj (hparsed.symm.trans hparse)
    exact hother

end

end Closure

end RenderLoop
