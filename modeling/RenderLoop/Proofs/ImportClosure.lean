import RenderLoop.Proofs.Reach
import RenderLoop.Proofs.Sketch

/-!
# What the limit leaves of the import closure

The closure adds files until there are none left or the limit is reached.
Whatever the limit, a file that was added can be traced back to a requested
one through files that were taken in themselves:

> `linked_grow`: a chain of imports leads to every file, if that was so at the
> start.

A smaller limit stops the same search earlier, so that it leaves out files at
the end only:

> `takeIn_of_le`, `prefix_grow_of_le`: until the smaller limit is used up both
> searches do the same, and afterwards one of them adds nothing.

How often a source is read is not a matter of the result. `expandM` is the
closure with an action in place of the reader; with one that writes down what
it is asked for, it returns the closure, and no path is written down twice
(`expandM_logged`).

A step of the search takes in the targets of one file. `takeIn_pass`,
`takeIn_add` and `takeIn_leave` are the three things that can happen to a
target, and all the statements about a step go through them; the search itself
is then an induction over its queue.
-/

namespace RenderLoop

namespace Closure

variable {r : Resolve} {parse : Parse} {requested files everything : SourceSet}
  {room limit : Nat} {s : State} {queue : List String}

/-! ### Chains of imports -/

/-- The path is requested, or a file with such a path imports it; all these
files are among `files`. -/
inductive Linked (r : Resolve) (requested files : SourceSet) : String → Prop
  | requested {file : String} (h : file ∈ requested.names) :
      Linked r requested files file
  | imported {file : String} {f : SourceFile} {i : Import} {p : Path}
      (hfile : Linked r requested files file) (hf : (file, f) ∈ files)
      (hi : i ∈ f.imports)
      (hp : r file i.source = .ok (some p)) (hsource : isSource p = true) :
      Linked r requested files p.text

/-- More files make no chain of imports invalid. -/
theorem Linked.mono {more : SourceSet} (hsub : files ⊆ more) {path : String}
    (h : Linked r requested files path) : Linked r requested more path := by
  induction h with
  | requested h => exact .requested h
  | imported _ hf hi hp hsource ih => exact .imported ih (hsub hf) hi hp hsource

/-- The files that are taken in for a file are imported by it. -/
theorem linked_takeIn {file : String} {found : List Path}
    (hfound : targetsOf r s file = .ok found)
    (h : ∀ path ∈ s.files.names, Linked r requested s.files path) :
    ∀ path ∈ (takeIn parse s room found).1.files.names,
      Linked r requested (takeIn parse s room found).1.files path := by
  obtain ⟨new, -, hnew⟩ := takeIn_spec parse s room found
  have hsub : s.files ⊆ (takeIn parse s room found).1.files := by
    rw [hnew.files]
    exact List.subset_append_left _ _
  intro path hpath
  rw [hnew.files, Table.names_append] at hpath
  rcases List.mem_append.1 hpath with hpath | hpath
  · exact (h path hpath).mono hsub
  · obtain ⟨f, i, p, hf, hi, hp, hsource, rfl⟩ :=
      hnew.exists_import hfound hpath
    exact .imported ((h file (List.mem_map.2 ⟨_, hf, rfl⟩)).mono hsub) (hsub hf)
      hi hp hsource

/-- So every file of the closure is at the end of a chain that begins with a
requested one. -/
theorem linked_grow
    (h : ∀ path ∈ s.files.names, Linked r requested s.files path)
    (hgrow : grow r parse room s queue = .ok everything) :
    ∀ path ∈ everything.names, Linked r requested everything path := by
  fun_induction grow r parse room s queue with
  | case1 room s =>
    cases hgrow
    exact h
  | case2 room s file queue ih =>
    obtain ⟨found, hfound, hgrow⟩ := bind_eq_ok.1 hgrow
    exact ih found (linked_takeIn hfound h) hgrow

/-! ### One target after the other -/

section

variable {target : Path} {rest : List Path}

/-- A target that was tried before, or that is no source, is passed over. -/
theorem takeIn_pass
    (hpass : (s.attempted.contains target.text || !isSource target) = true) :
    takeIn parse s room (target :: rest) = takeIn parse s room rest := by
  rw [takeIn]
  exact if_pos hpass

/-- A target that can be parsed is added while there is room. -/
theorem takeIn_add
    (hpass : ¬ (s.attempted.contains target.text || !isSource target) = true)
    {f : SourceFile} (hparse : parse target.text = .ok f) :
    takeIn parse s (room + 1) (target :: rest) =
      let t :=
  takeIn parse ⟨s.files ++ [(target.text, f)],
        target.text :: s.attempted⟩ room rest
      (t.1, target.text :: t.2) := by
  rw [takeIn]
  simp only [if_neg hpass, hparse]

/-- Otherwise it is left out, and not tried again. -/
theorem takeIn_leave
    (hpass : ¬ (s.attempted.contains target.text || !isSource target) = true)
    (hleft : room = 0 ∨ ∃ e, parse target.text = .error e) :
    takeIn parse s room (target :: rest) =
      takeIn parse ⟨s.files, target.text :: s.attempted⟩ room rest := by
  rw [takeIn]
  simp only [if_neg hpass]
  rcases hleft with rfl | ⟨e, hparse⟩
  · rfl
  · cases room with
    | zero => rfl
    | succ room => simp only [hparse]

end

/-! ### A smaller limit -/

/-- Files are only added, and at the end. -/
theorem prefix_takeIn (parse : Parse) (s : State) (room : Nat)
    (found : List Path) :
    s.files <+: (takeIn parse s room found).1.files := by
  obtain ⟨new, -, hnew⟩ := takeIn_spec parse s room found
  exact ⟨new, hnew.files.symm⟩

/-- Files are only added at the end. -/
theorem prefix_grow (hgrow : grow r parse room s queue = .ok everything) :
    s.files <+: everything := by
  fun_induction grow r parse room s queue with
  | case1 room s =>
    cases hgrow
    exact List.prefix_rfl
  | case2 room s file queue ih =>
    obtain ⟨found, -, hgrow⟩ := bind_eq_ok.1 hgrow
    exact (prefix_takeIn parse s room found).trans (ih found hgrow)

theorem files_takeIn_zero (parse : Parse) (s : State) (found : List Path) :
    (takeIn parse s 0 found).1.files = s.files := by
  obtain ⟨new, hadded, hnew⟩ := takeIn_spec parse s 0 found
  have hnone : new.names = [] := by
    rw [← hadded]
    exact List.length_eq_zero_iff.1
      (Nat.le_zero.1 (length_takeIn_le parse s 0 found))
  rw [hnew.files, List.map_eq_nil_iff.1 hnone, List.append_nil]

/-- When the limit is used up, nothing is added any more. -/
theorem grow_zero (hgrow : grow r parse 0 s queue = .ok everything) :
    everything = s.files := by
  generalize hroom : 0 = room at hgrow
  fun_induction grow r parse room s queue with
  | case1 room s =>
    cases hgrow
    rfl
  | case2 room s file queue ih =>
    subst hroom
    obtain ⟨found, -, hgrow⟩ := bind_eq_ok.1 hgrow
    rw [ih found (by omega) hgrow, files_takeIn_zero]

/-- With less room the targets of imports are taken in as with more, unless
the room is used up. -/
theorem takeIn_of_le (parse : Parse) (s : State) {less more : Nat}
    (hle : less ≤ more) (found : List Path) :
    takeIn parse s less found = takeIn parse s more found ∨
      (takeIn parse s less found).2.length = less ∧
        (takeIn parse s less found).1.files <+:
          (takeIn parse s more found).1.files := by
  induction found generalizing s less more with
  | nil => exact .inl rfl
  | cons target rest ih =>
    by_cases hpass : (s.attempted.contains target.text || !isSource target) =
      true
    · rw [takeIn_pass hpass, takeIn_pass hpass]
      exact ih s hle
    · cases hparse : parse target.text with
      | error e =>
        rw [takeIn_leave hpass (.inr ⟨e, hparse⟩),
          takeIn_leave hpass (.inr ⟨e, hparse⟩)]
        exact ih _ hle
      | ok f =>
        cases less with
        | zero =>
          -- here the two part: there is room for the file in one of them only
          refine .inr ⟨Nat.le_zero.1 (length_takeIn_le ..), ?_⟩
          rw [files_takeIn_zero]
          exact prefix_takeIn ..
        | succ less =>
          obtain ⟨more, rfl⟩ : ∃ n, more = n + 1 := ⟨more - 1, by omega⟩
          rw [takeIn_add hpass hparse, takeIn_add hpass hparse]
          rcases ih ⟨s.files ++ [(target.text, f)], target.text :: s.attempted⟩
            (Nat.le_of_succ_le_succ hle) with hsame | ⟨hfull, hprefix⟩
          · exact .inl (by rw [hsame])
          · exact .inr ⟨congrArg (· + 1) hfull, hprefix⟩

/-- A smaller limit leaves out files at the end only. -/
theorem prefix_grow_of_le {less more : Nat} (hle : less ≤ more)
    {fewer : SourceSet} (hless : grow r parse less s queue = .ok fewer)
    (hmore : grow r parse more s queue = .ok everything) :
    fewer <+: everything := by
  fun_induction grow r parse more s queue generalizing less with
  | case1 more s =>
    rw [grow] at hless
    cases hmore
    cases hless
    exact List.prefix_rfl
  | case2 more s file queue ih =>
    obtain ⟨found, hfound, hmore⟩ := bind_eq_ok.1 hmore
    rw [grow] at hless
    obtain ⟨found', hfound', hless⟩ := bind_eq_ok.1 hless
    obtain rfl : found = found' := Except.ok.inj (hfound.symm.trans hfound')
    rcases takeIn_of_le parse s hle found with hsame | ⟨hfull, hprefix⟩
    · rw [hsame] at hless
      exact ih found (by omega) hless hmore
    · -- the smaller limit is used up here, and the other search goes on from
      -- what both have added
      rw [hfull, Nat.sub_self] at hless
      rw [grow_zero hless]
      exact hprefix.trans (prefix_grow hmore)

/-! ### Reading a source once -/

section Actions

variable {m : Type → Type} [Monad m]

/-- `takeIn` with an action that reads a source. Nothing is read once the room
is used up. -/
def takeInM (read : String → m (Except ParseError SourceFile)) (s : State)
    (room : Nat) :
    List Path → m {t : State × List String // t.2.length ≤ room}
  | [] => return ⟨(s, []), Nat.zero_le _⟩
  | target :: rest =>
    let path := target.text
    if s.attempted.contains path || !isSource target then
      takeInM read s room rest
    else
      let tried := { s with attempted := path :: s.attempted }
      match room with
      | 0 => takeInM read tried 0 rest
      | room + 1 => do
        match ← read path with
        | .ok f =>
          let t ← takeInM read { tried with files := tried.files ++
            [(path, f)] } room rest
          return ⟨(t.1.1, path :: t.1.2), Nat.succ_le_succ t.2⟩
        | .error _ => takeInM read tried (room + 1) rest

/-- `grow` with an action that reads a source. -/
def growM (r : Resolve) (read : String → m (Except ParseError SourceFile))
    (room : Nat) (s : State) :
    List String → m (Except ProjectError SourceSet)
  | [] => return .ok s.files
  | file :: queue =>
    match targetsOf r s file with
    | .error e => return .error e
    | .ok found => do
      let t ← takeInM read s room found
      growM r read (room - t.1.2.length) t.1.1 (queue ++ t.1.2)
termination_by queue => 2 * room + queue.length
decreasing_by
  have := t.2
  simp only [List.length_append, List.length_cons]
  omega

/-- `expand` with an action that reads a source. -/
def expandM (r : Resolve) (read : String → m (Except ParseError SourceFile))
    (limit : Nat) (requested : SourceSet) : m (Except ProjectError SourceSet) :=
  if limit = 0 then return .ok requested
  else growM r read limit ⟨requested, requested.names⟩ requested.names

end Actions

/-- The action that reads a source and writes its path down. -/
def logged (parse : Parse) (path : String) :
    StateM (List String) (Except ParseError SourceFile) := do
  modify (· ++ [path])
  return parse path

theorem run_logged_bind {α : Type} (parse : Parse) (path : String)
    (next : Except ParseError SourceFile → StateM (List String) α)
    (log : List String) :
    (logged parse path >>= next).run log =
      (next (parse path)).run (log ++ [path]) :=
  rfl

/-- The paths that are read while a state grows into another: they have not
been tried before, and none is read twice. -/
structure ReadsOnce (s s' : State) (paths : List String) : Prop where
  once : paths.Nodup
  fresh : ∀ path ∈ paths, path ∉ s.attempted
  tried : ∀ path ∈ paths, path ∈ s'.attempted

theorem ReadsOnce.nil (s s' : State) : ReadsOnce s s' [] :=
  ⟨.nil, by simp, by simp⟩

/-- A path that is tried first, whether it is read or not. -/
theorem ReadsOnce.pass {s s' : State} {files : SourceSet} {path : String}
    {paths : List String}
    (h : ReadsOnce ⟨files, path :: s.attempted⟩ s' paths) :
    ReadsOnce s s' paths where
  once := h.once
  fresh other hother hold := h.fresh other hother (List.mem_cons_of_mem _ hold)
  tried := h.tried

theorem ReadsOnce.cons {s s' : State} {files : SourceSet} {path : String}
    {paths : List String} (h : ReadsOnce ⟨files, path :: s.attempted⟩ s' paths)
    (hfresh : path ∉ s.attempted)
    (htried : path ∈ s'.attempted) : ReadsOnce s s' (path :: paths) where
  once := List.nodup_cons.2
    ⟨fun hself => h.fresh path hself List.mem_cons_self, h.once⟩
  fresh := List.forall_mem_cons.2 ⟨hfresh, h.pass.fresh⟩
  tried := List.forall_mem_cons.2 ⟨htried, h.tried⟩

theorem attempted_takeIn (parse : Parse) (s : State) (room : Nat)
    (found : List Path) :
    s.attempted ⊆ (takeIn parse s room found).1.attempted := by
  obtain ⟨new, -, hnew⟩ := takeIn_spec parse s room found
  exact fun path hpath => (hnew.attempted path).2 (.inl hpath)

/-- With the reader that writes down what it reads, taking in does the same
and reads every path at most once. -/
theorem takeInM_logged (parse : Parse) (s : State) (room : Nat)
    (found : List Path) (log : List String) :
    ∃ t paths, (takeInM (logged parse) s room found).run log =
      (t, log ++ paths) ∧ t.1 = takeIn parse s room found ∧
      ReadsOnce s (takeIn parse s room found).1 paths := by
  induction found generalizing s room log with
  | nil =>
    exact ⟨⟨(s, []), Nat.zero_le _⟩, [], by rw [List.append_nil]; rfl,
      rfl, .nil _ _⟩
  | cons target rest ih =>
    by_cases hpass : (s.attempted.contains target.text || !isSource target) =
      true
    · rw [takeIn_pass hpass, takeInM]
      simp only [if_pos hpass]
      exact ih s room log
    · have hfresh : target.text ∉ s.attempted := by
        intro h
        simp [h] at hpass
      rw [takeInM]
      simp only [if_neg hpass]
      cases room with
      | zero =>
        rw [takeIn_leave hpass (.inl rfl)]
        obtain ⟨t, paths, hrun, ht, hpaths⟩ :=
          ih ⟨s.files, target.text :: s.attempted⟩ 0 log
        exact ⟨t, paths, hrun, ht, hpaths.pass⟩
      | succ room =>
        simp only [run_logged_bind]
        cases hparse : parse target.text with
        | ok f =>
          rw [takeIn_add hpass hparse]
          obtain ⟨t, paths, hrun, ht, hpaths⟩ :=
            ih ⟨s.files ++ [(target.text, f)], target.text :: s.attempted⟩ room
              (log ++ [target.text])
          refine ⟨⟨(t.1.1, target.text :: t.1.2), Nat.succ_le_succ t.2⟩,
            target.text :: paths, ?_, ?_, ?_⟩
          · simp only [StateT.run_bind, hrun, List.append_assoc]
            rfl
          · rw [← ht]
          · exact hpaths.cons hfresh
              (attempted_takeIn _ _ _ _ List.mem_cons_self)
        | error e =>
          rw [takeIn_leave hpass (.inr ⟨e, hparse⟩)]
          obtain ⟨t, paths, hrun, ht, hpaths⟩ :=
            ih ⟨s.files, target.text :: s.attempted⟩ (room + 1)
              (log ++ [target.text])
          refine ⟨t, target.text :: paths, ?_, ht, ?_⟩
          · simp only [hrun, List.append_assoc]
            rfl
          · exact hpaths.cons hfresh
              (attempted_takeIn _ _ _ _ List.mem_cons_self)

/-- Reading by an action that writes the paths down gives the same files, and
no path is read twice. -/
theorem growM_logged (r : Resolve) (parse : Parse) (room : Nat) (s : State)
    (queue log : List String) :
    ∃ paths, (growM r (logged parse) room s queue).run log =
      (grow r parse room s queue, log ++ paths) ∧ paths.Nodup ∧
      ∀ path ∈ paths, path ∉ s.attempted := by
  fun_induction grow r parse room s queue generalizing log with
  | case1 room s =>
    rw [growM]
    exact ⟨[], by rw [List.append_nil]; rfl, .nil, by simp⟩
  | case2 room s file queue ih =>
    rw [growM]
    cases hfound : targetsOf r s file with
    | error e => exact ⟨[], by rw [List.append_nil]; rfl, .nil, by simp⟩
    | ok found =>
      obtain ⟨⟨_, hbound⟩, paths, hrun, rfl, hpaths⟩ :=
        takeInM_logged parse s room found log
      obtain ⟨later, hlater, honce, hfresh⟩ := ih found (log ++ paths)
      -- what is read later has not been tried by then, so it was not read
      -- before
      refine ⟨paths ++ later, ?_, ?_, ?_⟩
      · rw [← List.append_assoc]
        simp only [StateT.run_bind, hrun]
        exact hlater
      · refine List.nodup_append.2 ⟨hpaths.once, honce,
          fun path hpath other hother heq => ?_⟩
        exact hfresh other hother (heq ▸ hpaths.tried path hpath)
      · intro path hpath hold
        rcases List.mem_append.1 hpath with hpath | hpath
        · exact hpaths.fresh path hpath hold
        · exact hfresh path hpath (attempted_takeIn _ _ _ _ hold)

/-- So does the closure as a whole, and it never reads a requested file
again. -/
theorem expandM_logged (r : Resolve) (parse : Parse) (limit : Nat)
    (requested : SourceSet) :
    ∃ paths, (expandM r (logged parse) limit requested).run [] =
      (expand r parse limit requested, paths) ∧ paths.Nodup ∧
      ∀ path ∈ paths, path ∉ requested.names := by
  unfold expandM expand
  split
  · exact ⟨[], rfl, .nil, by simp⟩
  · exact growM_logged r parse limit ⟨requested, requested.names⟩
      requested.names []

/-! ### The closure -/

/-- The files `new` that the closure adds to the requested ones. -/
structure Adds (r : Resolve) (parse : Parse) (limit : Nat)
    (requested new : SourceSet) : Prop where
  few : new.length ≤ limit
  once : (requested ++ new).names.Nodup
  parsed : ∀ path g, (path, g) ∈ new → parse path = .ok g
  source : ∀ path ∈ new.names, ∃ p : Path, p.text = path ∧ isSource p = true
  linked : ∀ path ∈ new.names, Linked r requested (requested ++ new) path
  /-- Below the limit, what a file imports has been taken in if it can be
  parsed. -/
  closed : new.length < limit → ∀ file f, (file, f) ∈ requested ++ new →
    ∀ i ∈ f.imports, ∀ p g, r file i.source = .ok (some p) → isSource p = true →
      parse p.text = .ok g → p.text ∈ (requested ++ new).names

theorem Adds.nothing (hnames : requested.names.Nodup) :
    Adds r parse 0 requested [] where
  few := Nat.le_refl _
  once := by rwa [List.append_nil]
  parsed _ _ h := absurd h List.not_mem_nil
  source _ h := absurd h List.not_mem_nil
  linked _ h := absurd h List.not_mem_nil
  closed h := absurd h (Nat.lt_irrefl 0)

/-- A file that was not requested is a source. -/
theorem Linked.source {path : String} (h : Linked r requested files path)
    (hnew : path ∉ requested.names) :
    ∃ p : Path, p.text = path ∧ isSource p = true := by
  cases h with
  | requested h => exact absurd h hnew
  | imported _ _ _ _ hsource => exact ⟨_, rfl, hsource⟩

/-- A closure that is worked out adds files as it should. -/
theorem adds_of_expand (hnames : requested.names.Nodup)
    (h : expand r parse limit requested = .ok everything) :
    ∃ new, everything = requested ++ new ∧
      Adds r parse limit requested new := by
  by_cases hlimit : limit = 0
  · subst hlimit
    rw [expand, if_pos rfl] at h
    cases h
    exact ⟨[], (List.append_nil _).symm, .nothing hnames⟩
  · obtain ⟨room, attempted, hprogress⟩ := progress_expand hnames hlimit h
    rw [expand, if_neg hlimit] at h
    obtain ⟨(new : SourceSet), rfl⟩ := prefix_grow h
    have hcount : (requested ++ new).length + room = requested.length + limit :=
      hprogress.count
    rw [List.length_append] at hcount
    have hlinked : ∀ path ∈ (requested ++ new).names,
        Linked r requested (requested ++ new) path :=
      linked_grow (fun _ => .requested) h
    have hfresh : ∀ path ∈ new.names, path ∉ requested.names := by
      intro path hpath hold
      have honce : (requested ++ new).names.Nodup := hprogress.once
      rw [Table.names_append] at honce
      exact (List.nodup_append.1 honce).2.2 path hold path hpath rfl
    have hmem : ∀ path ∈ new.names, path ∈ (requested ++ new).names := by
      intro path hpath
      rw [Table.names_append]
      exact List.mem_append_right _ hpath
    refine ⟨new, rfl, by omega, hprogress.once, ?_, ?_, ?_, ?_⟩
    · intro path g hg
      exact (hprogress.sound path g (List.mem_append_right _ hg)).parsed
        (hfresh path (List.mem_map.2 ⟨_, hg, rfl⟩))
    · exact fun path hpath =>
        (hlinked path (hmem path hpath)).source (hfresh path hpath)
    · exact fun path hpath => hlinked path (hmem path hpath)
    · intro hbelow file f hf i hi p g hp hsource hparse
      obtain ⟨answer, hanswer, hto⟩ :=
        (hprogress.looked file f hf).resolve_left List.not_mem_nil i hi
      have htried := hto p (Except.ok.inj (hanswer.symm.trans hp)) hsource
      refine (hprogress.settled ?_ _ htried).resolve_right fun hnone =>
        hnone g hparse
      show (requested ++ new).length < requested.length + limit
      rw [List.length_append]
      omega

/-- The closure under a smaller limit is a first part of the closure under a
larger one. -/
theorem prefix_expand_of_le {less more : Nat} (hle : less ≤ more)
    {fewer : SourceSet} (hless : expand r parse less requested = .ok fewer)
    (hmore : expand r parse more requested = .ok everything) :
    fewer <+: everything := by
  unfold expand at hless hmore
  split at hless
  · cases hless
    split at hmore
    · cases hmore
      exact List.prefix_rfl
    · exact prefix_grow hmore
  · split at hmore
    · omega
    · exact prefix_grow_of_le hle hless hmore

/-- If no import of a file in reach fails, the closure returns the requested
files and behind them at most `limit` others, as `Adds` says. No source is
read twice, and a larger limit only adds files at the end. -/
theorem expand_requested_first (r : Resolve) (parse : Parse) (limit : Nat)
    {requested : SourceSet} (hnames : requested.names.Nodup)
    (hanswers : ∀ e, ¬ FailsIn r parse requested e) :
    ∃ new, expand r parse limit requested = .ok (requested ++ new) ∧
      Adds r parse limit requested new ∧
      (∃ paths, (expandM r (logged parse) limit requested).run [] =
        (.ok (requested ++ new), paths) ∧ paths.Nodup ∧
        ∀ path ∈ paths, path ∉ requested.names) ∧
      ∀ more, limit ≤ more →
        ∃ newer, expand r parse more requested = .ok (requested ++ newer) ∧
        requested ++ new <+: requested ++ newer := by
  have hreturns : ∀ n, ∃ added, expand r parse n requested =
      .ok (requested ++ added) ∧ Adds r parse n requested added := by
    intro n
    cases hexpand : expand r parse n requested with
    | error e => exact absurd (fails_of_expand hnames hexpand).2 (hanswers e)
    | ok everything =>
      obtain ⟨added, rfl, hadds⟩ := adds_of_expand hnames hexpand
      exact ⟨added, rfl, hadds⟩
  obtain ⟨new, hexpand, hadds⟩ := hreturns limit
  refine ⟨new, hexpand, hadds, ?_, fun more hle => ?_⟩
  · obtain ⟨paths, hrun, hpaths⟩ := expandM_logged r parse limit requested
    rw [hexpand] at hrun
    exact ⟨paths, hrun, hpaths⟩
  · obtain ⟨newer, hmore, -⟩ := hreturns more
    exact ⟨newer, hmore, prefix_expand_of_le hle hexpand hmore⟩

/-! ### Two files that import each other, and a broken one -/

/-- A file with two imports. -/
def opening : SourceFile :=
  Sketch.file "/a.ts" [.importFrom ["x"] "./b", .importFrom ["y"] "./c"]

/-- The file behind one of them, which imports the first file. -/
def sequel : SourceFile := Sketch.file "/b.ts" [.importFrom ["z"] "./a"]

/-- The paths that their imports stand for. -/
def places : Table Path :=
  [("./a", ⟨.root, ["a.ts"]⟩), ("./b", ⟨.root, ["b.ts"]⟩),
    ("./c", ⟨.root, ["c.ts"]⟩)]

def leads : Resolve := fun _ source => .ok (places.get? source)

/-- Only the second file can be parsed. -/
def parsesSequel : Parse :=
  fun path => if path = "/b.ts" then .ok sequel else .error (.unreadable path)

def openings : SourceSet := [("/a.ts", opening)]

theorem not_failsIn_leads (e : ProjectError) :
    ¬ FailsIn leads parsesSequel openings e := by
  rintro ⟨file, f, -, i, -, hfails⟩
  cases hfails

theorem eq_sequel {path : String} {g : SourceFile}
    (h : parsesSequel path = .ok g) :
    (path, g) = ("/b.ts", sequel) := by
  unfold parsesSequel at h
  split at h
  · next hpath =>
    cases h
    rw [hpath]
  · cases h

/-- The closure of the first file holds both, without the broken one. -/
theorem expand_openings : openings.names.Nodup ∧
    (∀ e, ¬ FailsIn leads parsesSequel openings e) ∧
    expand leads parsesSequel 9 openings =
      .ok [("/a.ts", opening), ("/b.ts", sequel)] := by
  have hnames : openings.names.Nodup := List.pairwise_singleton _ _
  refine ⟨hnames, not_failsIn_leads, ?_⟩
  obtain ⟨new, hexpand, hadds, -⟩ :=
    expand_requested_first leads parsesSequel 9 hnames not_failsIn_leads
  have hall : ∀ e ∈ new, e = ("/b.ts", sequel) :=
    fun e he => eq_sequel (hadds.parsed e.1 e.2 he)
  cases new with
  | nil =>
    -- nothing added would be below the limit, and the second file can be parsed
    have himports : opening.imports.head?.map (·.source) = some "./b" := by
      decide +kernel
    obtain ⟨i, hi, hsource⟩ := Option.map_eq_some_iff.1 himports
    have htext : (⟨.root, ["b.ts"]⟩ : Path).text = "/b.ts" := by decide +kernel
    have hin := hadds.closed (by decide) "/a.ts" opening List.mem_cons_self i
      (List.mem_of_head? hi) ⟨.root, ["b.ts"]⟩ sequel (by rw [hsource]; rfl)
      (by decide +kernel) (by rw [htext]; rfl)
    rw [htext] at hin
    exact absurd hin (by decide)
  | cons e rest =>
    obtain rfl := hall e List.mem_cons_self
    have honce := hadds.once
    rw [Table.names_append] at honce
    have hrest : rest = [] := by
      refine List.eq_nil_iff_forall_not_mem.2 fun e he => ?_
      rw [hall e (List.mem_cons_of_mem _ he)] at he
      exact (List.nodup_cons.1 (List.nodup_append.1 honce).2.1).1
        (List.mem_map.2 ⟨_, he, rfl⟩)
    rw [hexpand, hrest]
    rfl

end Closure

end RenderLoop
