import RenderLoop.Project.Resolver
import RenderLoop.Proofs.Outcome
import Mathlib.Data.List.Perm.Subperm

/-!
# Paths free of links

There are two ways to follow a path. `FileSystem.walk` follows it to what is
there: it passes through so many links and no more, and gives up where a
directory is closed or a name is too long. `FileSystem.place` works out where
a path leads, whether or not there is anything: it takes a link that it cannot
see for a plain name, and watches for links that lead back to themselves.

Where both get along they follow the same ways, which `Leads` describes
without a bound: every name leads down, up, or through a link that can be
seen.

> `leads_of_walk`: where something is found, the names lead there.

> `place_of_leads`: where names lead, they are placed. On a way that ends no
> link is met again while it is followed, since the way behind a link takes
> fewer links than the way it is met on.

So a path with a file at its end can always be resolved (`exists_realPath`),
in a file system as it is found in practice (`Regular`): what is above the
current directory can be searched, no link is so far down that its path is too
long, and all names are names that files can have.

The resolved path then passes through no link and stands for itself, also when
it is written down and read again (`realPath_text`). Of a path that runs in
circles and goes on behind them only the names are kept, which may meet
another link (`exists_of_realPath`).

When the system refuses to answer is told by `exists_look`: only if a
directory is closed, or something is too long.
-/

namespace RenderLoop

/-! ### Names -/

namespace Path

/-- A name as directories have them. -/
def IsName (name : String) : Prop := name ≠ "" ∧ name ≠ "." ∧ '/' ∉ name.toList

/-- A name that a file can have. -/
def IsFileName (name : String) : Prop := IsName name ∧ nameFault? name = none

/-- A path whose names can all be read back when it is written down. -/
def Legible (p : Path) : Prop := ∀ name ∈ p.names, IsName name

/-- A path can be asked about if all its names can. -/
theorem fault?_eq_none {p : Path} :
    p.fault? = none ↔ ∀ name ∈ p.names, nameFault? name = none :=
  List.findSome?_eq_none_iff

theorem not_mem_of_mem_splitOn {α : Type} [BEq α] [LawfulBEq α] {a : α}
    {l part : List α} (h : part ∈ l.splitOn a) : a ∉ part := by
  induction l generalizing part with
  | nil =>
    obtain rfl : part = [] := by simpa [List.splitOn_nil] using h
    exact List.not_mem_nil
  | cons b l ih =>
    rw [List.splitOn_cons_eq_if_modifyHead] at h
    split at h
    · rcases List.mem_cons.1 h with rfl | h
      · exact List.not_mem_nil
      · exact ih h
    · next hb =>
      -- the first part grows by an element that is not `a`
      have hne : b ≠ a := by simpa using hb
      cases hparts : l.splitOn a with
      | nil => exact absurd hparts (List.splitOn_ne_nil a l)
      | cons first rest =>
        rw [hparts, List.modifyHead_cons] at h
        rcases List.mem_cons.1 h with rfl | h
        · refine List.mem_cons.not.2 (not_or.2 ⟨fun e => hne e.symm, ih ?_⟩)
          rw [hparts]
          exact List.mem_cons_self
        · refine ih ?_
          rw [hparts]
          exact List.mem_cons_of_mem _ h

/-- What is read from a text can be written down again. -/
theorem legible_ofString (written : String) : (ofString written).Legible := by
  intro name hname
  obtain ⟨hname, hne⟩ := List.mem_filter.1 hname
  obtain ⟨part, hpart, rfl⟩ := List.mem_map.1 hname
  obtain ⟨hempty, hdot⟩ : String.ofList part ≠ "" ∧
    String.ofList part ≠ "." := by simpa using hne
  refine ⟨hempty, hdot, ?_⟩
  rw [String.toList_ofList]
  exact not_mem_of_mem_splitOn hpart

/-- Names that are joined by slashes are read back. -/
theorem namesOf_slash {names : List String} (h : ∀ name ∈ names, IsName name) :
    namesOf ("/" ++ "/".intercalate names) = names := by
  have hkeep : names.filter (fun n => n != "" && n != ".") = names :=
    List.filter_eq_self.2 fun name hname => by
      simp [(h name hname).1, (h name hname).2.1]
  have htexts : (names.map String.toList).map String.ofList = names := by simp
  unfold namesOf
  rw [String.toList_append, String.toList_intercalate]
  show List.filter _
    (List.map _ (List.splitOn '/' ('/' :: ['/'].intercalate _))) = names
  rw [List.splitOn_cons_eq_if_modifyHead, if_pos (beq_self_eq_true _)]
  cases names with
  | nil => rfl
  | cons name rest =>
    rw [List.splitOn_intercalate '/' ?_ (by simp), List.map_cons, htexts]
    · exact hkeep
    · intro l hl
      obtain ⟨n, hn, rfl⟩ := List.mem_map.1 hl
      exact (h n hn).2.2

theorem anchorOf_slash {cs : List Char} (h : cs.head? ≠ some '/') :
    anchorOf ('/' :: cs) = .root := by
  cases cs with
  | nil => rfl
  | cons c rest =>
    have hc : c ≠ '/' := by simpa using h
    simp [anchorOf, hc]

theorem head?_intercalate {names : List String}
    (h : ∀ name ∈ names, IsName name) :
    (['/'].intercalate (names.map String.toList)).head? ≠ some '/' := by
  cases names with
  | nil => simp
  | cons name rest =>
    obtain ⟨hempty, -, hslash⟩ := h name List.mem_cons_self
    have hlist : name.toList ≠ [] := by simpa using hempty
    obtain ⟨c, cs, hcs⟩ := List.exists_cons_of_ne_nil hlist
    have hc : c ≠ '/' := by
      rintro rfl
      exact hslash (hcs ▸ List.mem_cons_self)
    cases rest <;> simp [List.intercalate, hcs, hc]

/-- A legible path from the root is read back as it was written down. -/
theorem ofString_text {names : List String} (h : ∀ name ∈ names, IsName name) :
    ofString (text ⟨.root, names⟩) = ⟨.root, names⟩ := by
  have htext : text ⟨.root, names⟩ = "/" ++ "/".intercalate names := by
    simp [text, anchorText]
  have hanchor : anchorOf ("/" ++ "/".intercalate names).toList = .root := by
    rw [String.toList_append, String.toList_intercalate]
    exact anchorOf_slash (head?_intercalate h)
  unfold ofString
  rw [htext, namesOf_slash h, hanchor]

end Path

namespace FileSystem

variable {fs : FileSystem}

/-! ### Where names lead -/

/-- Names lead from one place to another, through `n` links in all that can be
seen. -/
inductive Leads (fs : FileSystem) : Nat → Place → List String → Place → Prop
  | here {place : Place} : Leads fs 0 place [] place
  | up {n : Nat} {place there : Place} {rest : List String}
      (h : Leads fs n place.dropLast rest there) :
    Leads fs n place (".." :: rest) there
  | down {n : Nat} {place there : Place} {name : String} {rest : List String}
      (hname : name ≠ "..") (hlink : fs.linkAt? (place ++ [name]) = none)
      (h : Leads fs n (place ++ [name]) rest there) :
    Leads fs n place (name :: rest) there
  | link {n m : Nat} {place mid there : Place} {name : String}
      {rest : List String} {target : Path} (hname : name ≠ "..")
      (hlink : fs.linkAt? (place ++ [name]) = some target)
      (htarget : Leads fs m (linkStart place target) target.names mid)
      (h : Leads fs n mid rest there) :
    Leads fs (m + n + 1) place (name :: rest) there

/-- Names lead to one place only, and by one way. -/
theorem Leads.unique {n m : Nat} {place there other : Place}
    {names : List String} (h : fs.Leads n place names there)
    (h' : fs.Leads m place names other) : n = m ∧ there = other := by
  induction h generalizing m other with
  | here =>
    cases h'
    exact ⟨rfl, rfl⟩
  | up _ ih =>
    cases h' with
    | up h' => exact ih h'
    | down hname => exact absurd rfl hname
    | link hname => exact absurd rfl hname
  | down hname hlink _ ih =>
    cases h' with
    | up => exact absurd rfl hname
    | down _ _ h' => exact ih h'
    | link _ hlink' => cases hlink.symm.trans hlink'
  | link hname hlink _ _ ihTarget ih =>
    cases h' with
    | up => exact absurd rfl hname
    | down _ hlink' => cases hlink.symm.trans hlink'
    | link _ hlink' htarget' h' =>
      cases hlink.symm.trans hlink'
      obtain ⟨rfl, rfl⟩ := ihTarget htarget'
      obtain ⟨rfl, rfl⟩ := ih h'
      exact ⟨rfl, rfl⟩

/-- A way can be cut where its names are. -/
theorem Leads.split {n : Nat} {place there : Place} {front rest : List String}
    (h : fs.Leads n place (front ++ rest) there) :
    ∃ m k mid, fs.Leads m place front mid ∧ fs.Leads k mid rest there := by
  induction front generalizing n place with
  | nil => exact ⟨0, n, place, .here, h⟩
  | cons name front ih =>
    cases h with
    | up h =>
      obtain ⟨m, k, mid, hfront, hrest⟩ := ih h
      exact ⟨m, k, mid, .up hfront, hrest⟩
    | down hname hlink h =>
      obtain ⟨m, k, mid, hfront, hrest⟩ := ih h
      exact ⟨m, k, mid, .down hname hlink hfront, hrest⟩
    | link hname hlink htarget h =>
      obtain ⟨m, k, mid, hfront, hrest⟩ := ih h
      exact ⟨_, k, mid, .link hname hlink htarget hfront, hrest⟩

/-! ### What can be seen -/

/-- No directory above a place is closed. -/
def Opened (fs : FileSystem) (place : Place) : Prop :=
  ∀ d ∈ fs.closed, d <+: place → d = place

/-- A place whose path can be asked about, as far as its length goes. -/
def Fits (fs : FileSystem) (spot : Place) : Prop :=
  (⟨.root, spot⟩ : Path).size ≤ fs.limits.path ∧
    ∀ name ∈ spot, Path.bytesOf name ≤ fs.limits.name

theorem opened_nil : fs.Opened [] := fun _ _ h => List.prefix_nil.1 h

theorem Opened.dropLast {place : Place} (h : fs.Opened place) :
    fs.Opened place.dropLast := by
  intro d hd habove
  -- a closed directory above the shorter place is above the longer one too
  have hsame := h d hd (habove.trans (List.dropLast_prefix place))
  subst hsame
  exact habove.eq_of_length (Nat.le_antisymm habove.length_le (by simp))

theorem Opened.concat {place : Place} {name : String} (h : fs.Opened place)
    (hclosed : fs.closed.contains place = false) :
    fs.Opened (place ++ [name]) := by
  intro d hd habove
  rcases List.prefix_concat_iff.1 habove with rfl | habove
  · rfl
  · obtain rfl := h d hd habove
    simp [hd] at hclosed

theorem Opened.linkStart {place : Place} (h : fs.Opened place) (target : Path) :
    fs.Opened (linkStart place target) := by
  unfold FileSystem.linkStart
  split
  · exact opened_nil
  · exact h

/-- A place that is not too far down and not behind a closed directory can be
seen. -/
theorem reaches_of_opened {spot : Place} (hfits : fs.Fits spot)
    (hopen : fs.Opened spot) :
    fs.reaches spot = true := by
  have hclosed : fs.closed.any (fun d => decide (d.length < spot.length) &&
      d.isPrefixOf spot) = false := by
    refine List.any_eq_false.2 fun d hd h => ?_
    obtain ⟨hlength, habove⟩ := Bool.and_eq_true_iff.1 h
    obtain rfl := hopen d hd (List.isPrefixOf_iff_prefix.1 habove)
    simp at hlength
  unfold reaches
  rw [hclosed, decide_eq_true hfits.1, List.all_eq_true.2 fun name hname =>
    decide_eq_true (hfits.2 name hname)]
  rfl

/-- A link is seen where there is one, if the place can be reached at all. -/
theorem linkAt?_eq_some {spot : Place} {target : Path} :
    fs.linkAt? spot = some target ↔ fs.reaches spot = true ∧
    fs.itemAt? spot = some (.link target) := by
  unfold linkAt?
  split
  · next hreaches =>
    split
    · next other hitem => simp [hreaches, hitem]
    · next hother =>
      refine ⟨fun h => ?_, fun h => absurd h.2 (hother target)⟩
      cases h
  · next hreaches => simp [hreaches]

theorem linkAt?_of_item {spot : Place}
    (h : ∀ target, fs.itemAt? spot ≠ some (.link target)) :
    fs.linkAt? spot = none :=
  Option.eq_none_iff_forall_ne_some.2 fun target hlink =>
    h target (linkAt?_eq_some.1 hlink).2

/-- Where something is found, the names lead there. -/
theorem leads_of_walk
    (hlinks : ∀ spot target, fs.itemAt? spot = some (.link target) →
      fs.Fits spot) {links : Nat} {here there : Place} {names : List String}
    {item : Item} (hopen : fs.Opened here)
    (h : fs.walk links here names = .ok (some (there, item))) :
    ∃ n, fs.Leads n here names there := by
  fun_induction walk fs links here names with
  | case1 links here =>
    cases h
    exact ⟨0, .here⟩
  | case3 links here name rest _ hup ih =>
    obtain rfl : name = ".." := by simpa using hup
    obtain ⟨n, hn⟩ := ih hopen.dropLast h
    exact ⟨n, .up hn⟩
  | case5 links here name rest _ hname _ f hitem =>
    split at h
    · next hrest =>
      cases h
      obtain rfl : rest = [] := by simpa using hrest
      exact ⟨0, .down (by simpa using hname)
        (linkAt?_of_item (by simp [hitem])) .here⟩
    · cases h
  | case6 links here name rest hclosed hname _ hitem ih =>
    obtain ⟨n, hn⟩ := ih (hopen.concat (by simpa using hclosed)) h
    exact ⟨n, .down (by simpa using hname)
      (linkAt?_of_item (by simp [hitem])) hn⟩
  | case8 here name rest hclosed hname _ target hitem left ih =>
    -- the names behind the link are followed together with those of its target
    obtain ⟨n, hn⟩ := ih (hopen.linkStart target) h
    obtain ⟨m, k, mid, htarget, hrest⟩ := hn.split
    have hspot : fs.Opened (here ++ [name]) :=
      hopen.concat (by simpa using hclosed)
    have hseen := linkAt?_eq_some.2
      ⟨reaches_of_opened (hlinks _ target hitem) hspot, hitem⟩
    exact ⟨_, .link (by simpa using hname) hseen htarget hrest⟩
  | _ => cases h

/-! ### Steps of a placement -/

section

variable {links : Nat} {active : List Place} {here : Place} {name : String}
  {rest : List String}

/-- Double points lead to the directory above. -/
theorem place_up : fs.place links active here (".." :: rest) =
    fs.place links active here.dropLast rest := by
  rw [place, if_pos (beq_self_eq_true _)]

/-- A name that is not a link is gone into. -/
theorem place_down (hname : name ≠ "..")
    (hlink : fs.linkAt? (here ++ [name]) = none) :
    fs.place links active here (name :: rest) =
      fs.place links active (here ++ [name]) rest := by
  rw [place, if_neg (by simpa using hname)]
  simp only [hlink]

/-- A link is replaced by the place where its target leads. -/
theorem place_link {mid : Place} {target : Path} (hname : name ≠ "..")
    (hlink : fs.linkAt? (here ++ [name]) = some target)
    (hactive : here ++ [name] ∉ active)
    (htarget : fs.place links ((here ++ [name]) :: active)
      (linkStart here target) target.names = .ok mid) :
    fs.place (links + 1) active here (name :: rest) =
      fs.place (links + 1) active mid rest := by
  rw [place, if_neg (by simpa using hname)]
  simp only [hlink, htarget, if_neg (mt List.contains_iff_mem.1 hactive)]

end

/-! ### Loops -/

/-- The way behind a link goes through `n` links. -/
def Behind (fs : FileSystem) (n : Nat) (spot : Place) : Prop :=
  ∃ place name target there, spot = place ++ [name] ∧
    fs.linkAt? spot = some target ∧
    fs.Leads n (linkStart place target) target.names there

/-- How many links stand behind a link is determined by it. -/
theorem Behind.unique {n m : Nat} {spot : Place} (h : fs.Behind n spot)
    (h' : fs.Behind m spot) :
    n = m := by
  obtain ⟨place, name, target, there, rfl, hlink, hleads⟩ := h
  obtain ⟨place', name', target', there', hspot, hlink', hleads'⟩ := h'
  obtain ⟨rfl, -⟩ := List.append_inj' hspot rfl
  cases hlink.symm.trans hlink'
  exact (hleads.unique hleads').1

/-- Different places with links are no more than there are links. -/
theorem length_le_linkCount {spots : List Place} (hnodup : spots.Nodup)
    (hlinks : ∀ spot ∈ spots, ∃ target, fs.linkAt? spot = some target) :
    spots.length ≤ fs.linkCount := by
  unfold linkCount
  rw [List.countP_eq_length_filter]
  refine Nat.le_trans ?_ (Nat.le_of_eq (List.length_map (·.1)))
  refine (hnodup.subperm fun spot hspot => ?_).length_le
  obtain ⟨target, hlink⟩ := hlinks spot hspot
  have htarget := (linkAt?_eq_some.1 hlink).2
  unfold itemAt? at htarget
  split at htarget
  · cases htarget
  · obtain ⟨⟨place, item⟩, he, hitem⟩ := Option.map_eq_some_iff.1 htarget
    obtain rfl : place = spot := by simpa using List.find?_some he
    cases hitem
    exact List.mem_map.2
      ⟨_, List.mem_filter.2 ⟨List.mem_of_find?_eq_some he, rfl⟩, rfl⟩

/-- Where names lead, they are placed. `active` are links whose way is at
least as long as the one ahead, so that none of them is met on it. -/
theorem place_of_leads {n : Nat} {here there : Place} {names : List String}
    (h : fs.Leads n here names there) {links : Nat} {active : List Place}
    (hnodup : active.Nodup)
    (hactive : ∀ spot ∈ active, ∃ m, n ≤ m ∧ fs.Behind m spot)
    (hlinks : active.length + links = fs.linkCount + 1) :
    fs.place links active here names = .ok there := by
  induction h generalizing links active with
  | here => rw [place]
  | up _ ih =>
    rw [place_up]
    exact ih hnodup hactive hlinks
  | down hname hlink _ ih =>
    rw [place_down hname hlink]
    exact ih hnodup hactive hlinks
  | @link n m here mid there name rest target hname hlink htarget hrest
      ihTarget ih =>
    have hbehind : fs.Behind m (here ++ [name]) :=
      ⟨here, name, target, mid, rfl, hlink, htarget⟩
    -- the way behind this link is shorter than the one it is met on, so it
    -- cannot be active
    have hfresh : here ++ [name] ∉ active := by
      intro hmem
      obtain ⟨k, hk, hbehind'⟩ := hactive _ hmem
      have := hbehind.unique hbehind'
      omega
    have hcount : active.length ≤ fs.linkCount := by
      refine length_le_linkCount hnodup fun spot hspot => ?_
      obtain ⟨k, -, place, name, target, there, -, hlink, -⟩ :=
        hactive spot hspot
      exact ⟨target, hlink⟩
    -- each active link is another one, so there is room for one more
    obtain ⟨left, rfl⟩ : ∃ left, links = left + 1 := ⟨links - 1, by omega⟩
    have hinner : fs.place left ((here ++ [name]) :: active)
        (linkStart here target) target.names = .ok mid := by
      refine ihTarget (List.nodup_cons.2 ⟨hfresh, hnodup⟩)
        (fun spot hspot => ?_) ?_
      · rcases List.mem_cons.1 hspot with rfl | hspot
        · exact ⟨m, Nat.le_refl m, hbehind⟩
        · obtain ⟨k, hk, hbehind'⟩ := hactive spot hspot
          exact ⟨k, by omega, hbehind'⟩
      · rw [List.length_cons]
        omega
    rw [place_link hname hlink hfresh hinner]
    refine ih hnodup (fun spot hspot => ?_) hlinks
    obtain ⟨k, hk, hbehind'⟩ := hactive spot hspot
    exact ⟨k, by omega, hbehind'⟩

/-- Where names are placed, they lead. -/
theorem leads_of_place (fs : FileSystem) (links : Nat) (active : List Place)
    (here : Place) (names : List String) :
    ∀ there, fs.place links active here names = .ok there →
      ∃ n, fs.Leads n here names there := by
  fun_induction place fs links active here names with
  | case1 links active here =>
    intro there h
    cases h
    exact ⟨0, .here⟩
  | case2 links active here name rest hup ih =>
    intro there h
    obtain rfl : name = ".." := by simpa using hup
    obtain ⟨n, hn⟩ := ih there h
    exact ⟨n, .up hn⟩
  | case5 active here name rest hname spot target hlink left _ mid hmid
      ihTarget ih =>
    intro there h
    obtain ⟨m, hm⟩ := ihTarget mid hmid
    obtain ⟨n, hn⟩ := ih there h
    exact ⟨_, .link (by simpa using hname) hlink hm hn⟩
  | case7 links active here name rest hname spot hlink ih =>
    intro there h
    obtain ⟨n, hn⟩ := ih there h
    exact ⟨n, .down (by simpa using hname) hlink hn⟩
  | _ =>
    intro there h
    cases h

/-- Names are placed exactly where they lead. -/
theorem place_eq_ok {here there : Place} {names : List String} :
    fs.place (fs.linkCount + 1) [] here names = .ok there ↔
      ∃ n, fs.Leads n here names there := by
  constructor
  · exact leads_of_place fs _ _ here names there
  · rintro ⟨n, hn⟩
    exact place_of_leads hn .nil (by simp) (by simp)

/-! ### Resolved paths -/

/-- A path is resolved to where its names lead. -/
theorem realPath_of_leads {p : Path} {n : Nat} {there : Place}
    (hfault : p.fault? = none)
    (h : fs.Leads n (fs.startOf p) p.names there) :
    fs.realPath p = .ok ⟨.root, there⟩ := by
  rw [realPath, mapError_eq_ok, resolve, hfault]
  simp only [place_eq_ok.2 ⟨n, h⟩]

/-- What a path is resolved to is where its names lead, or what is left of
them behind a loop. -/
theorem exists_of_realPath {p q : Path} (h : fs.realPath p = .ok q) :
    ∃ there, q = ⟨.root, there⟩ ∧
      ((∃ n, fs.Leads n (fs.startOf p) p.names there) ∨
        ∃ left, fs.place (fs.linkCount + 1) [] (fs.startOf p) p.names =
          .error left ∧ there = unwind [] left) := by
  rw [realPath, mapError_eq_ok, resolve] at h
  split at h
  · cases h
  · split at h
    · next there hplace =>
      cases h
      exact ⟨there, rfl, .inl (place_eq_ok.1 hplace)⟩
    · next left hplace =>
      simp only at h
      split at h
      · cases h
      · cases h
        exact ⟨_, rfl, .inr ⟨left, hplace, rfl⟩⟩

/-- A place that is named without links and double points. -/
def Plain (fs : FileSystem) (place : Place) : Prop :=
  ".." ∉ place ∧ ∀ spot, spot <+: place → fs.linkAt? spot = none

theorem linkAt?_nil : fs.linkAt? [] = none :=
  linkAt?_of_item fun _ h => by cases h

theorem plain_nil : fs.Plain [] := by
  refine ⟨List.not_mem_nil, fun spot hspot => ?_⟩
  rw [List.prefix_nil.1 hspot]
  exact linkAt?_nil

theorem Plain.dropLast {place : Place} (h : fs.Plain place) :
    fs.Plain place.dropLast :=
  ⟨fun hup => h.1 (List.dropLast_subset place hup), fun spot hspot =>
    h.2 spot (hspot.trans (List.dropLast_prefix place))⟩

theorem Plain.concat {place : Place} {name : String} (h : fs.Plain place)
    (hname : name ≠ "..") (hlink : fs.linkAt? (place ++ [name]) = none) :
    fs.Plain (place ++ [name]) := by
  refine ⟨?_, fun spot hspot => ?_⟩
  · simp [h.1, hname.symm]
  · rcases List.prefix_concat_iff.1 hspot with rfl | hspot
    · exact hlink
    · exact h.2 spot hspot

theorem Plain.linkStart {place : Place} (h : fs.Plain place) (target : Path) :
    fs.Plain (linkStart place target) := by
  unfold FileSystem.linkStart
  split
  · exact plain_nil
  · exact h

/-- Names lead from plain places to plain places. -/
theorem Leads.plain {n : Nat} {here there : Place} {names : List String}
    (h : fs.Leads n here names there) (hhere : fs.Plain here) :
    fs.Plain there := by
  induction h with
  | here => exact hhere
  | up _ ih => exact ih hhere.dropLast
  | down hname hlink _ ih => exact ih (hhere.concat hname hlink)
  | link _ _ _ _ ihTarget ih => exact ih (ihTarget (hhere.linkStart _))

/-- A plain place is where its own names lead. -/
theorem leads_plain {here : Place} {names : List String}
    (h : fs.Plain (here ++ names)) :
    fs.Leads 0 here names (here ++ names) := by
  induction names generalizing here with
  | nil =>
    rw [List.append_nil]
    exact .here
  | cons name rest ih =>
    have hname : name ≠ ".." := by
      rintro rfl
      exact h.1 (List.mem_append_right _ List.mem_cons_self)
    have happend : here ++ name :: rest = here ++ [name] ++ rest := by simp
    rw [happend] at h ⊢
    exact .down hname (h.2 _ (List.prefix_append _ _)) (ih h)

/-- A path without links and double points is its own real path. -/
theorem realPath_of_plain {place : Place} (h : fs.Plain place)
    (hnames : ∀ name ∈ place, Path.nameFault? name = none) :
    fs.realPath ⟨.root, place⟩ = .ok ⟨.root, place⟩ :=
  realPath_of_leads (Path.fault?_eq_none.2 hnames) (leads_plain h)

/-! ### File systems as they are found -/

section

variable {P : String → Prop}

theorem forall_names_dropLast {here : Place} (hhere : ∀ name ∈ here, P name) :
    ∀ name ∈ here.dropLast, P name :=
  fun name hname => hhere name (List.dropLast_subset here hname)

theorem forall_names_concat {here : Place} {last : String}
    (hhere : ∀ name ∈ here, P name) (hlast : P last) :
    ∀ name ∈ here ++ [last], P name :=
  List.forall_mem_append.2 ⟨hhere, List.forall_mem_singleton.2 hlast⟩

theorem forall_names_linkStart {here : Place} {target : Path}
    (hhere : ∀ name ∈ here, P name) :
    ∀ name ∈ linkStart here target, P name := by
  unfold linkStart
  split
  · exact fun _ h => absurd h List.not_mem_nil
  · exact hhere

theorem forall_names_unwind (here : Place) (names : List String) :
    (∀ name ∈ here, P name) → (∀ name ∈ names, P name) →
      ∀ name ∈ unwind here names, P name := by
  fun_induction unwind here names with
  | case1 here => exact fun hhere _ => hhere
  | case2 here name rest hup ih =>
    intro hhere hnames
    exact ih (forall_names_dropLast hhere) (List.forall_mem_cons.1 hnames).2
  | case3 here name rest hname ih =>
    intro hhere hnames
    obtain ⟨hfirst, hrest⟩ := List.forall_mem_cons.1 hnames
    exact ih (forall_names_concat hhere hfirst) hrest

/-- What all names have is kept where they are placed, and also in what is left
of them behind a loop, if the targets of links have it too. -/
theorem forall_names_place
    (htargets : ∀ spot target, fs.itemAt? spot = some (.link target) →
      ∀ name ∈ target.names, P name)
    (links : Nat) (active : List Place) (here : Place) (names : List String) :
    (∀ name ∈ here, P name) → (∀ name ∈ names, P name) → ∀ there,
      fs.place links active here names = .ok there ∨
        fs.place links active here names = .error there →
      ∀ name ∈ there, P name := by
  fun_induction place fs links active here names with
  | case1 links active here =>
    rintro hhere - there (h | h)
    · cases h
      exact hhere
    · cases h
  | case2 links active here name rest hup ih =>
    intro hhere hnames
    exact ih (forall_names_dropLast hhere) (List.forall_mem_cons.1 hnames).2
  | case5 active here name rest hname spot target hlink left _ mid hmid
      ihTarget ih =>
    intro hhere hnames
    have htarget := htargets _ target (linkAt?_eq_some.1 hlink).2
    exact ih (ihTarget (forall_names_linkStart hhere) htarget mid (.inl hmid))
      (List.forall_mem_cons.1 hnames).2
  | case6 active here name rest hname spot target hlink left _ stuck hstuck
      ihTarget =>
    rintro hhere hnames there (h | h)
    · cases h
    · cases h
      have htarget := htargets _ target (linkAt?_eq_some.1 hlink).2
      exact List.forall_mem_append.2
        ⟨ihTarget (forall_names_linkStart hhere) htarget stuck (.inr hstuck),
          (List.forall_mem_cons.1 hnames).2⟩
  | case7 links active here name rest hname spot hlink ih =>
    intro hhere hnames
    obtain ⟨hfirst, hrest⟩ := List.forall_mem_cons.1 hnames
    exact ih (forall_names_concat hhere hfirst) hrest
  | _ =>
    -- a link is met again, or there are more than can be
    rintro hhere hnames there (h | h)
    · cases h
    · cases h
      obtain ⟨hfirst, hrest⟩ := List.forall_mem_cons.1 hnames
      exact List.forall_mem_append.2
        ⟨forall_names_concat hhere hfirst, hrest⟩

/-- What all names have is kept in a resolved path. -/
theorem forall_names_realPath
    (htargets : ∀ spot target, fs.itemAt? spot = some (.link target) →
      ∀ name ∈ target.names, P name)
    {p q : Path} (h : fs.realPath p = .ok q)
    (hstart : ∀ name ∈ fs.startOf p, P name)
    (hnames : ∀ name ∈ p.names, P name) : ∀ name ∈ q.names, P name := by
  have hplace := forall_names_place htargets (fs.linkCount + 1) []
    (fs.startOf p) p.names hstart hnames
  obtain ⟨there, rfl, hleads | ⟨left, hleft, rfl⟩⟩ := exists_of_realPath h
  · exact hplace there (.inl (place_eq_ok.2 hleads))
  · exact forall_names_unwind [] left (fun _ h => absurd h List.not_mem_nil)
      (hplace left (.inr hleft))

end

/-- A file system as it is found: the current directory is named in full and
nothing above it is closed, all names are names of files, and no link is so
far down that its path is too long. -/
structure Regular (fs : FileSystem) : Prop where
  plain : fs.Plain fs.current
  opened : fs.Opened fs.current
  named : ∀ name ∈ fs.current, Path.IsFileName name
  targets : ∀ spot target, fs.itemAt? spot = some (.link target) →
    ∀ name ∈ target.names, Path.IsFileName name
  fits : ∀ spot target, fs.itemAt? spot = some (.link target) → fs.Fits spot

namespace Regular

/-- What holds of the root and of the current directory holds where a path
starts. -/
theorem startOf_cases {P : Place → Prop} (hroot : P [])
    (hcurrent : P fs.current) (p : Path) :
    P (fs.startOf p) := by
  unfold startOf
  split
  · exact hroot
  · exact hcurrent

theorem plain_startOf (hfs : fs.Regular) (p : Path) : fs.Plain (fs.startOf p) :=
  startOf_cases plain_nil hfs.plain p

/-- Where a path starts from, nothing above is closed. -/
theorem opened_startOf (hfs : fs.Regular) (p : Path) :
    fs.Opened (fs.startOf p) :=
  startOf_cases opened_nil hfs.opened p

theorem named_startOf (hfs : fs.Regular) (p : Path) :
    ∀ name ∈ fs.startOf p, Path.IsFileName name :=
  startOf_cases (P := fun place => ∀ name ∈ place, Path.IsFileName name)
    (fun _ h => absurd h List.not_mem_nil) hfs.named p

end Regular

/-- What is found at the end of a path is found by following its names. -/
theorem walk_of_look {p : Path} {found : Place × Item}
    (h : fs.look p = .ok (some found)) :
    p.fault? = none ∧ fs.walk maxLinks (fs.startOf p) p.names =
      .ok (some found) := by
  unfold look at h
  split at h
  · cases h
  · next hgood =>
    unfold seek at h
    split at h
    · cases h
    · refine ⟨?_, h⟩
      obtain ⟨hfault, -⟩ := not_or.1 (mt Bool.or_eq_true_iff.2 hgood)
      simpa using hfault

theorem exists_of_isFile {p : Path} (h : fs.isFile p = .ok true) :
    ∃ place f, fs.look p = .ok (some (place, .file f)) := by
  unfold isFile at h
  obtain ⟨found, hfound, h⟩ := bind_eq_ok.1 h
  split at h
  · next place f => exact ⟨place, f, hfound⟩
  · cases h

/-- A path whose names and length are in order leads to what is found by
following its names. -/
theorem look_of_walk {p : Path} {found : Option (Place × Item)}
    (hfault : p.fault? = none) (hsize : p.size ≤ fs.limits.path)
    (h : fs.walk maxLinks (fs.startOf p) p.names = .ok found) :
    fs.look p = .ok found := by
  have hseek : fs.seek p = .ok found := by
    rw [seek, if_neg (Nat.not_lt.2 hsize), h]
  have hcircles : fs.circles p = false := by rw [circles, hseek]
  rw [look, hfault, hcircles]
  exact hseek

/-- A file in the root directory is found under its name. -/
theorem look_of_item {name : String} {f : StoredFile} (hname : name ≠ "..")
    (hfault : Path.nameFault? name = none)
    (hsize : (⟨.root, [name]⟩ : Path).size ≤ fs.limits.path ∧
      Path.bytesOf name ≤ fs.limits.name)
    (hclosed : fs.closed.contains [] = false)
    (hitem : fs.itemAt? [name] = some (.file f)) :
    fs.look ⟨.root, [name]⟩ = .ok (some ([name], .file f)) := by
  have hpath : (⟨.root, [name]⟩ : Path).fault? = none :=
    Path.fault?_eq_none.2 (by simpa using hfault)
  refine look_of_walk hpath hsize.1 ?_
  show fs.walk maxLinks [] [name] = _
  rw [walk, hclosed, if_neg (by decide), if_neg (by simpa using hname),
    if_neg (Nat.not_lt.2 hsize.2)]
  simp only [List.nil_append, hitem]
  rfl

/-- What is found to be a file is one. -/
theorem isFile_of_look {p : Path} {place : Place} {f : StoredFile}
    (h : fs.look p = .ok (some (place, .file f))) : fs.isFile p = .ok true :=
  bind_eq_ok.2 ⟨_, h, rfl⟩

/-- The content of a file is only had by following its path. -/
theorem exists_look_of_file? {p : Path} {f : StoredFile}
    (h : fs.file? p = some f) :
    ∃ place, fs.look p = .ok (some (place, .file f)) := by
  unfold file? at h
  split at h
  · next place content hfind =>
    cases h
    exact ⟨place, toOption_eq_some.1 (Option.join_eq_some_iff.1 hfind)⟩
  · cases h

theorem file?_of_look {p : Path} {place : Place} {f : StoredFile}
    (h : fs.look p = .ok (some (place, .file f))) : fs.file? p = some f := by
  unfold file? find?
  rw [h]
  rfl

/-- A path with a file at its end can be resolved, and what it is resolved to
stands for itself. -/
theorem Regular.exists_realPath (hfs : fs.Regular) {p : Path}
    (h : fs.isFile p = .ok true) :
    ∃ q, fs.realPath p = .ok q ∧ fs.realPath q = .ok q := by
  obtain ⟨place, f, hlook⟩ := exists_of_isFile h
  obtain ⟨hfault, hwalk⟩ := walk_of_look hlook
  obtain ⟨n, hn⟩ := leads_of_walk hfs.fits (hfs.opened_startOf p) hwalk
  have hreal := realPath_of_leads hfault hn
  refine ⟨_, hreal, realPath_of_plain (hn.plain (hfs.plain_startOf p)) ?_⟩
  exact forall_names_realPath (P := fun name => Path.nameFault? name = none)
    (fun spot target hlink name hname =>
      (hfs.targets spot target hlink name hname).2) hreal
    (fun name hname => (hfs.named_startOf p name hname).2)
    (Path.fault?_eq_none.1 hfault)

/-- Real paths can be written down and read back. -/
theorem Regular.legible_realPath (hfs : fs.Regular) {p q : Path}
    (h : fs.realPath p = .ok q) (hp : p.Legible) : q.Legible :=
  forall_names_realPath (fun spot target hlink name hname =>
    (hfs.targets spot target hlink name hname).1) h
    (fun name hname => (hfs.named_startOf p name hname).1) hp

/-- A path that stands for itself is resolved to itself also when it is
written down and read again. -/
theorem realPath_text {q : Path} (h : fs.realPath q = .ok q) (hq : q.Legible) :
    fs.realPath (.ofString q.text) = .ok q := by
  obtain ⟨there, rfl, -⟩ := exists_of_realPath h
  rw [Path.ofString_text hq]
  exact h

/-! ### Refusals -/

/-- A question about a file is refused iff the path may not be looked at. -/
theorem isFile_eq_error {p : Path} {e : PathError} :
    fs.isFile p = .error e ↔ fs.look p = .error e := by
  unfold isFile
  cases fs.look p with
  | error e' => simp [bind, Except.bind]
  | ok found =>
    simp only [bind, Except.bind]
    split <;> simp [pure, Except.pure]

/-- Asking for a directory fails just as following the path does. -/
theorem isDirectory_eq_error {p : Path} {e : PathError} :
    fs.isDirectory p = .error e ↔ fs.look p = .error e := by
  unfold isDirectory
  cases fs.look p with
  | error e' => simp [bind, Except.bind]
  | ok found =>
    simp only [bind, Except.bind]
    split <;> simp [pure, Except.pure]

/-- If no directory is closed and no name is too long, nothing but links can
keep the system from following names to their end. -/
theorem linkLoop_of_walk (hopen : fs.closed = [])
    (hlinks : ∀ spot target, fs.itemAt? spot = some (.link target) →
      ∀ name ∈ target.names, Path.bytesOf name ≤ fs.limits.name)
    {links : Nat} {here : Place} {names : List String} {e : PathError}
    (hnames : ∀ name ∈ names, Path.bytesOf name ≤ fs.limits.name)
    (h : fs.walk links here names = .error e) : ∃ q, e = .linkLoop q := by
  fun_induction walk fs links here names with
  | case2 links here name rest hclosed => simp [hopen] at hclosed
  | case3 links here name rest _ _ ih =>
    exact ih (List.forall_mem_cons.1 hnames).2 h
  | case4 links here name rest _ _ hlong =>
    exact absurd (hnames name List.mem_cons_self) (Nat.not_le.2 hlong)
  | case6 links here name rest _ _ _ _ ih =>
    exact ih (List.forall_mem_cons.1 hnames).2 h
  | case7 =>
    cases h
    exact ⟨_, rfl⟩
  | case8 here name rest _ _ _ target hitem left ih =>
    exact ih (List.forall_mem_append.2 ⟨hlinks _ target hitem,
      (List.forall_mem_cons.1 hnames).2⟩) h
  | _ => cases h

/-- The system answers every question about a path that is not too long, if no
directory is closed. -/
theorem exists_look (hopen : fs.closed = [])
    (hlinks : ∀ spot target, fs.itemAt? spot = some (.link target) →
      ∀ name ∈ target.names, Path.bytesOf name ≤ fs.limits.name)
    {p : Path} (hsize : p.size ≤ fs.limits.path)
    (hnames : ∀ name ∈ p.names, Path.bytesOf name ≤ fs.limits.name) :
    ∃ found, fs.look p = .ok found := by
  unfold look
  split
  · exact ⟨none, rfl⟩
  · next hgood =>
    obtain ⟨-, hcircles⟩ := not_or.1 (mt Bool.or_eq_true_iff.2 hgood)
    cases hseek : fs.seek p with
    | ok found => exact ⟨found, rfl⟩
    | error e =>
      have hwalk := hseek
      rw [seek, if_neg (Nat.not_lt.2 hsize)] at hwalk
      obtain ⟨q, rfl⟩ := linkLoop_of_walk hopen hlinks hnames hwalk
      exact absurd (by rw [circles, hseek]) hcircles

end FileSystem

end RenderLoop
