import RenderLoop.Data.Table

/-!
# Names, listed once and in order

`sortedUnique` keeps exactly the names it is given (`mem_sortedUnique`) and
lists them in strictly increasing order (`pairwise_sortedUnique`), so that a
filtered listing is again in order. A table holds no entry it was not given
(`Table.mem_of_mem_ofEntries`), and if no name is repeated it finds all of
them (`Table.get?_eq_some_iff`).

Both are about lists, and are proved by induction over them. Removing
repetitions is a recursion over what is left of the list, so it has an
induction of its own (`eraseDups_induction`). Where the order of a listing
matters, two listings in strictly increasing order with the same members are
equal (`eq_of_pairwise_lt`): that is what makes results independent of the
order of their input.

Tables are lists of entries in the order in which they were made. An entry
that is inserted again keeps its place and gets the new value
(`Table.names_insert_of_mem`), a new one goes to the end.
-/

namespace RenderLoop

/-- Induction along the removal of repetitions. What is kept behind the head
is shorter than the tail, but no part of it. -/
theorem eraseDups_induction {α : Type} [BEq α] {P : List α → Prop} (hnil : P [])
    (hcons : ∀ a rest, P (rest.filter fun b => !b == a) → P (a :: rest))
    (l : List α) : P l := by
  induction hn : l.length using Nat.strongRecOn generalizing l with
  | ind n ih =>
    cases l with
    | nil => exact hnil
    | cons a rest =>
      refine hcons a rest (ih _ ?_ _ rfl)
      have := List.length_filter_le (fun b => !b == a) rest
      simp only [List.length_cons] at hn
      omega

/-- Nothing is left twice. -/
theorem nodup_eraseDups {α : Type} [BEq α] [LawfulBEq α] (l : List α) :
    l.eraseDups.Nodup := by
  induction l using eraseDups_induction with
  | hnil => exact .nil
  | hcons a rest ih =>
    rw [List.eraseDups_cons]
    refine List.nodup_cons.2 ⟨fun h => ?_, ih⟩
    simpa using (List.mem_filter.1 (List.mem_eraseDups.1 h)).2

/-- Dropping repetitions keeps the first element of a kind. -/
theorem find?_eraseDups {α : Type} [BEq α] [LawfulBEq α] (p : α → Bool)
    (l : List α) :
    l.eraseDups.find? p = l.find? p := by
  induction l using eraseDups_induction with
  | hnil => rfl
  | hcons a rest ih =>
    rw [List.eraseDups_cons, List.find?_cons, List.find?_cons, ih,
      List.find?_filter]
    cases hp : p a with
    | true => rfl
    | false =>
      -- what equals the head is not of the kind
      refine congrArg (List.find? · rest) (funext fun b => ?_)
      by_cases hb : b = a
      · rw [hb, hp]
        simp
      · simp [hb]

theorem find?_filterMap_eq_none {α β : Type} {f : α → Option β} {p : β → Bool}
    {l : List α} :
    (l.filterMap f).find? p = none ↔ l.find? (fun a => (f a).any p) = none := by
  simp only [List.find?_eq_none, List.mem_filterMap, Option.any_eq_true]
  constructor
  · rintro h a ha ⟨b, hb, hp⟩
    exact h b ⟨a, ha, hb⟩ hp
  · rintro h b ⟨a, ha, hb⟩ hp
    exact h a ha ⟨b, hb, hp⟩

/-- Sorting loses no name and adds none. -/
@[simp]
theorem mem_sortedUnique {a : String} {names : List String} :
    a ∈ sortedUnique names ↔ a ∈ names := by
  simp [sortedUnique]

theorem nodup_sortedUnique (names : List String) : (sortedUnique names).Nodup :=
  (List.mergeSort_perm _ _).nodup_iff.2 (nodup_eraseDups names)

/-- The names come in strictly increasing order. -/
theorem pairwise_sortedUnique (names : List String) :
    (sortedUnique names).Pairwise (· < ·) := by
  have hle : (sortedUnique names).Pairwise fun a b =>
    decide (a ≤ b) = true := by
    refine List.pairwise_mergeSort ?_ ?_ _
    · intro a b c hab hbc
      exact decide_eq_true
        (String.le_trans (of_decide_eq_true hab) (of_decide_eq_true hbc))
    · intro a b
      simpa using String.le_total a b
  refine (hle.and (nodup_sortedUnique names)).imp ?_
  rintro a b ⟨hab, hne⟩
  refine String.not_le.1 fun hba => hne ?_
  exact String.le_antisymm (of_decide_eq_true hab) hba

/-- Listings in order of the same names are the same. -/
theorem eq_of_pairwise_lt {l l' : List String} (hl : l.Pairwise (· < ·))
    (hl' : l'.Pairwise (· < ·)) (h : ∀ a, a ∈ l ↔ a ∈ l') : l = l' := by
  have hnodup : ∀ {l : List String}, l.Pairwise (· < ·) → l.Nodup := by
    intro l hl
    refine hl.imp ?_
    rintro a b hlt rfl
    exact String.lt_irrefl a hlt
  have hperm : l.Perm l' :=
    (List.perm_ext_iff_of_nodup (hnodup hl) (hnodup hl')).2 h
  refine hperm.eq_of_pairwise (fun a b _ _ hab hba => ?_) hl hl'
  exact absurd (String.lt_trans hab hba) (String.lt_irrefl a)

/-- The listing depends on the names as a set. -/
theorem sortedUnique_congr {names names' : List String}
    (h : ∀ a, a ∈ names ↔ a ∈ names') :
    sortedUnique names = sortedUnique names' := by
  refine eq_of_pairwise_lt (pairwise_sortedUnique names)
    (pairwise_sortedUnique names') fun a => ?_
  rw [mem_sortedUnique, mem_sortedUnique]
  exact h a

/-- Of results that name what they are about, those about one element of a
list without repetition. -/
theorem filter_filterMap_of_nodup {α : Type} {l : List String}
    {f : String → Option α} {about : α → String}
    (habout : ∀ name x, f name = some x → about x = name) {name : String}
    (hl : l.Nodup) (hname : name ∈ l) :
    (l.filterMap f).filter (about · == name) = (f name).toList := by
  have habsent : ∀ rest : List String, name ∉ rest →
      (rest.filterMap f).filter (about · == name) = [] := by
    intro rest hrest
    refine List.filter_eq_nil_iff.2 fun x hx => ?_
    obtain ⟨other, hother, hx⟩ := List.mem_filterMap.1 hx
    rw [habout other x hx, beq_iff_eq]
    rintro rfl
    exact hrest hother
  induction l with
  | nil => cases hname
  | cons first rest ih =>
    obtain ⟨hfirst, hrest⟩ := List.nodup_cons.1 hl
    rcases List.mem_cons.1 hname with rfl | hname
    · cases hf : f name with
      | none =>
        rw [List.filterMap_cons_none hf, habsent rest hfirst,
          Option.toList_none]
      | some x =>
        rw [List.filterMap_cons_some hf,
          List.filter_cons_of_pos (by simp [habout name x hf]),
          habsent rest hfirst, Option.toList_some]
    · cases hf : f first with
      | none => rw [List.filterMap_cons_none hf, ih hrest hname]
      | some x =>
        have hne : first ≠ name := fun he => hfirst (he ▸ hname)
        rw [List.filterMap_cons_some hf,
          List.filter_cons_of_neg (by simp [habout first x hf, hne]),
          ih hrest hname]

namespace Table

variable {α : Type} {t : Table α} {name : String}

theorem contains_iff : t.contains name = true ↔ name ∈ t.names := by
  simp [Table.contains, Table.names]

theorem names_append (t u : Table α) :
    (t ++ u : Table α).names = t.names ++ u.names := List.map_append

/-- What is found in a table is in it. -/
theorem mem_of_get? {v : α} (h : t.get? name = some v) : (name, v) ∈ t := by
  obtain ⟨e, he, rfl⟩ := Option.map_eq_some_iff.1 h
  obtain rfl : e.1 = name := by simpa using List.find?_some he
  exact List.mem_of_find?_eq_some he

/-- In a table without repeated names every entry is found. -/
theorem get?_eq_some_iff {v : α} (hn : t.names.Nodup) :
    t.get? name = some v ↔ (name, v) ∈ t := by
  refine ⟨mem_of_get?, fun h => ?_⟩
  induction t with
  | nil => cases h
  | cons head rest ih =>
    obtain ⟨hhead, hrest⟩ := List.nodup_cons.1 hn
    unfold get?
    rcases List.mem_cons.1 h with rfl | h
    · simp
    · have hne : head.1 ≠ name :=
        fun he => hhead (List.mem_map.2 ⟨_, h, he.symm⟩)
      rw [List.find?_cons_of_neg (by simpa using hne)]
      exact ih hrest h

/-- An entry of a table was there before, or is the new one. -/
theorem mem_of_mem_insert {v : α} {e : String × α} (h : e ∈ t.insert name v) :
    e ∈ t ∨ e = (name, v) := by
  induction t with
  | nil => exact .inr (by simpa [insert] using h)
  | cons head rest ih =>
    obtain ⟨key, w⟩ := head
    rw [insert] at h
    split at h
    · next hkey =>
      obtain rfl : key = name := by simpa using hkey
      rcases List.mem_cons.1 h with rfl | h
      · exact .inr rfl
      · exact .inl (List.mem_cons_of_mem _ h)
    · rcases List.mem_cons.1 h with rfl | h
      · exact .inl List.mem_cons_self
      · exact (ih h).imp_left (List.mem_cons_of_mem _)

/-- A new value for a known name leaves the names as they are. -/
theorem names_insert_of_mem (h : name ∈ t.names) (v : α) :
    (t.insert name v).names = t.names := by
  induction t with
  | nil => cases h
  | cons head rest ih =>
    obtain ⟨key, w⟩ := head
    rw [insert]
    split
    · rfl
    · next hkey =>
      have hrest : name ∈ names rest := by
        rcases List.mem_cons.1 h with rfl | h
        · exact absurd (beq_self_eq_true _) hkey
        · exact h
      exact congrArg (key :: ·) (ih hrest)

/-- A new name is added at the end. -/
theorem insert_of_not_mem (h : name ∉ t.names) (v : α) :
    t.insert name v = t ++ [(name, v)] := by
  induction t with
  | nil => rfl
  | cons head rest ih =>
    obtain ⟨key, w⟩ := head
    have hkey : key ≠ name := by
      rintro rfl
      exact h List.mem_cons_self
    rw [insert, if_neg (by simpa using hkey),
      ih fun hrest => h (List.mem_cons_of_mem _ hrest)]
    rfl

/-- No name is listed twice by adding one. -/
theorem nodup_names_insert (hn : t.names.Nodup) (v : α) :
    (t.insert name v).names.Nodup := by
  by_cases hname : name ∈ t.names
  · rw [names_insert_of_mem hname]
    exact hn
  · rw [insert_of_not_mem hname, names, List.map_append]
    refine List.nodup_append.2 ⟨hn, by simp, fun a ha b hb hab => hname ?_⟩
    obtain rfl : b = name := by simpa using hb
    exact hab ▸ ha

theorem mem_names_insert {other : String} (v : α) :
    other ∈ (t.insert name v).names ↔ other ∈ t.names ∨ other = name := by
  by_cases hname : name ∈ t.names
  · rw [names_insert_of_mem hname]
    refine ⟨.inl, fun h => ?_⟩
    rcases h with h | rfl
    · exact h
    · exact hname
  · rw [insert_of_not_mem hname, names, List.map_append, List.mem_append]
    simp [names]

/-- A table built from entries has their names. -/
theorem mem_names_ofEntries {entries : List (String × α)} :
    name ∈ (ofEntries entries).names ↔ name ∈ entries.map (·.1) := by
  have hfold : ∀ (l : List (String × α)) (start : Table α),
      name ∈ (l.foldl (fun t e => insert t e.1 e.2) start).names ↔
        name ∈ start.names ∨ name ∈ l.map (·.1) := by
    intro l
    induction l with
    | nil => simp
    | cons e l ih =>
      intro start
      rw [List.foldl_cons, ih, mem_names_insert, List.map_cons,
        List.mem_cons, or_assoc]
  rw [ofEntries, hfold]
  simp [names]

theorem nodup_names_ofEntries (entries : List (String × α)) :
    (ofEntries entries).names.Nodup := by
  have hfold : ∀ (l : List (String × α)) (start : Table α), start.names.Nodup →
      (l.foldl (fun t e => insert t e.1 e.2) start).names.Nodup := by
    intro l
    induction l with
    | nil => exact fun start h => h
    | cons e l ih => exact fun start h => ih _ (nodup_names_insert h e.2)
  exact hfold entries [] .nil

/-- Entries under different names are a table as they are. -/
theorem ofEntries_eq_self {entries : List (String × α)}
    (hn : (entries.map (·.1)).Nodup) :
    ofEntries entries = entries := by
  have hfold : ∀ (l : List (String × α)) (start : Table α),
      (names (start ++ l)).Nodup →
      l.foldl (fun t e => insert t e.1 e.2) start = start ++ l := by
    intro l
    induction l with
    | nil => exact fun start _ => (List.append_nil start).symm
    | cons e l ih =>
      intro start h
      have happend : start ++ e :: l = start ++ [e] ++ l := by simp
      have hfresh : e.1 ∉ names start := by
        intro hmem
        rw [names, List.map_append] at h
        exact (List.nodup_append.1 h).2.2 _ hmem _ List.mem_cons_self rfl
      rw [List.foldl_cons, insert_of_not_mem hfresh, happend]
      exact ih _ (happend ▸ h)
  exact hfold entries [] hn

/-- A table built from entries holds none but these. -/
theorem mem_of_mem_ofEntries {entries : List (String × α)} {e : String × α}
    (h : e ∈ ofEntries entries) : e ∈ entries := by
  have hfold : ∀ (l : List (String × α)) (start : Table α),
      e ∈ l.foldl (fun t e => insert t e.1 e.2) start → e ∈ start ∨ e ∈ l := by
    intro l
    induction l with
    | nil => exact fun start h => .inl h
    | cons a l ih =>
      intro start h
      rcases ih _ h with h | h
      · rcases mem_of_mem_insert h with h | rfl
        · exact .inl h
        · exact .inr List.mem_cons_self
      · exact .inr (List.mem_cons_of_mem _ h)
  exact (hfold entries [] h).resolve_left List.not_mem_nil

end Table

end RenderLoop
