import RenderLoop.Proofs.Propagation
import RenderLoop.Proofs.Scan

/-!
# The call graph of the helpers

The calls that the scans of a helper's definitions list decide both what the
helper does itself and which helpers it leads to. An edge collects all the
calls and hand-overs of its target under one mark.

> `Marked.addEdge`, `marked_foldl_addEdge`: what one contribution does to the
> mark of an edge, and what a list of them does.

> `foldl_mark_eq_false`: an edge is immediate iff the target is called at once
> and, from that call on, is not handed to something that calls it later. A
> hand-over that follows the call hides it.

The edges are built by folding contributions into a list, one function after
another, so the mark of an edge depends on the contributions of its source
only, and on their order. `calledLast_cons` reads that order from the back: a
hand-over hides all the calls before it. What is left is to say which calls
contribute at all. A call counts by its callee and by the names among its
arguments, and only if the name belongs to another function of the file
(`IsTarget`).
-/

namespace RenderLoop

namespace Update

variable {ctx : Context} {setters : List String} {root : Node}
  {defs : Table (List Node)} {name f g : String}

/-! ### What a helper does itself -/

/-- The calls that the scans of a helper's definitions list, in order. -/
def callsOf (ctx : Context) (root : Node) (name : String) :
    Except Fault (List Site) := do
  let defs := definitions ctx root
  let scans ← ((defs.get? name).getD []).mapM
    (scanCalls ctx (definitionKeys defs))
  return scans.flatten

/-- A call hands the variable of that name to something that calls it later. -/
def HandsOver (ctx : Context) (s : Site) (name : String) : Prop :=
  callsBackLater ctx s.call = .ok true ∧
    ∃ a ∈ s.call.arguments, a.bare.kind = .identifier ∧ a.bare.text = name

/-- One of the calls of a helper calls the setter, at once or later, or hands
it over to be called later. -/
def SetsItself (ctx : Context) (setters : List String) (root : Node)
    (name : String) (later : Bool) (setter : String) : Prop :=
  setter ∈ setters ∧ ∃ sites, callsOf ctx root name = .ok sites ∧
    ∃ s ∈ sites, s.call.calleeKey? = some setter ∧ s.deferred = later ∨
      later = true ∧ HandsOver ctx s setter

/-- Only helpers have calls. -/
theorem mem_names_of_callsOf {sites : List Site}
    (h : callsOf ctx root name = .ok sites) {s : Site}
    (hs : s ∈ sites) : name ∈ (definitions ctx root).names := by
  cases hfns : (definitions ctx root).get? name with
  | some fns => exact List.mem_map.2 ⟨_, Table.mem_of_get? hfns, rfl⟩
  | none =>
    unfold callsOf at h
    simp only [hfns] at h
    cases h
    cases hs

/-! ### The contributions of a call -/

/-- A call contributes by its callee: an update when that is a setter, an
invocation when it is another function of the file. -/
theorem mem_ofCallee {s : Site} {c : Contribution} :
    c ∈ ofCallee setters defs name s ↔
      ∃ key, s.call.calleeKey? = some key ∧
        (key ∈ setters ∧ c = .update key s.deferred ∨
          key ∉ setters ∧ key ∈ defs.names ∧ key ≠ name ∧
            c = .invoke key s.deferred) := by
  unfold ofCallee
  cases hkey : s.call.calleeKey? with
  | none => simp
  | some key =>
    simp only [Option.some.injEq, exists_eq_left']
    by_cases hsetter : key ∈ setters
    · simp [hsetter]
    · by_cases hhelper : key ∈ defs.names ∧ key ≠ name
      · simp [hsetter, hhelper, Table.contains_iff.2 hhelper.1]
      · rw [if_neg (by simpa using hsetter), if_neg]
        · simp only [hsetter, List.not_mem_nil, false_and, false_or, false_iff]
          intro hex
          obtain ⟨-, hdef, hne, -⟩ := hex
          exact hhelper ⟨hdef, hne⟩
        · rw [Bool.and_eq_true, Table.contains_iff]
          simpa using hhelper

/-- An argument contributes when it is a bare name: what is handed over may be
called later, so its update counts as deferred. -/
theorem mem_ofReference {arg : Node} {c : Contribution} :
    c ∈ ofReference setters defs name arg ↔
      ∃ ref, arg.bare.kind = .identifier ∧ arg.bare.text = ref ∧
        (ref ∈ setters ∧ c = .update ref true ∨
          ref ∉ setters ∧ ref ∈ defs.names ∧ ref ≠ name ∧
            c = .handOver ref) := by
  unfold ofReference
  by_cases hkind : arg.bare.kind = .identifier
  · simp only [hkind, true_and, exists_eq_left']
    by_cases hsetter : arg.bare.text ∈ setters
    · simp [hsetter]
    · by_cases hhelper : arg.bare.text ∈ defs.names ∧ arg.bare.text ≠ name
      · simp [hsetter, hhelper, Table.contains_iff.2 hhelper.1]
      · rw [if_pos (by simp), if_neg (by simpa using hsetter), if_neg]
        · simp only [hsetter, List.not_mem_nil, false_and, false_or, false_iff]
          intro hex
          obtain ⟨-, hdef, hne, -⟩ := hex
          exact hhelper ⟨hdef, hne⟩
        · rw [Bool.and_eq_true, Table.contains_iff]
          simpa using hhelper
  · simp [hkind]

/-- The contributions of a call: that of its callee, and those of its
arguments if it calls back later. -/
theorem ofSite_eq {s : Site} {cs : List Contribution}
    (h : ofSite ctx setters defs name s = .ok cs) :
    ∃ refs, cs = ofCallee setters defs name s ++ refs ∧
      ∀ c, c ∈ refs ↔ callsBackLater ctx s.call = .ok true ∧
        ∃ a ∈ s.call.arguments, c ∈ ofReference setters defs name a := by
  obtain ⟨later, hlater, h⟩ := bind_eq_ok.1 h
  cases later with
  | true =>
    cases h
    refine ⟨_, rfl, fun c => ?_⟩
    rw [List.mem_flatMap, hlater]
    simp
  | false =>
    cases h
    refine ⟨[], (List.append_nil _).symm, fun c => ?_⟩
    rw [hlater]
    simp

/-- The updates of one site: its own callee when that is a setter, and every
setter among what it hands over. -/
theorem update_mem_ofSite {s : Site} {cs : List Contribution}
    (h : ofSite ctx setters defs name s = .ok cs) {setter : String}
    {later : Bool} :
    .update setter later ∈ cs ↔ setter ∈ setters ∧
      (s.call.calleeKey? = some setter ∧ s.deferred = later ∨
        later = true ∧ HandsOver ctx s setter) := by
  obtain ⟨refs, rfl, hrefs⟩ := ofSite_eq h
  rw [List.mem_append, hrefs, mem_ofCallee]
  constructor
  · intro hcases
    rcases hcases with ⟨key, hkey, ⟨hset, hc⟩ | ⟨-, -, -, hc⟩⟩ |
      ⟨hlater, a, ha, hc⟩
    · cases hc
      exact ⟨hset, .inl ⟨hkey, rfl⟩⟩
    · cases hc
    · obtain ⟨ref, hkind, htext, ⟨hset, hc⟩ | ⟨-, -, -, hc⟩⟩ :=
        mem_ofReference.1 hc
      · cases hc
        exact ⟨hset, .inr ⟨rfl, hlater, a, ha, hkind, htext⟩⟩
      · cases hc
  · intro hcases
    rcases hcases with ⟨hset, ⟨hkey, rfl⟩ | ⟨rfl, hlater, a, ha, hkind, htext⟩⟩
    · exact .inl ⟨setter, hkey, .inl ⟨hset, rfl⟩⟩
    · exact .inr ⟨hlater, a, ha,
        mem_ofReference.2 ⟨setter, hkind, htext, .inl ⟨hset, rfl⟩⟩⟩

/-! ### The mark of an edge -/

/-- The mark of the edge to a target after one more contribution. -/
def Contribution.mark (target : String) (old : Option Bool) :
    Contribution → Option Bool
  | .update _ _ => old
  | .invoke t deferred =>
    if t = target then some (deferred && old.getD true) else old
  | .handOver t => if t = target then some true else old

/-- The graph has the one edge between two helpers that the mark says, or
none. -/
def Marked (edges : List CallEdge) (f g : String) (mark : Option Bool) : Prop :=
  ∀ deferred, ⟨f, g, deferred⟩ ∈ edges ↔ mark = some deferred

theorem CallEdge.joins_iff {e : CallEdge} :
    e.joins f g = true ↔ e = ⟨f, g, e.deferred⟩ := by
  obtain ⟨source, target, deferred⟩ := e
  simp [joins]

/-- Setting an edge changes the mark of that edge and of no other. -/
theorem Marked.setEdge {edges : List CallEdge} {old : Option Bool}
    (h : Marked edges f g old) (a b : String) (mark : Option Bool → Bool) :
    Marked (setEdge edges a b mark) f g (if a = f ∧
      b = g then some (mark old) else old) := by
  intro deferred
  have hjoins : ∀ d : Bool, (⟨f, g, d⟩ : CallEdge).joins a b = true ↔
      a = f ∧ b = g := by
    intro d
    rw [CallEdge.joins, Bool.and_eq_true, beq_iff_eq, beq_iff_eq, @eq_comm _ f,
      @eq_comm _ g]
  unfold Update.setEdge
  split
  · next hany =>
    rw [List.mem_map]
    by_cases hab : a = f ∧ b = g
    · rw [if_pos hab]
      obtain ⟨rfl, rfl⟩ := hab
      -- the edge is there, so its old mark is what `old` says
      obtain ⟨e, he, hej⟩ := List.any_eq_true.1 hany
      rw [CallEdge.joins_iff.1 hej] at he
      have hold := (h _).1 he
      constructor
      · intro hex
        obtain ⟨x, hx, hxe⟩ := hex
        by_cases hxj : x.joins a b = true
        · rw [if_pos hxj] at hxe
          rw [CallEdge.joins_iff.1 hxj] at hx
          rw [(h _).1 hx]
          exact congrArg (fun e : CallEdge => some e.deferred) hxe
        · rw [if_neg hxj] at hxe
          subst hxe
          exact absurd ((hjoins deferred).2 ⟨rfl, rfl⟩) hxj
      · intro hmark
        refine ⟨_, he, ?_⟩
        rw [if_pos ((hjoins _).2 ⟨rfl, rfl⟩), ← hold]
        exact congrArg (CallEdge.mk a b) (Option.some.inj hmark)
    · rw [if_neg hab, ← h deferred]
      constructor
      · intro hex
        obtain ⟨x, hx, hxe⟩ := hex
        by_cases hxj : x.joins a b = true
        · rw [if_pos hxj] at hxe
          rw [CallEdge.joins_iff.1 hxj] at hxe
          exact absurd ⟨congrArg CallEdge.source hxe,
            congrArg CallEdge.target hxe⟩ hab
        · rw [if_neg hxj] at hxe
          exact hxe ▸ hx
      · intro hmem
        refine ⟨_, hmem, ?_⟩
        rw [if_neg fun hj => hab ((hjoins deferred).1 hj)]
  · next hnone =>
    -- there is no such edge yet, so one is added at the end
    rw [List.mem_append, List.mem_singleton, h deferred]
    by_cases hab : a = f ∧ b = g
    · obtain ⟨rfl, rfl⟩ := hab
      have hold : old = none := by
        cases hd : old with
        | none => rfl
        | some d =>
          exact absurd (List.any_eq_true.2 ⟨_, (h d).2 hd,
            (hjoins d).2 ⟨rfl, rfl⟩⟩) hnone
      rw [if_pos ⟨rfl, rfl⟩, hold]
      simp [eq_comm]
    · rw [if_neg hab]
      constructor
      · intro hcases
        rcases hcases with hmark | he
        · exact hmark
        · exact absurd ⟨(congrArg CallEdge.source he).symm,
            (congrArg CallEdge.target he).symm⟩ hab
      · exact .inl

/-- A contribution of a helper changes the marks of its own edges only. -/
theorem Marked.addEdge {edges : List CallEdge} {old : Option Bool}
    (h : Marked edges f g old) (source : String) (c : Contribution) :
    Marked (addEdge source edges c) f g
      (if source = f then c.mark g old else old) := by
  cases c with
  | update setter deferred =>
    rw [show Contribution.mark g old (.update setter deferred) = old
      from rfl, ite_self]
    exact h
  | invoke target deferred =>
    have hset := h.setEdge source target fun old => deferred && old.getD true
    by_cases hsource : source = f
    · rw [if_pos hsource]
      simp only [hsource, true_and] at hset ⊢
      exact hset
    · rw [if_neg hsource]
      simp only [hsource, false_and, if_false] at hset
      exact hset
  | handOver target =>
    have hset := h.setEdge source target fun _ => true
    by_cases hsource : source = f
    · rw [if_pos hsource]
      simp only [hsource, true_and] at hset ⊢
      exact hset
    · rw [if_neg hsource]
      simp only [hsource, false_and, if_false] at hset
      exact hset

/-- One function's contributions change only the edges that leave it. -/
theorem marked_foldl_addEdge {edges : List CallEdge} {old : Option Bool}
    (h : Marked edges f g old) (source : String) (cs : List Contribution) :
    Marked (cs.foldl (addEdge source) edges) f g
      (if source = f then cs.foldl (Contribution.mark g) old else old) := by
  induction cs generalizing edges old with
  | nil => simpa using h
  | cons c cs ih =>
    have hstep := ih (h.addEdge source c)
    rw [List.foldl_cons, List.foldl_cons]
    by_cases hsource : source = f
    · simpa [hsource] using hstep
    · simpa [hsource] using hstep

/-- The edges that the contributions of all helpers make. -/
def edgesOf (contributed : List (String × List Contribution))
    (edges : List CallEdge) : List CallEdge :=
  contributed.foldl (fun es e => e.2.foldl (addEdge e.1) es) edges

/-- An edge keeps its mark while the contributions of other functions are
added. -/
theorem marked_edgesOf_of_not_mem
    {contributed : List (String × List Contribution)}
    {edges : List CallEdge} {old : Option Bool} (h : Marked edges f g old)
    (hf : f ∉ contributed.map (·.1)) :
    Marked (edgesOf contributed edges) f g old := by
  induction contributed generalizing edges with
  | nil => exact h
  | cons e rest ih =>
    rw [List.map_cons, List.mem_cons, not_or] at hf
    have hstep := marked_foldl_addEdge h e.1 e.2
    rw [if_neg fun he => hf.1 he.symm] at hstep
    exact ih hstep hf.2

/-- The edges of a helper are marked by its own contributions. -/
theorem marked_edgesOf {contributed : List (String × List Contribution)}
    {edges : List CallEdge} {old : Option Bool} (h : Marked edges f g old)
    (hnodup : (contributed.map (·.1)).Nodup)
    {cs : List Contribution} (hcs : (f, cs) ∈ contributed) :
    Marked (edgesOf contributed edges) f g
      (cs.foldl (Contribution.mark g) old) := by
  induction contributed generalizing edges with
  | nil => cases hcs
  | cons e rest ih =>
    obtain ⟨hfirst, hrest⟩ := List.nodup_cons.1 hnodup
    have hstep := marked_foldl_addEdge h e.1 e.2
    rcases List.mem_cons.1 hcs with rfl | hcs
    · rw [if_pos rfl] at hstep
      show Marked (edgesOf rest (cs.foldl (addEdge f) edges)) f g _
      exact marked_edgesOf_of_not_mem hstep hfirst
    · have hne : e.1 ≠ f := by
        rintro rfl
        exact hfirst (List.mem_map.2 ⟨_, hcs, rfl⟩)
      rw [if_neg hne] at hstep
      exact ih hstep hrest hcs

/-! ### The mark that a list of calls makes -/

/-- The helper that a contribution calls or hands over. -/
def Contribution.target? : Contribution → Option String
  | .update _ _ => none
  | .invoke target _ | .handOver target => some target

/-- Without a contribution that aims at the target there is no edge. -/
theorem foldl_mark_eq_none {cs : List Contribution} {old : Option Bool} :
    cs.foldl (Contribution.mark g) old = none ↔
      old = none ∧ ∀ c ∈ cs, c.target? ≠ some g := by
  induction cs generalizing old with
  | nil => simp
  | cons c cs ih =>
    have hstep : c.mark g old = none ↔ old = none ∧ c.target? ≠ some g := by
      cases c with
      | update setter deferred => simp [Contribution.mark, Contribution.target?]
      | invoke target deferred =>
        by_cases htarget : target = g
        · simp [Contribution.mark, Contribution.target?, htarget]
        · simp [Contribution.mark, Contribution.target?, htarget]
      | handOver target =>
        by_cases htarget : target = g
        · simp [Contribution.mark, Contribution.target?, htarget]
        · simp [Contribution.mark, Contribution.target?, htarget]
    rw [List.foldl_cons, ih, hstep, List.forall_mem_cons, and_assoc]

/-- Of contributions that are no calls, a single hand-over decides. -/
theorem foldl_mark_of_no_invoke {cs : List Contribution} {old : Option Bool}
    (h : ∀ t d, .invoke t d ∉ cs) :
    cs.foldl (Contribution.mark g) old = if .handOver g ∈ cs then
      some true else old := by
  induction cs generalizing old with
  | nil => rfl
  | cons c cs ih =>
    rw [List.foldl_cons, ih fun t d hmem => h t d (List.mem_cons_of_mem _ hmem)]
    cases c with
    | update setter deferred => simp [Contribution.mark]
    | invoke target deferred =>
      exact absurd List.mem_cons_self (h target deferred)
    | handOver target =>
      by_cases htarget : target = g
      · simp [Contribution.mark, htarget]
      · simp [Contribution.mark, htarget, Ne.symm htarget]

/-- A helper that another one may lead to: not a setter, and not the other one
itself. -/
def IsTarget (setters : List String) (defs : Table (List Node))
    (name g : String) : Prop :=
  g ∉ setters ∧ g ∈ defs.names ∧ g ≠ name

theorem invoke_mem_ofCallee {s : Site} {deferred : Bool} :
    .invoke g deferred ∈ ofCallee setters defs name s ↔
      IsTarget setters defs name g ∧ s.call.calleeKey? = some g ∧
        s.deferred = deferred := by
  rw [mem_ofCallee]
  constructor
  · intro hcases
    rcases hcases with ⟨key, hkey, ⟨-, hc⟩ | ⟨hset, hdef, hne, hc⟩⟩
    · cases hc
    · cases hc
      exact ⟨⟨hset, hdef, hne⟩, hkey, rfl⟩
  · intro hex
    obtain ⟨⟨hset, hdef, hne⟩, hkey, rfl⟩ := hex
    exact ⟨g, hkey, .inr ⟨hset, hdef, hne, rfl⟩⟩

theorem handOver_mem_ofReference {arg : Node} :
    .handOver g ∈ ofReference setters defs name arg ↔
      IsTarget setters defs name g ∧ arg.bare.kind = .identifier ∧
        arg.bare.text = g := by
  rw [mem_ofReference]
  constructor
  · intro hcases
    rcases hcases with ⟨ref, hkind, htext, ⟨-, hc⟩ | ⟨hset, hdef, hne, hc⟩⟩
    · cases hc
    · cases hc
      exact ⟨⟨hset, hdef, hne⟩, hkind, htext⟩
  · intro hex
    obtain ⟨⟨hset, hdef, hne⟩, hkind, htext⟩ := hex
    exact ⟨g, hkind, htext, .inr ⟨hset, hdef, hne, rfl⟩⟩

/-- A site contributes an edge to `g` exactly when it calls `g` or hands it
over. -/
theorem exists_target_mem_ofSite {s : Site} {cs : List Contribution}
    (h : ofSite ctx setters defs name s = .ok cs) :
    (∃ c ∈ cs, c.target? = some g) ↔
      IsTarget setters defs name g ∧
        (s.call.calleeKey? = some g ∨ HandsOver ctx s g) := by
  obtain ⟨refs, rfl, hrefs⟩ := ofSite_eq h
  constructor
  · intro hex
    obtain ⟨c, hc, hg⟩ := hex
    rcases List.mem_append.1 hc with hc | hc
    · obtain ⟨key, hkey, ⟨-, rfl⟩ | ⟨hset, hdef, hne, rfl⟩⟩ := mem_ofCallee.1 hc
      · cases hg
      · cases hg
        exact ⟨⟨hset, hdef, hne⟩, .inl hkey⟩
    · obtain ⟨hlater, a, ha, hc⟩ := (hrefs c).1 hc
      obtain ⟨ref, hkind, htext, ⟨-, rfl⟩ | ⟨hset, hdef, hne, rfl⟩⟩ :=
        mem_ofReference.1 hc
      · cases hg
      · cases hg
        exact ⟨⟨hset, hdef, hne⟩, .inr ⟨hlater, a, ha, hkind, htext⟩⟩
  · intro hcases
    rcases hcases with ⟨htarget, hkey | ⟨hlater, a, ha, hkind, htext⟩⟩
    · exact ⟨_, List.mem_append_left _
        (invoke_mem_ofCallee.2 ⟨htarget, hkey, rfl⟩), rfl⟩
    · have href := handOver_mem_ofReference.2 ⟨htarget, hkind, htext⟩
      exact ⟨_, List.mem_append_right _ ((hrefs _).2 ⟨hlater, a, ha, href⟩),
        rfl⟩

/-- A direct call leaves the mark deferred only when it is deferred itself and
was so before. -/
theorem foldl_mark_ofCallee {s : Site} (htarget : IsTarget setters defs name g)
    (old : Option Bool) :
    (ofCallee setters defs name s).foldl (Contribution.mark g) old =
      if s.call.calleeKey? = some g then some (s.deferred && old.getD true)
      else old := by
  obtain ⟨hset, hdef, hne⟩ := htarget
  unfold ofCallee
  cases hkey : s.call.calleeKey? with
  | none => rfl
  | some key =>
    by_cases hg : key = g
    · subst hg
      simp [hset, hne, Table.contains_iff.2 hdef, Contribution.mark]
    · rw [if_neg fun h => hg (Option.some.inj h)]
      simp only
      split
      · rfl
      · split
        · exact if_neg hg
        · rfl

/-- What a call does to the mark of an edge: a hand-over of the target makes
it deferred, whatever it was, and a call of the target leaves it deferred only
if the call is so too. -/
theorem foldl_mark_ofSite {s : Site} {cs : List Contribution}
    (h : ofSite ctx setters defs name s = .ok cs)
    (htarget : IsTarget setters defs name g)
    (old : Option Bool) :
    HandsOver ctx s g ∧ cs.foldl (Contribution.mark g) old = some true ∨
      ¬ HandsOver ctx s g ∧ cs.foldl (Contribution.mark g) old =
        if s.call.calleeKey? = some g then some (s.deferred && old.getD true)
        else old := by
  obtain ⟨refs, rfl, hrefs⟩ := ofSite_eq h
  have hhand : .handOver g ∈ refs ↔ HandsOver ctx s g := by
    rw [hrefs]
    constructor
    · intro hex
      obtain ⟨hlater, a, ha, hc⟩ := hex
      exact ⟨hlater, a, ha, (handOver_mem_ofReference.1 hc).2⟩
    · intro hex
      obtain ⟨hlater, a, ha, harg⟩ := hex
      exact ⟨hlater, a, ha, handOver_mem_ofReference.2 ⟨htarget, harg⟩⟩
  have hno : ∀ t d, .invoke t d ∉ refs := by
    intro t d hmem
    obtain ⟨-, a, -, hc⟩ := (hrefs _).1 hmem
    obtain ⟨ref, -, -, ⟨-, hc⟩ | ⟨-, -, -, hc⟩⟩ :=
      mem_ofReference.1 hc <;> cases hc
  rw [List.foldl_append, foldl_mark_of_no_invoke hno,
    foldl_mark_ofCallee htarget]
  by_cases hyes : HandsOver ctx s g
  · exact .inl ⟨hyes, if_pos (hhand.2 hyes)⟩
  · exact .inr ⟨hyes, if_neg fun hmem => hyes (hhand.1 hmem)⟩

/-- Among the calls there is one of the target that runs at once, and from
there on the target is not handed over any more. -/
def CalledLast (ctx : Context) (sites : List Site) (g : String) : Prop :=
  ∃ before s after, sites = before ++ s :: after ∧ s.call.calleeKey? = some g ∧
    s.deferred = false ∧ ∀ x ∈ s :: after, ¬ HandsOver ctx x g

/-- Reading the sites from the back: either the rest decides, or this site
calls directly and nothing from it on is handed over. -/
theorem calledLast_cons {s : Site} {rest : List Site} :
    CalledLast ctx (s :: rest) g ↔
      CalledLast ctx rest g ∨ s.call.calleeKey? = some g ∧ s.deferred = false ∧
        ∀ x ∈ s :: rest, ¬ HandsOver ctx x g := by
  constructor
  · intro hex
    obtain ⟨before, x, after, heq, hkey, hnow, hlast⟩ := hex
    cases before with
    | nil =>
      cases heq
      exact .inr ⟨hkey, hnow, hlast⟩
    | cons y before =>
      cases heq
      exact .inl ⟨before, x, after, rfl, hkey, hnow, hlast⟩
  · intro hcases
    rcases hcases with ⟨before, x, after, rfl, hkey, hnow, hlast⟩ |
      ⟨hkey, hnow, hlast⟩
    · exact ⟨s :: before, x, after, rfl, hkey, hnow, hlast⟩
    · exact ⟨[], s, rest, rfl, hkey, hnow, hlast⟩

/-- An edge ends up immediate iff its target is called at once after the last
hand-over, or if it was so before and the target is not handed over. -/
theorem foldl_mark_eq_false {sites : List Site}
    {parts : List (List Contribution)}
    (h : sites.mapM (ofSite ctx setters defs name) = .ok parts)
    (htarget : IsTarget setters defs name g) (old : Option Bool) :
    parts.flatten.foldl (Contribution.mark g) old = some false ↔
      CalledLast ctx sites g ∨ old = some false ∧
        ∀ x ∈ sites, ¬ HandsOver ctx x g := by
  induction sites generalizing parts old with
  | nil =>
    cases h
    have hnone : ¬ CalledLast ctx [] g := by
      intro hex
      obtain ⟨before, x, after, heq, -⟩ := hex
      simp at heq
    simp [hnone]
  | cons s rest ih =>
    obtain ⟨cs, others, hcs, hothers, rfl⟩ := mapM_cons_eq_ok.1 h
    rw [List.flatten_cons, List.foldl_append, ih hothers, calledLast_cons,
      List.forall_mem_cons]
    rcases foldl_mark_ofSite hcs htarget old with ⟨hhand, hmark⟩ |
      ⟨hkeep, hmark⟩
    · -- a hand-over hides whatever came before
      rw [hmark]
      simp [hhand]
    · rw [hmark]
      by_cases hkey : s.call.calleeKey? = some g
      · -- the call makes the edge immediate unless it runs later itself
        rw [if_pos hkey]
        cases hnow : s.deferred with
        | false =>
          simp only [hkey, hkeep, Bool.false_and, not_false_eq_true, true_and]
          constructor
          · exact .inl
          · intro hcases
            rcases hcases with hlast | ⟨-, hlast⟩
            · exact hlast
            · exact .inr hlast
        | true =>
          have hold : (true && old.getD true) = false ↔ old = some false := by
            cases old with
            | none => simp
            | some mark => simp
          simp [hkey, hkeep, ← hold]
      · rw [if_neg hkey]
        simp [hkey, hkeep]

/-! ### The contributions of a helper -/

/-- The contributions of a helper are those of its calls. -/
theorem exists_callsOf {fns : List Node} {cs : List Contribution}
    (hfns : (definitions ctx root).get? name = some fns)
    (h : contributions ctx setters (definitions ctx root) name fns = .ok cs) :
    ∃ sites parts, callsOf ctx root name = .ok sites ∧
      sites.mapM (ofSite ctx setters (definitions ctx root) name) = .ok parts ∧
        cs = parts.flatten := by
  obtain ⟨scans, hscans, h⟩ := bind_eq_ok.1 h
  obtain ⟨parts, hparts, h⟩ := bind_eq_ok.1 h
  cases h
  refine ⟨scans.flatten, parts, ?_, hparts, rfl⟩
  unfold callsOf
  simp only [hfns]
  exact bind_eq_ok.2 ⟨scans, hscans, rfl⟩

/-- With patterns that compile, the contributions of a function are always
there. -/
theorem exists_contributions (hctx : ctx.options.WellFormed)
    (setters : List String) (defs : Table (List Node)) (name : String)
    (fns : List Node) :
    ∃ cs, contributions ctx setters defs name fns = .ok cs := by
  apply exists_bind
  · exact exists_mapM fun fn _ => exists_scanCalls hctx _ fn
  · intro scans
    apply exists_bind
    · apply exists_mapM
      intro s _
      obtain ⟨later, hlater⟩ := exists_callsBackLater hctx s.call
      unfold ofSite
      simp only [hlater]
      cases later with
      | true => exact ⟨_, rfl⟩
      | false => exact ⟨_, rfl⟩
    · intro parts
      exact ⟨_, rfl⟩

/-- The definitions are grouped by name, so no name is listed twice. -/
theorem nodup_names_definitions (ctx : Context) (root : Node) :
    (definitions ctx root).names.Nodup := by
  have hfold : ∀ (l : List (String × Node)) (t : Table (List Node)),
      t.names.Nodup → (l.foldl (fun t e => t.modify e.1 [] (· ++ [e.2]))
      t).names.Nodup := by
    intro l
    induction l with
    | nil =>
      intro t ht
      exact ht
    | cons e l ih =>
      intro t ht
      exact ih _ (Table.nodup_names_insert ht _)
  exact hfold _ [] .nil

end Update

end RenderLoop
