import RenderLoop.Proofs.Depths

/-!
# What a check reads of imported functions

The checks of a file ask of an imported function only what happens to a setter
that is handed to it at a position: in which file and under which name it is
called, and how deep (`SetterTaker.handed?`). Two accounts of the imported
functions that agree in this lead to the same report (`Check.file_congr`),
however they list the positions.

For the facts about a set of files that is a matter of the function behind the
called name and of the recorded depth (`ProjectFacts.handed?_taker?`).

The proof follows the events of a body: only calls of imported functions look
at the account, and they look at it position by position (`importedCall_eq`).
From there on everything is a congruence, up to the report of a file. So later
modules have to compare two accounts at positions only, and never open the
checks again.
-/

namespace RenderLoop

/-- What happens to a setter handed over at a position: the file and the name
of the function that takes it, and the number of functions it passes
through. -/
def SetterTaker.handed? (t : SetterTaker) (position : Nat) :
    Option (String × String × Nat) :=
  (t.depthAt? position).map fun depth => (t.file, t.name, depth)

/-- Two accounts of the imported functions say the same about every setter
handed over. -/
def AgreeOnHanded (imported other : String → Option SetterTaker) : Prop :=
  ∀ called position, (imported called).bind (·.handed? position) =
    (other called).bind (·.handed? position)

namespace Update.Body

variable {b : Body}

/-- The events of a setter that is handed over at a position. -/
def takenEvents (b : Body) (call : Node) (inCleanup : Bool) (setter : String) :
    Option (String × String × Nat) → List Event
  | some (file, function, depth) =>
    [.imported ⟨setter, function, file, depth, call.line⟩,
      b.update call setter inCleanup]
  | none => []

/-- The events of an argument depend on the called function only through what
becomes of the setter. -/
theorem handedEvents_eq (taker : SetterTaker) (call : Node) (inCleanup : Bool)
    (arg : Node) (position : Nat) :
    b.handedEvents taker call inCleanup arg position =
      if arg.bare.kind == .identifier && b.facts.isSetter arg.bare.text then
        b.takenEvents call inCleanup arg.bare.text (taker.handed? position)
      else [] := by
  unfold handedEvents SetterTaker.handed?
  cases taker.depthAt? position <;> rfl

/-- So do those of a call of an imported function, argument by argument. -/
theorem importedCall_eq (call : Node) (name : String) (inCleanup : Bool) :
    b.importedCall call name inCleanup = call.arguments.zipIdx.flatMap fun e =>
      if e.1.bare.kind == .identifier && b.facts.isSetter e.1.bare.text then
        b.takenEvents call inCleanup e.1.bare.text
          ((b.imported name).bind (·.handed? e.2))
      else [] := by
  unfold importedCall
  cases b.imported name with
  | none => simp [takenEvents]
  | some taker =>
    simp only [handedEvents_eq]
    rfl

variable {other : String → Option SetterTaker}

/-- Accounts that agree on what is handed over give the same events for a
call. -/
theorem importedCall_congr (h : AgreeOnHanded b.imported other) (call : Node)
    (name : String) (inCleanup : Bool) :
    b.importedCall call name inCleanup =
      { b with imported := other }.importedCall call name inCleanup := by
  rw [importedCall_eq, importedCall_eq]
  simp only [h name]
  rfl

theorem siteEvents_congr (h : AgreeOnHanded b.imported other) :
    b.siteEvents = { b with imported := other }.siteEvents := by
  funext cleanups s
  unfold siteEvents calleeEvents
  simp only [importedCall_congr h]
  rfl

/-- And hence the same record of a body. -/
theorem interaction_congr (h : AgreeOnHanded b.imported other)
    (origins : Table (List String)) :
    b.interaction origins =
      { b with imported := other }.interaction origins := by
  unfold interaction events
  rw [siteEvents_congr h]
  rfl

end Update.Body

/-- And the same record of a hook. -/
theorem Hook.interaction_congr {imported other : String → Option SetterTaker}
    (h : AgreeOnHanded imported other) (hook : Hook) (ctx : Context)
    (facts : Facts)
    (helpers : HelperMap) (origins : Table (List String)) :
    hook.interaction ctx facts helpers imported origins =
      hook.interaction ctx facts helpers other origins := by
  unfold Hook.interaction
  cases hook.callback? with
  | none => rfl
  | some callback =>
    have hbody :
      (⟨ctx, callback, facts, helpers, imported⟩ : Update.Body).interaction
        origins = (⟨ctx, callback, facts, helpers,
        other⟩ : Update.Body).interaction origins :=
      Update.Body.interaction_congr h origins
    simp only [hbody]

/-- The report on a file depends on the setters handed over only. -/
theorem Check.file_congr {imported other : String → Option SetterTaker}
    (h : AgreeOnHanded imported other) (ctx : Context) (f : SourceFile) :
    Check.file ctx f imported = Check.file ctx f other := by
  have hstage : Check.hookStage ctx f.path imported =
      Check.hookStage ctx f.path other := by
    funext facts helpers origins hook
    unfold Check.hookStage
    rw [Hook.interaction_congr h]
  unfold Check.file Check.allFindings Check.stages
  rw [hstage]

namespace ProjectFacts

/-- What the facts say about a setter handed over: the function behind the
called name, if it is in another file, with the recorded depth. -/
theorem handed?_taker? (facts : ProjectFacts) (file called : String)
    (position : Nat) :
    (facts.taker? file called).bind (·.handed? position) =
      (facts.callee? file called).bind fun s =>
        if s.file == file then none
        else (facts.depthOf? ⟨s, position⟩).map fun depth =>
          (s.file, s.name, depth) := by
  unfold taker? depthOf?
  cases facts.callee? file called with
  | none => rfl
  | some s =>
    simp only [Option.bind_some]
    split
    · rfl
    · cases hfound : facts.takers.find? fun t =>
        t.file == s.file && t.name == s.name with
      | none => rfl
      | some t =>
        -- the taker that is found has the file and the name it was looked for
        have hkey := List.find?_some hfound
        obtain ⟨hfile, hname⟩ : t.file = s.file ∧ t.name = s.name := by
          simpa using hkey
        simp only [Option.bind_some, SetterTaker.handed?, hfile, hname]

/-- Facts that agree on the called functions and on the depths agree on
everything that is read. -/
theorem agreeOnHanded_taker? {facts other : ProjectFacts} {file : String}
    (hcallee : facts.callee? file = other.callee? file)
    (hdepth : ∀ p, facts.depthOf? p = other.depthOf? p) :
    AgreeOnHanded (facts.taker? file) (other.taker? file) := by
  intro called position
  rw [handed?_taker?, handed?_taker?, hcallee]
  simp only [hdepth]

end ProjectFacts

end RenderLoop
