import RenderLoop.Proofs.Runs

/-!
# No request is lost, and no run is cut short

A request may come at any time: before the loop has counted its first run,
while a run is in flight, after it has ended, or right before the loop looks
for the last time whether another run is asked for.

> `begun_or_ahead`: after a request a run begins, or one is still to begin: it
> is pending or due.

So a schedule that has come to rest began a run after each of its requests. A
run that has begun is not touched by requests: between its begin and its end
nothing else happens but requests (`uncut_of_after?`), and a request may as
well come after the end of the run as before it (`request_step?_finish`).

Both are properties of histories that lead to a state, and are shown by going
through the steps from the request, or from the begin of the run, up to
the end. A step that is taken in between is one of the moves of a schedule with
one loop; so it is enough to see what each move does to a run that is ahead
(`Moves.ahead`), and to one that is in flight (`Moves.of_inFlight`).
-/

namespace RenderLoop

variable {ε α : Type}

namespace Schedule

variable {s next : Schedule ε α} {x : Step ε α}

/-! ### A run is still to begin -/

/-- A run is pending, or due. -/
def Ahead (s : Schedule ε α) : Prop := s.pending = true ∨ .due ∈ s.loops

/-- At rest there is no run ahead. -/
theorem OneLoop.not_ahead (h : s.OneLoop) (hidle : s.isRunning = false) :
    ¬ s.Ahead := by
  obtain ⟨hloops, hnone⟩ := h.idle hidle
  intro hahead
  rcases hahead with hpending | hdue
  · rw [hnone] at hpending
    cases hpending
  · rw [hloops] at hdue
    cases hdue

/-- After a request there is one. -/
theorem Moves.ahead_of_request (h : s.Moves .request next) : next.Ahead := by
  cases h with
  | start hidle hloops hnone => exact .inr (List.mem_singleton.2 rfl)
  | queue hbusy hnone => exact .inl rfl
  | merge hbusy hsome => exact .inl hsome

/-- A run that is still to begin stays so until one begins. -/
theorem Moves.ahead (h : s.Moves x next) (hs : s.Ahead) :
    next.Ahead ∨ ∃ i, x = .begin i := by
  -- a loop in any other phase than `due` has nothing ahead but what is pending
  have hpending : ∀ {phase : Phase ε α}, phase ≠ .due → s.loops = [phase] →
      s.pending = true := by
    intro phase hphase hloops
    rcases hs with hpending | hdue
    · exact hpending
    · rw [hloops] at hdue
      exact absurd (List.mem_singleton.1 hdue).symm hphase
  cases h with
  | start hidle hloops hnone => exact .inl (.inr (List.mem_singleton.2 rfl))
  | queue hbusy hnone => exact .inl (.inl rfl)
  | merge hbusy hsome => exact .inl (.inl hsome)
  | begin hloops => exact .inr ⟨_, rfl⟩
  | finish hloops ran received => exact .inl (.inl (hpending (by simp) hloops))
  | @record _ o hloops =>
    have hsome := hpending (by simp) hloops
    cases o with
    | ok a => exact .inl (.inl hsome)
    | error e => exact .inl (.inl hsome)
  | again hloops hsome => exact .inl (.inr (List.mem_singleton.2 rfl))
  | rest hloops hnone =>
    rw [hpending (by simp) hloops] at hnone
    cases hnone

/-- The last step of a history is a move from the state before it. -/
theorem exists_move {history : List (Step ε α)}
    (h : after? (x :: history) = some s) :
    ∃ previous, after? history = some previous ∧ previous.Moves x s := by
  obtain ⟨previous, hprevious, hx⟩ := Option.bind_eq_some_iff.1 h
  exact ⟨previous, hprevious,
    .of_step? (consistent_of_after? hprevious).oneLoop hx⟩

/-- After a request a run has begun, or one is still to begin. -/
theorem begun_or_ahead {later earlier : List (Step ε α)}
    (h : after? (later ++ .request :: earlier) = some s) :
    (∃ i, .begin i ∈ later) ∨ s.Ahead := by
  induction later generalizing s with
  | nil =>
    obtain ⟨previous, -, hmove⟩ := exists_move h
    exact .inr hmove.ahead_of_request
  | cons x later ih =>
    obtain ⟨previous, hprevious, hmove⟩ := exists_move h
    rcases ih hprevious with ⟨i, hbegin⟩ | hahead
    · exact .inl ⟨i, List.mem_cons_of_mem _ hbegin⟩
    · rcases hmove.ahead hahead with hahead | ⟨i, rfl⟩
      · exact .inr hahead
      · exact .inl ⟨i, List.mem_cons_self⟩

/-! ### Runs are not cut short -/

/-- The loop that a step is for. -/
def loopOf? : Step ε α → Option Nat
  | .request => none
  | .begin i | .finish i _ _ | .record i | .settle i => some i

/-- All steps are for the only loop there is. -/
theorem OneLoop.loopOf?_eq (h : s.OneLoop)
    (hx : s.step? x = some next) {i : Nat} (hi : loopOf? x = some i) :
    i = 0 := by
  cases hphase : s.loops[i]? with
  | some phase => exact (h.eq_singleton hphase).1
  | none =>
    -- without a loop at its position no step can be taken
    exfalso
    cases x <;> cases hi <;> rw [step?, hphase] at hx <;> cases hx

/-- All steps of a history are taken by the same loop. -/
theorem loopOf?_eq_zero (later earlier : List (Step ε α))
    (h : after? (later ++ x :: earlier) = some s) {i : Nat}
    (hi : loopOf? x = some i) : i = 0 := by
  induction later generalizing s with
  | nil =>
    obtain ⟨previous, hprevious, hx⟩ := Option.bind_eq_some_iff.1 h
    exact (consistent_of_after? hprevious).oneLoop.loopOf?_eq hx hi
  | cons y later ih =>
    obtain ⟨previous, hprevious, -⟩ := Option.bind_eq_some_iff.1 h
    exact ih hprevious

/-- While a run is in flight there are requests, and then the end of the run. -/
theorem Moves.of_inFlight (h : s.Moves x next) (hs : s.loops = [.inFlight]) :
    x = .request ∧ next.loops = [.inFlight] ∨
      ∃ i ran received, x = .finish i ran received := by
  cases h with
  | start hidle hloops hnone =>
    rw [hloops] at hs
    cases hs
  | queue hbusy hnone => exact .inl ⟨rfl, hs⟩
  | merge hbusy hsome => exact .inl ⟨rfl, hs⟩
  | finish hloops ran received => exact .inr ⟨_, ran, received, rfl⟩
  | begin hloops | record hloops | again hloops hsome | rest hloops hnone =>
    rw [hloops] at hs
    cases hs

/-- Of the steps after the begin of a run, only requests come before its end. -/
def EndsUncut (i : Nat) (later : List (Step ε α)) : Prop :=
  ∃ rest ran received between,
    later = rest ++ .finish i ran received :: between ∧
    ∀ x ∈ between, x = .request

/-- A run that has begun is in flight, with nothing but requests since, or it
has ended, with nothing but requests in between. -/
theorem uncut_of_after? {later earlier : List (Step ε α)} {i : Nat}
    (h : after? (later ++ .begin i :: earlier) = some s) :
    s.loops = [.inFlight] ∧ (∀ x ∈ later, x = .request) ∨
      EndsUncut i later := by
  induction later generalizing s with
  | nil =>
    obtain ⟨previous, -, hmove⟩ := exists_move h
    cases hmove
    exact .inl ⟨rfl, fun x hx => nomatch hx⟩
  | cons x later ih =>
    obtain ⟨previous, hprevious, hmove⟩ := exists_move h
    rcases ih hprevious with ⟨hflight, hrequests⟩ |
      ⟨rest, ran, received, between, rfl, hbetween⟩
    · rcases hmove.of_inFlight hflight with ⟨rfl, hflight⟩ |
        ⟨j, ran, received, rfl⟩
      · exact .inl ⟨hflight, List.forall_mem_cons.2 ⟨rfl, hrequests⟩⟩
      · -- the loop that ends the run is the one that began it
        have hj : j = 0 := loopOf?_eq_zero [] _ h rfl
        have hi : i = 0 :=
          loopOf?_eq_zero (.finish j ran received :: later) earlier h rfl
        rw [hj, hi]
        exact .inr ⟨[], ran, received, later, rfl, hrequests⟩
    · exact .inr ⟨x :: rest, ran, received, between, rfl, hbetween⟩

/-- When a run begins, the one before it has ended. -/
theorem endsUncut_of_begin {later between earlier : List (Step ε α)} {i j : Nat}
    (h : after? (later ++ .begin j :: (between ++ .begin i :: earlier)) =
      some s) :
    EndsUncut i between := by
  induction later generalizing s with
  | nil =>
    obtain ⟨previous, hprevious, hmove⟩ := exists_move h
    rcases uncut_of_after? hprevious with ⟨hflight, -⟩ | hends
    · cases hmove with
      | begin hdue =>
        rw [hdue] at hflight
        cases hflight
    · exact hends
  | cons x later ih =>
    obtain ⟨previous, hprevious, -⟩ := exists_move h
    exact ih hprevious

/-- A run in flight ends as it would have ended without the request. -/
theorem request_step?_finish {i : Nat} {ran : Except ε α}
    {received : Except ε Unit} (hbusy : s.isRunning = true)
    (h : s.step? (.finish i ran received) = some next) :
    s.request.2.step? (.finish i ran received) = some next.request.2 := by
  rw [step?] at h
  split at h
  · next hi =>
    cases h
    unfold request
    simp only [hbusy, if_true]
    cases s.pending with
    | true => simp [step?, hi]
    | false => simp [step?, hi]
  · cases h

/-! ### Every history -/

/-- What becomes of the requests and the runs of a history. -/
structure Served (history : List (Step ε α)) (s : Schedule ε α) : Prop where
  /-- At rest, a run began after each request, whatever the answer to the
  request was. -/
  begun : s.isRunning = false →
    ∀ later earlier, history = later ++ .request :: earlier →
    ∃ i, .begin i ∈ later
  /-- At rest, every run that began has ended. -/
  ended : s.isRunning = false →
    ∀ later earlier i, history = later ++ .begin i :: earlier →
    EndsUncut i later
  /-- Every run that began has ended before the next begins. -/
  endedFirst : ∀ later between earlier i j,
    history = later ++ .begin j :: (between ++ .begin i :: earlier) →
      EndsUncut i between
  /-- A request neither ends the run in flight nor changes how it can end. -/
  untouched : ∀ i, s.loops[i]? = some .inFlight →
    s.request.2.loops[i]? = some .inFlight ∧ ∀ ran received, ∃ next,
      s.step? (.finish i ran received) = some next ∧
      s.request.2.step? (.finish i ran received) = some next.request.2

/-- A request leaves a run in flight as it is, and the run ends in the same
way. -/
theorem Consistent.untouched {history : List (Step ε α)}
    (h : Consistent history s) {i : Nat} (hi : s.loops[i]? = some .inFlight) :
    s.request.2.loops[i]? = some .inFlight ∧ ∀ ran received, ∃ next,
      s.step? (.finish i ran received) = some next ∧
      s.request.2.step? (.finish i ran received) = some next.request.2 := by
  have hbusy : s.isRunning = true := by
    rw [h.oneLoop.running, (h.oneLoop.eq_singleton hi).2]
    exact List.cons_ne_nil _ _
  constructor
  · unfold request
    simp only [hbusy, if_true]
    cases s.pending with
    | true => exact hi
    | false => exact hi
  · intro ran received
    have hends : s.step? (.finish i ran received) = some { s with
        loops := s.loops.set i (.ended (outcome ran received)) } := by
      rw [step?, hi]
    exact ⟨_, hends, request_step?_finish hbusy hends⟩

/-- No request is lost and no run is cut short, however requests and the steps
of the loop follow one another. -/
theorem served_of_after? {history : List (Step ε α)} {s : Schedule ε α}
    (h : after? history = some s) : Served history s := by
  have hc := consistent_of_after? h
  constructor
  · rintro hidle later earlier rfl
    rcases begun_or_ahead h with hbegun | hahead
    · exact hbegun
    · exact absurd hahead (hc.oneLoop.not_ahead hidle)
  · rintro hidle later earlier i rfl
    rcases uncut_of_after? h with ⟨hflight, -⟩ | hends
    · rw [(hc.oneLoop.idle hidle).1] at hflight
      cases hflight
    · exact hends
  · rintro later between earlier i j rfl
    exact endsUncut_of_begin h
  · intro i hi
    exact hc.untouched hi

/-- A request that comes after the first run, with the second due and not
begun, is followed by a run of its own. -/
theorem served_busyHistory :
    ∃ s, after? busyHistory = some s ∧ s.isRunning = false ∧
    Served busyHistory s ∧
    busyHistory = busyHistory.take 8 ++ .request :: busyHistory.drop 9 ∧
    ∃ i, .begin i ∈ busyHistory.take 8 :=
  ⟨_, rfl, rfl, served_of_after? rfl, rfl,
    (served_of_after? rfl).begun rfl _ (busyHistory.drop 9) rfl⟩

end Schedule

end RenderLoop
