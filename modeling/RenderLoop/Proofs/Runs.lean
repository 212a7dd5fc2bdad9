import RenderLoop.Schedule
import RenderLoop.Proofs.Outcome

/-!
# One loop, and every request accounted for

A schedule gets from state to state by single steps, taken in any order in
which they can be taken. The history of a state lists the steps that led
there, the latest first (`Schedule.after?`).

> `Moves.of_step?`: as long as there is at most one loop, and one iff the
> schedule says that it is running, a step is one of eight moves.

> `Consistent.move`: each of the moves keeps the one loop and the balance of
> requests, and what is recorded stays what the runs came to.

So in every state a schedule gets into, however requests fall between the
steps of the loop, each request was counted as a run, merged into one, or
waits for one (`accounted_of_after?`).

The history is the only ghost state. It is not part of a schedule, and nothing
that a schedule does depends on it; it lets the statements speak of all
requests and all runs so far. The invariant holds at the start, each move
keeps it, and so it holds of every state that some history leads to
(`consistent_of_after?`).
-/

namespace RenderLoop

variable {ε α : Type}

namespace Step

def isRequest : Step ε α → Bool
  | request => true
  | _ => false

/-- The run that a step ends: what it gave, and what came of handing its
result on. -/
def run? : Step ε α → Option (Except ε α × Except ε Unit)
  | finish _ ran received => some (ran, received)
  | _ => none

end Step

namespace Phase

def isDue : Phase ε α → Bool
  | due => true
  | _ => false

def isInFlight : Phase ε α → Bool
  | inFlight => true
  | _ => false

/-- An outcome that waits to be recorded. -/
def unrecorded? : Phase ε α → Option (Except ε α)
  | ended outcome => some outcome
  | _ => none

end Phase

namespace Schedule

/-- A run comes to a result iff it gives one and its receiver takes it. -/
theorem outcome_eq_ok {ran : Except ε α} {received : Except ε Unit} {a : α} :
    outcome ran received = .ok a ↔ ran = .ok a ∧ received = .ok () := by
  unfold outcome
  constructor
  · intro h
    obtain ⟨b, hran, h⟩ := bind_eq_ok.1 h
    obtain ⟨⟨⟩, hreceived, h⟩ := bind_eq_ok.1 h
    cases h
    exact ⟨hran, hreceived⟩
  · intro h
    rw [h.1, h.2]
    rfl

/-- The state that a history leads to, if each of its steps can be taken where
it comes. The latest step comes first. -/
def after? : List (Step ε α) → Option (Schedule ε α)
  | [] => some {}
  | x :: history => (after? history).bind (·.step? x)

/-! ### What steps do -/

/-- The mark tells whether there is a loop, and there is no second one. -/
structure OneLoop (s : Schedule ε α) : Prop where
  atMostOne : s.loops.length ≤ 1
  running : s.isRunning = true ↔ s.loops ≠ []
  pending : s.pending = true → s.isRunning = true

/-- What a step does to a schedule with at most one loop. -/
inductive Moves (s : Schedule ε α) : Step ε α → Schedule ε α → Prop where
  | start (hidle : s.isRunning = false) (hloops : s.loops = [])
      (hnone : s.pending = false) :
    Moves s .request { s with isRunning := true, loops := [.due] }
  | queue (hbusy : s.isRunning = true) (hnone : s.pending = false) :
    Moves s .request { s with pending := true }
  | merge (hbusy : s.isRunning = true) (hsome : s.pending = true) :
    Moves s .request { s with coalesced := s.coalesced + 1 }
  | begin {i : Nat} (hloops : s.loops = [.due]) :
    Moves s (.begin i) { s with loops := [.inFlight], started := s.started + 1 }
  | finish {i : Nat} (hloops : s.loops = [.inFlight]) (ran : Except ε α)
      (received : Except ε Unit) :
    Moves s (.finish i ran received)
      { s with loops := [.ended (outcome ran received)] }
  | record {i : Nat} {o : Except ε α} (hloops : s.loops = [.ended o]) :
    Moves s (.record i) { s.record o with loops := [.settling] }
  | again {i : Nat} (hloops : s.loops = [.settling])
      (hsome : s.pending = true) :
    Moves s (.settle i) { s with loops := [.due], pending := false }
  | rest {i : Nat} (hloops : s.loops = [.settling])
      (hnone : s.pending = false) :
    Moves s (.settle i) { s with loops := [], isRunning := false }

variable {s next : Schedule ε α} {x : Step ε α}

/-- The loop that a step is for is the only one. -/
theorem OneLoop.eq_singleton (h : s.OneLoop) {i : Nat} {phase : Phase ε α}
    (hi : s.loops[i]? = some phase) : i = 0 ∧ s.loops = [phase] := by
  have hone := h.atMostOne
  cases hloops : s.loops with
  | nil =>
    rw [hloops] at hi
    cases hi
  | cons first others =>
    rw [hloops, List.length_cons] at hone
    have hothers : others = [] := List.eq_nil_of_length_eq_zero (by omega)
    subst hothers
    rw [hloops] at hi
    cases i with
    | zero =>
      cases hi
      exact ⟨rfl, rfl⟩
    | succ i => cases hi

/-- A schedule at rest has no loop and nothing pending. -/
theorem OneLoop.idle (h : s.OneLoop) (hidle : s.isRunning = false) :
    s.loops = [] ∧ s.pending = false := by
  constructor
  · refine Classical.not_not.1 fun hsome => ?_
    rw [h.running.2 hsome] at hidle
    cases hidle
  · rw [Bool.eq_false_iff]
    intro hpending
    rw [h.pending hpending] at hidle
    cases hidle

/-- The one loop goes on to another phase. -/
theorem OneLoop.onward (h : s.OneLoop) {phase phase' : Phase ε α}
    (hloops : s.loops = [phase]) (hnext : next.loops = [phase'])
    (hrunning : next.isRunning = s.isRunning) :
    next.OneLoop := by
  have hbusy : next.isRunning = true := by
    rw [hrunning, h.running, hloops]
    exact List.cons_ne_nil _ _
  refine ⟨?_, ⟨fun _ => ?_, fun _ => hbusy⟩, fun _ => hbusy⟩
  · rw [hnext]
    exact Nat.le_refl 1
  · rw [hnext]
    exact List.cons_ne_nil _ _

/-- A request starts a loop, or is left for the loop there is, or is merged
with one that is left already. -/
theorem Moves.of_request (h : s.OneLoop) : s.Moves .request s.request.2 := by
  unfold request
  split
  · next hbusy =>
    show s.Moves .request (if s.pending then _ else _)
    split
    · next hsome => exact .merge hbusy hsome
    · next hnone => exact .queue hbusy (Bool.eq_false_iff.2 hnone)
  · next hidle =>
    have hidle : s.isRunning = false := Bool.eq_false_iff.2 hidle
    obtain ⟨hloops, hnone⟩ := h.idle hidle
    rw [hloops]
    exact .start hidle hloops hnone

/-- With at most one loop every step is one of the moves. -/
theorem Moves.of_step? (h : s.OneLoop) (hx : s.step? x = some next) :
    s.Moves x next := by
  cases x with
  | request =>
    cases hx
    exact .of_request h
  | begin i =>
    rw [step?] at hx
    split at hx
    · next hi =>
      obtain ⟨rfl, hloops⟩ := h.eq_singleton hi
      cases hx
      rw [hloops]
      exact .begin hloops
    · cases hx
  | finish i ran received =>
    rw [step?] at hx
    split at hx
    · next hi =>
      obtain ⟨rfl, hloops⟩ := h.eq_singleton hi
      cases hx
      rw [hloops]
      exact .finish hloops ran received
    · cases hx
  | record i =>
    rw [step?] at hx
    split at hx
    · next o hi =>
      obtain ⟨rfl, hloops⟩ := h.eq_singleton hi
      cases hx
      rw [hloops]
      exact .record hloops
    · cases hx
  | settle i =>
    rw [step?] at hx
    split at hx
    · next hi =>
      obtain ⟨rfl, hloops⟩ := h.eq_singleton hi
      split at hx
      · next hpending =>
        cases hx
        rw [hloops]
        exact .again hloops hpending
      · next hpending =>
        cases hx
        rw [hloops]
        exact .rest hloops (by simpa using hpending)
    · cases hx

/-! ### What steps keep -/

/-- The requests of a history. -/
def requests (history : List (Step ε α)) : Nat := history.countP Step.isRequest

theorem requests_request (history : List (Step ε α)) :
    requests (.request :: history) = requests history + 1 :=
  List.countP_cons_of_pos rfl

/-- The runs that ended in a history, the latest first. -/
def runs (history : List (Step ε α)) : List (Except ε α × Except ε Unit) :=
  history.filterMap Step.run?

/-- What the runs of a history came to, the latest first. -/
def outcomes (history : List (Step ε α)) : List (Except ε α) :=
  (runs history).map fun run => outcome run.1 run.2

def failure? : Except ε α → Option ε
  | .ok _ => none
  | .error e => some e

/-- Of some outcomes, the latest first, the failure and the result that a
schedule shows: the failure of the latest, if it is one, and the result of the
latest that is none. -/
structure Shows (error : Option ε) (result : Option α)
    (recorded : List (Except ε α)) : Prop where
  error : error = recorded.head?.bind failure?
  result : result = recorded.findSome? Except.toOption

/-- Recording an outcome shows it: a failure beside the last result, or a new
result without one. -/
theorem Shows.record {recorded : List (Except ε α)}
    (h : Shows s.lastError s.lastResult recorded) (o : Except ε α) :
    Shows (s.record o).lastError (s.record o).lastResult (o :: recorded) := by
  cases o with
  | ok a => exact ⟨rfl, rfl⟩
  | error e => exact ⟨rfl, h.result⟩

/-- What is true of a schedule with a history: one loop, a balance of
requests, and a record of all runs but the one that just ended. -/
structure Consistent (history : List (Step ε α)) (s : Schedule ε α) : Prop where
  oneLoop : s.OneLoop
  balance : requests history =
    s.started + s.coalesced + s.pending.toNat + s.loops.countP Phase.isDue
  shows : ∃ recorded, Shows s.lastError s.lastResult recorded ∧
    outcomes history = s.loops.filterMap Phase.unrecorded? ++ recorded

/-- To begin with there is nothing to account for. -/
theorem consistent_start : Consistent [] ({} : Schedule ε α) where
  oneLoop := ⟨Nat.zero_le 1, by simp, by simp⟩
  balance := rfl
  shows := ⟨[], ⟨rfl, rfl⟩, rfl⟩

/-- A move keeps a schedule consistent. -/
theorem Consistent.move {history : List (Step ε α)} (h : Consistent history s)
    (hmove : s.Moves x next) : Consistent (x :: history) next := by
  obtain ⟨hone, hbalance, recorded, hshows, houtcomes⟩ := h
  cases hmove with
  | start hidle hloops hnone =>
    rw [hloops] at hbalance houtcomes
    refine ⟨⟨Nat.le_refl 1, by simp, fun _ => rfl⟩, ?_, recorded,
      hshows, houtcomes⟩
    rw [requests_request, hbalance]
    rfl
  | queue hbusy hnone =>
    refine ⟨⟨hone.atMostOne, hone.running, fun _ => hbusy⟩, ?_, recorded,
      hshows, houtcomes⟩
    rw [hnone, Bool.toNat_false] at hbalance
    show _ = s.started + s.coalesced + 1 + s.loops.countP Phase.isDue
    rw [requests_request, hbalance]
    omega
  | merge hbusy hsome =>
    refine ⟨⟨hone.atMostOne, hone.running, hone.pending⟩, ?_, recorded,
      hshows, houtcomes⟩
    show _ = s.started + (s.coalesced + 1) + s.pending.toNat +
      s.loops.countP Phase.isDue
    rw [requests_request]
    omega
  | begin hloops =>
    refine ⟨hone.onward hloops rfl rfl, ?_, recorded, hshows, ?_⟩
    · -- the run that was due is now among the started ones
      have hdue : s.loops.countP Phase.isDue = 1 := by rw [hloops]; rfl
      show requests history = s.started + 1 + s.coalesced + s.pending.toNat + 0
      omega
    · rw [hloops] at houtcomes
      exact houtcomes
  | finish hloops ran received =>
    rw [hloops] at hbalance houtcomes
    refine ⟨hone.onward hloops rfl rfl, hbalance, recorded, hshows, ?_⟩
    exact congrArg (outcome ran received :: ·) houtcomes
  | @record _ o hloops =>
    rw [hloops] at hbalance houtcomes
    cases o with
    | ok a =>
      exact ⟨hone.onward hloops rfl rfl, hbalance, .ok a :: recorded,
        hshows.record _, houtcomes⟩
    | error e =>
      exact ⟨hone.onward hloops rfl rfl, hbalance, .error e :: recorded,
        hshows.record _, houtcomes⟩
  | again hloops hsome =>
    rw [hloops, hsome] at hbalance
    rw [hloops] at houtcomes
    exact ⟨hone.onward hloops rfl rfl, hbalance, recorded, hshows, houtcomes⟩
  | rest hloops hnone =>
    rw [hloops] at hbalance houtcomes
    refine ⟨⟨Nat.zero_le 1, by simp, fun hp => ?_⟩, hbalance, recorded,
      hshows, houtcomes⟩
    have hsome : s.pending = true := hp
    rw [hnone] at hsome
    cases hsome

/-- Every state that a history leads to is consistent with it. -/
theorem consistent_of_after? {history : List (Step ε α)}
    (h : after? history = some s) :
    Consistent history s := by
  induction history generalizing s with
  | nil =>
    cases h
    exact consistent_start
  | cons x history ih =>
    obtain ⟨previous, hprevious, hx⟩ := Option.bind_eq_some_iff.1 h
    exact (ih hprevious).move (.of_step? (ih hprevious).oneLoop hx)

/-! ### Every state -/

/-- The account of a schedule after a history. -/
structure Accounted (history : List (Step ε α)) (s : Schedule ε α) : Prop where
  oneLoop : s.loops.length ≤ 1
  oneRun : s.loops.countP Phase.isInFlight ≤ 1
  live : s.loops ≠ [] ↔ s.isRunning = true
  running_of_pending : s.pending = true → s.isRunning = true
  /-- Each request was counted as a run, was merged, is pending, or is due to be
  counted. -/
  balance : requests history =
    s.started + s.coalesced + s.pending.toNat + s.loops.countP Phase.isDue
  balance_idle : s.isRunning = false →
    requests history = s.started + s.coalesced
  /-- Unless an outcome waits to be recorded, the latest run decides whether a
  failure is shown. -/
  error : (∀ o, .ended o ∉ s.loops) →
    ∀ ran received, (runs history).head? = some (ran, received) →
    (s.lastError = none ↔ ∃ a, ran = .ok a ∧ received = .ok ())
  /-- Unless an outcome waits to be recorded, the result shown is that of the
  latest run that succeeded. -/
  result : (∀ o, .ended o ∉ s.loops) → ∀ a, s.lastResult = some a ↔
    ∃ later earlier, runs history = later ++ (.ok a, .ok ()) :: earlier ∧
      ∀ run ∈ later, ∀ b, run ≠ (.ok b, .ok ())

theorem failure?_eq_none {o : Except ε α} :
    failure? o = none ↔ ∃ a, o = .ok a := by
  cases o with
  | ok a => exact ⟨fun _ => ⟨a, rfl⟩, fun _ => rfl⟩
  | error e =>
    constructor
    · intro h
      cases h
    · rintro ⟨a, h⟩
      cases h

/-- An outcome is a result iff the run gave it and its receiver took it. -/
theorem toOption_outcome {run : Except ε α × Except ε Unit} {a : α} :
    (outcome run.1 run.2).toOption = some a ↔ run = (.ok a, .ok ()) := by
  have hoption : ∀ o : Except ε α, o.toOption = some a ↔ o = .ok a := by
    intro o
    cases o <;> simp [Except.toOption]
  rw [hoption, outcome_eq_ok, Prod.ext_iff]

/-- With no outcome waiting, all outcomes of a history are shown. -/
theorem Consistent.shows_outcomes {history : List (Step ε α)}
    (h : Consistent history s) (hrecorded : ∀ o, .ended o ∉ s.loops) :
    Shows s.lastError s.lastResult (outcomes history) := by
  obtain ⟨recorded, hshows, houtcomes⟩ := h.shows
  have hnone : s.loops.filterMap Phase.unrecorded? = [] := by
    refine List.filterMap_eq_nil_iff.2 fun phase hphase => ?_
    cases phase with
    | ended o => exact absurd hphase (hrecorded o)
    | due => rfl
    | inFlight => rfl
    | settling => rfl
  rw [houtcomes, hnone]
  exact hshows

/-- In every state, requests having come at any time, there is at most one
loop and one run, and the requests, the last failure and the last result are
accounted for. -/
theorem accounted_of_after? {history : List (Step ε α)} {s : Schedule ε α}
    (h : after? history = some s) : Accounted history s := by
  have hc := consistent_of_after? h
  refine ⟨hc.oneLoop.atMostOne,
    Nat.le_trans List.countP_le_length hc.oneLoop.atMostOne,
    hc.oneLoop.running.symm, hc.oneLoop.pending, hc.balance, fun hidle => ?_,
    fun hrecorded ran received hlatest => ?_, fun hrecorded a => ?_⟩
  · obtain ⟨hloops, hnone⟩ := hc.oneLoop.idle hidle
    rw [hc.balance, hloops, hnone]
    rfl
  · have hhead : (outcomes history).head? = some (outcome ran received) := by
      rw [outcomes, List.head?_map, hlatest]
      rfl
    rw [(hc.shows_outcomes hrecorded).error, hhead, Option.bind_some,
      failure?_eq_none]
    simp only [outcome_eq_ok]
  · rw [(hc.shows_outcomes hrecorded).result, outcomes, List.findSome?_map,
      List.findSome?_eq_some_iff]
    constructor
    · rintro ⟨later, run, earlier, hruns, hrun, hlater⟩
      obtain rfl := toOption_outcome.1 hrun
      refine ⟨later, earlier, hruns, fun other hother b hb => ?_⟩
      have hnone : (outcome other.1 other.2).toOption = none :=
        hlater other hother
      rw [toOption_outcome.2 hb] at hnone
      cases hnone
    · rintro ⟨later, earlier, hruns, hlater⟩
      refine ⟨later, _, earlier, hruns, toOption_outcome.2 rfl,
        fun other hother => ?_⟩
      exact Option.eq_none_iff_forall_ne_some.2 fun b hb =>
        hlater other hother b (toOption_outcome.1 hb)

/-- Requests come before the first run is counted, while it runs, while it
ends, and between two runs; the second run is refused by its receiver and the
last one fails. -/
def busyHistory : List (Step String Nat) :=
  [.request, .request, .begin 0, .request, .finish 0 (.ok 1) (.ok ()), .request,
    .record 0, .settle 0, .request, .begin 0,
    .finish 0 (.ok 2) (.error "refused"), .record 0, .settle 0, .begin 0,
    .finish 0 (.error "broken") (.ok ()), .record 0, .settle 0].reverse

/-- All the times at which a request can come, in one history. -/
theorem accounted_busyHistory :
    ∃ s, after? busyHistory = some s ∧ Accounted busyHistory s ∧
    s.isRunning = false ∧ s.started = 3 ∧ s.coalesced = 2 ∧
      s.lastResult = some 1 ∧
    s.lastError = some "broken" :=
  ⟨_, rfl, accounted_of_after? rfl, rfl, rfl, rfl, rfl, rfl⟩

end Schedule

end RenderLoop
