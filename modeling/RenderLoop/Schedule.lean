/-!
# Schedules of runs

At most one run is in flight. A request that comes while the schedule is busy
asks for one more run after the current one, and all further requests until
then are merged into it. A request never cuts a run short.

Runs are made by a loop that a request starts when none is about. A request
only looks at a mark, which the loop takes away when it ends; that there is
never a second loop is not part of the state but follows from the steps.

The steps are atomic: a request, the begin of a run, its end, the record of
its outcome, and the decision what comes next. `Schedule.advance` takes the
steps that wait for nothing outside.
-/

namespace RenderLoop

/-- Where a loop stands. -/
inductive Phase (ε α : Type) where
  /-- A run is due and has not been counted. -/
  | due
  | inFlight
  /-- A run has ended and its outcome is not recorded. -/
  | ended (outcome : Except ε α)
  /-- The outcome is recorded and what comes next is not decided. -/
  | settling
  deriving Inhabited

/-- A schedule of runs that end in an `α` or fail with an `ε`. -/
structure Schedule (ε α : Type) where
  /-- A loop was started and has not ended. -/
  isRunning : Bool := false
  /-- One more run is asked for. -/
  pending : Bool := false
  /-- The loops there are. -/
  loops : List (Phase ε α) := []
  started : Nat := 0
  coalesced : Nat := 0
  lastResult : Option α := none
  lastError : Option ε := none
  deriving Inhabited

/-- An atomic step, of the loop at a position unless it is a request. -/
inductive Step (ε α : Type) where
  | request
  | begin (loop : Nat)
  /-- The run ends: with what it gave, and with what came of handing its result
  on. -/
  | finish (loop : Nat) (ran : Except ε α) (received : Except ε Unit)
  | record (loop : Nat)
  | settle (loop : Nat)
  deriving Inhabited

namespace Schedule

variable {ε α : Type}

/-- A run succeeds if it gives a result and the result is received. -/
def outcome (ran : Except ε α) (received : Except ε Unit) : Except ε α := do
  let a ← ran
  received
  return a

/-- Asks for a run. The answer is whether one starts at once. -/
def request (s : Schedule ε α) : Bool × Schedule ε α :=
  if s.isRunning then
    (false,
      if s.pending then { s with coalesced := s.coalesced + 1 }
      else { s with pending := true })
  else (true, { s with isRunning := true, loops := s.loops ++ [.due] })

/-- Records an outcome. A failure keeps the last result, a success forgets the
last failure. -/
def record (s : Schedule ε α) : Except ε α → Schedule ε α
  | .ok a => { s with lastResult := some a, lastError := none }
  | .error e => { s with lastError := some e }

/-- Takes a step, if the loop it is for stands where the step begins. -/
def step? (s : Schedule ε α) : Step ε α → Option (Schedule ε α)
  | .request => some s.request.2
  | .begin i =>
    match s.loops[i]? with
    | some .due =>
      some { s with loops := s.loops.set i .inFlight, started := s.started + 1 }
    | _ => none
  | .finish i ran received =>
    match s.loops[i]? with
    | some .inFlight =>
      some { s with loops := s.loops.set i (.ended (outcome ran received)) }
    | _ => none
  | .record i =>
    match s.loops[i]? with
    | some (.ended outcome) =>
      some { s.record outcome with loops := s.loops.set i .settling }
    | _ => none
  | .settle i =>
    match s.loops[i]? with
    | some .settling =>
      -- the pending run is due, or the loop ends
      if s.pending then
        some { s with loops := s.loops.set i .due, pending := false }
      else some { s with loops := s.loops.eraseIdx i, isRunning := false }
    | _ => none

/-- Takes a step if it can be taken. -/
def take (s : Schedule ε α) (step : Step ε α) : Schedule ε α :=
  (s.step? step).getD s

/-- The run in flight ends and its outcome is recorded. -/
def complete (s : Schedule ε α) (ran : Except ε α) (received : Except ε Unit) :
    Schedule ε α :=
  (s.take (.finish 0 ran received)).take (.record 0)

/-- Goes on until a run is in flight or the schedule is idle. -/
def advance (s : Schedule ε α) : Schedule ε α :=
  (s.take (.settle 0)).take (.begin 0)

end Schedule

end RenderLoop
