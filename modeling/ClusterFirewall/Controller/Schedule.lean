/-!
# The schedule of reconciliations

One worker runs the reconciliations. Ticks of a timer and triggers wake it; a signal that finds it
awake is kept as a permit, of which there is at most one, so the signals that arrive during a run
lead to one more run. What happens is a sequence of events; `Schedule.step?` says which of them are
possible and what they do.

Main statements: `step?_signal` and `step?_finish` describe the events that are not the worker's
own choice.
-/

namespace ClusterFirewall

/-- What the worker is doing. -/
inductive Phase where
  /-- It is about to look for a signal. -/
  | ready
  /-- It waits for a signal. -/
  | parked
  /-- A signal has woken it. -/
  | roused
  /-- It runs a reconciliation. -/
  | running
  deriving DecidableEq, Repr

/-- What is published about the reconciliations. -/
structure Status (ω : Type) where
  /-- The number of runs started so far. -/
  iteration : Nat
  /-- Whether a run is in progress. -/
  running : Bool
  /-- The number and the outcome of the last run that ended. -/
  last : Option (Nat × ω)
  deriving DecidableEq, Repr

/-- The state of the schedule. -/
structure Schedule (ω : Type) where
  /-- What the worker is doing. -/
  phase : Phase
  /-- Whether a signal is kept for the worker. -/
  permit : Bool
  /-- What is published. -/
  status : Status ω
  deriving DecidableEq, Repr

/-- What can happen. -/
inductive ScheduleEvent (ω : Type) where
  /-- The timer fires. -/
  | tick
  /-- A reconciliation is asked for. -/
  | trigger
  /-- The worker starts a run. -/
  | start
  /-- The worker finds no signal and waits. -/
  | park
  /-- The run ends. -/
  | finish (outcome : ω)
  deriving DecidableEq, Repr

namespace Schedule

variable {ω : Type}

/-- The schedule before anything happened. -/
def initial : Schedule ω := ⟨.ready, false, ⟨0, false, none⟩⟩

instance : Inhabited (Schedule ω) := ⟨initial⟩

/-- A signal wakes the waiting worker; else it is kept. -/
def signal (s : Schedule ω) : Schedule ω :=
  match s.phase with
  | .parked => { s with phase := .roused }
  | _ => { s with permit := true }

/-- The schedule with a run in progress. -/
def run (s : Schedule ω) (permit : Bool) : Schedule ω :=
  { phase := .running
    permit := permit
    status := { s.status with iteration := s.status.iteration + 1, running := true } }

/-- The worker starts a run if it was woken, or if it looks for a signal and one was kept. -/
def start? (s : Schedule ω) : Option (Schedule ω) :=
  match s.phase, s.permit with
  | .roused, permit => some (s.run permit)
  | .ready, true => some (s.run false)
  | _, _ => none

/-- The worker waits if it looks for a signal and none was kept. -/
def park? (s : Schedule ω) : Option (Schedule ω) :=
  match s.phase, s.permit with
  | .ready, false => some { s with phase := .parked }
  | _, _ => none

/-- A run ends with an outcome. -/
def finish? (s : Schedule ω) (outcome : ω) : Option (Schedule ω) :=
  match s.phase with
  | .running =>
    some
      { s with
        phase := .ready
        status :=
          { s.status with running := false, last := some (s.status.iteration, outcome) } }
  | _ => none

/-- What an event does, if it is possible. -/
def step? (s : Schedule ω) : ScheduleEvent ω → Option (Schedule ω)
  | .tick => some s.signal
  | .trigger => some s.signal
  | .start => s.start?
  | .park => s.park?
  | .finish outcome => s.finish? outcome

/-- The state after a sequence of events, if all of them are possible. -/
def replay? (s : Schedule ω) : List (ScheduleEvent ω) → Option (Schedule ω)
  | [] => some s
  | e :: rest => (s.step? e).bind fun s => s.replay? rest

/-- A signal is always possible. -/
theorem step?_signal (s : Schedule ω) : s.step? .tick = s.step? .trigger := rfl

/-- A run can end exactly when one is in progress. -/
theorem step?_finish (s : Schedule ω) (outcome : ω) :
    (s.step? (.finish outcome)).isSome ↔ s.phase = .running := by
  cases h : s.phase <;> simp [step?, finish?, h]

end Schedule

end ClusterFirewall
