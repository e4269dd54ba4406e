import ClusterFirewall.Controller.Schedule

/-!
# The schedule in time

The events of a schedule happen at times: the timer of the schedule ticks at zero and then at every
interval, and a run goes on at the times that it asked for. Between two such times the worker does
all it can at once. Of timers that are due at the same time, the one that was set first fires
first: a run that ends at the time of a tick is over before the tick if its timer is the older one.

Main statements: `mem_of_mem_first?` and `due_first?_le`, the timer that fires next is one that was
set and none is due before it.
-/

namespace ClusterFirewall

/-! ## Runs -/

/-- How far a run has come. -/
inductive Progress (ω : Type) where
  /-- It is over. -/
  | over (outcome : ω)
  /-- It goes on when a timer of its own fires; it sets some more now, for these times after its
  start. -/
  | waits (times : List Nat)
  deriving DecidableEq, Repr

/-- Work that is done in steps: what a step does this long after the start of the run. -/
abbrev Work (κ ω : Type) := Nat → κ → Progress ω × κ

/-! ## Timers -/

/-- What a timer is set for. -/
inductive TimerPurpose where
  /-- The schedule ticks. -/
  | tick
  /-- The present run goes on. -/
  | wake
  deriving DecidableEq, Repr

/-- Something that is to happen at a time. -/
structure Timer where
  /-- The time. -/
  due : Nat
  /-- What happens. -/
  purpose : TimerPurpose
  deriving DecidableEq, Repr

/-- The timer that fires next, among timers in the order in which they were set. -/
def Timer.first? : List Timer → Option Timer
  | [] => none
  | timer :: rest =>
    match Timer.first? rest with
    | none => some timer
    | some other => some (if other.due < timer.due then other else timer)

/-- The timer that fires next was set. -/
theorem Timer.mem_of_mem_first? {timers : List Timer} {timer : Timer}
    (h : Timer.first? timers = some timer) : timer ∈ timers := by
  induction timers generalizing timer with
  | nil => cases h
  | cons t rest ih =>
    unfold Timer.first? at h
    split at h
    · cases h
      exact List.mem_cons_self
    · rename_i other hother
      obtain rfl := Option.some.inj h
      split
      · exact List.mem_cons_of_mem _ (ih hother)
      · exact List.mem_cons_self

/-- No timer is due before the one that fires next. -/
theorem Timer.due_first?_le {timers : List Timer} {timer : Timer}
    (h : Timer.first? timers = some timer) {t : Timer} (ht : t ∈ timers) : timer.due ≤ t.due := by
  induction timers generalizing timer with
  | nil => cases h
  | cons head rest ih =>
    unfold Timer.first? at h
    split at h
    · rename_i hnone
      cases h
      cases rest with
      | nil => simp_all
      | cons a l =>
        unfold Timer.first? at hnone
        split at hnone <;> cases hnone
    · rename_i other hother
      obtain rfl := Option.some.inj h
      rcases List.mem_cons.1 ht with rfl | ht
      · split <;> omega
      · have := ih hother ht
        split <;> omega

/-! ## Timelines -/

/-- A schedule at a time. -/
structure Timeline (κ ω : Type) where
  /-- The time. -/
  now : Nat
  /-- The time between ticks; if it is zero there are no ticks. -/
  interval : Nat
  /-- The schedule. -/
  schedule : Schedule ω
  /-- What the runs work on. -/
  content : κ
  /-- When the present run started. -/
  startedAt : Nat
  /-- The timers that have not fired, in the order in which they were set. -/
  timers : List Timer

namespace Timeline

variable {κ ω : Type}

/-- The timeline before anything happened. -/
def initial (interval : Nat) (content : κ) : Timeline κ ω :=
  { now := 0
    interval := interval
    schedule := .initial
    content := content
    startedAt := 0
    timers := if interval = 0 then [] else [⟨0, .tick⟩] }

/-- Lets an event of the schedule happen, if it is possible. -/
def happen (t : Timeline κ ω) (e : ScheduleEvent ω) : Timeline κ ω :=
  { t with schedule := (t.schedule.step? e).getD t.schedule }

/-- Asks for a reconciliation. -/
def trigger (t : Timeline κ ω) : Timeline κ ω := t.happen .trigger

/-- Takes the next step of the present run. A run that is over leaves no timers behind. -/
def proceed (w : Work κ ω) (t : Timeline κ ω) : Timeline κ ω :=
  match w (t.now - t.startedAt) t.content with
  | (.over outcome, content) =>
    let timers := t.timers.filter fun timer => timer.purpose = .tick
    { t with content := content, timers := timers }.happen (.finish outcome)
  | (.waits times, content) =>
    { t with
      content := content
      timers := t.timers ++ times.map fun time => ⟨t.startedAt + time, .wake⟩ }

/-- Lets the worker do one thing: start a run, with the run's first step, or wait. -/
def move (w : Work κ ω) (t : Timeline κ ω) : Timeline κ ω :=
  match t.schedule.start? with
  | some s => { t with schedule := s, startedAt := t.now }.proceed w
  | none => t.happen .park

/-- Lets the worker do all it can: a signal that woke it and one that was kept give at most two
runs, after which it waits. -/
def settle (w : Work κ ω) (t : Timeline κ ω) : Timeline κ ω := ((t.move w).move w).move w

/-- Lets the schedule tick and sets the timer for the next tick. -/
def tick (t : Timeline κ ω) : Timeline κ ω :=
  let next : Timer := ⟨t.now + t.interval, .tick⟩
  { t with timers := t.timers ++ [next] }.happen .tick

/-- Lets a timer fire, and the worker do what follows. -/
def fire (w : Work κ ω) (timer : Timer) (t : Timeline κ ω) : Timeline κ ω :=
  let t := { t with now := timer.due, timers := t.timers.erase timer }
  (match timer.purpose with
    | .tick => t.tick
    | .wake => t.proceed w).settle w

/-- Lets timers fire up to a time, at most `n` of them. -/
def advance (w : Work κ ω) (horizon : Nat) : Nat → Timeline κ ω → Timeline κ ω
  | 0, t => t
  | n + 1, t =>
    match Timer.first? t.timers with
    | none => { t with now := horizon }
    | some timer =>
      if timer.due ≤ horizon then advance w horizon n (t.fire w timer)
      else { t with now := horizon }

/-- Lets time pass. Every tick leads to at most one run and every run sets at most two timers, which
bounds the number of timers that fire. -/
def wait (w : Work κ ω) (span : Nat) (t : Timeline κ ω) : Timeline κ ω :=
  (t.settle w).advance w (t.now + span) (4 * (span / t.interval + 4))

end Timeline

end ClusterFirewall
