import ClusterFirewall.Controller.Schedule

/-!
# Signals of a schedule

Ticks and triggers reach a worker that waits, runs, or is just about to do either. Whatever the
order, a signal finds a worker that it wakes, or it leaves a permit; and a run uses up one of the
two. So a signal leads to a run that starts after it, the signals during a run lead to one run more,
and no run starts without a signal.

`Schedule.Step` says once what a step of the schedule can do; everything else is derived from it.
Main statement: `signals_kept_and_coalesced`.
-/

namespace ClusterFirewall

/-! ## Events -/

namespace ScheduleEvent

variable {ω : Type}

/-- Whether an event is a signal to the worker. -/
def isSignal : ScheduleEvent ω → Bool
  | .tick => true
  | .trigger => true
  | .start => false
  | .park => false
  | .finish _ => false

/-- Whether a run starts. -/
def isStart : ScheduleEvent ω → Bool
  | .start => true
  | .tick => false
  | .trigger => false
  | .park => false
  | .finish _ => false

theorem isStart_of_isSignal {e : ScheduleEvent ω} (he : e.isSignal) : e.isStart = false := by
  cases e with
  | start => cases he
  | tick => rfl
  | trigger => rfl
  | park => rfl
  | finish => rfl

end ScheduleEvent

namespace Schedule

variable {ω : Type} {s s' : Schedule ω} {e : ScheduleEvent ω} {events : List (ScheduleEvent ω)}

/-! ## Steps -/

/-- The schedule after a run that ended with an outcome. -/
def ended (s : Schedule ω) (outcome : ω) : Schedule ω :=
  { s with
    phase := .ready
    status := { s.status with running := false, last := some (s.status.iteration, outcome) } }

/-- What a step of the schedule can do. -/
inductive Step : Schedule ω → ScheduleEvent ω → Schedule ω → Prop where
  /-- A signal wakes the worker. -/
  | rouse {s : Schedule ω} {e : ScheduleEvent ω} (he : e.isSignal) (hphase : s.phase = .parked) :
      Step s e { s with phase := .roused }
  /-- A signal is kept. -/
  | keep {s : Schedule ω} {e : ScheduleEvent ω} (he : e.isSignal) (hphase : s.phase ≠ .parked) :
      Step s e { s with permit := true }
  /-- The worker starts a run because it was woken. -/
  | startRoused {s : Schedule ω} (hphase : s.phase = .roused) : Step s .start (s.run s.permit)
  /-- The worker starts a run because a signal was kept. -/
  | startKept {s : Schedule ω} (hphase : s.phase = .ready) (hpermit : s.permit = true) :
      Step s .start (s.run false)
  /-- The worker waits. -/
  | park {s : Schedule ω} (hphase : s.phase = .ready) (hpermit : s.permit = false) :
      Step s .park { s with phase := .parked }
  /-- A run ends. -/
  | finish {s : Schedule ω} (outcome : ω) (hphase : s.phase = .running) :
      Step s (.finish outcome) (s.ended outcome)

theorem step_signal (he : e.isSignal) (s : Schedule ω) : Step s e s.signal := by
  unfold signal
  split
  · exact .rouse he ‹_›
  · exact .keep he ‹_›

theorem step_of_step? (h : s.step? e = some s') : Step s e s' := by
  obtain ⟨phase, permit, status⟩ := s
  cases e with
  | tick =>
    obtain rfl := Option.some.inj h
    exact step_signal rfl _
  | trigger =>
    obtain rfl := Option.some.inj h
    exact step_signal rfl _
  | start =>
    cases phase with
    | parked => cases h
    | running => cases h
    | roused =>
      obtain rfl := Option.some.inj h
      exact .startRoused rfl
    | ready =>
      cases permit with
      | false => cases h
      | true =>
        obtain rfl := Option.some.inj h
        exact .startKept rfl rfl
  | park =>
    cases phase with
    | parked => cases h
    | running => cases h
    | roused => cases h
    | ready =>
      cases permit with
      | true => cases h
      | false =>
        obtain rfl := Option.some.inj h
        exact .park rfl rfl
  | finish outcome =>
    cases phase with
    | running =>
      obtain rfl := Option.some.inj h
      exact .finish outcome rfl
    | parked => cases h
    | roused => cases h
    | ready => cases h

theorem step?_of_isSignal (he : e.isSignal) (s : Schedule ω) : s.step? e = some s.signal := by
  cases e with
  | tick => rfl
  | trigger => rfl
  | start => cases he
  | park => cases he
  | finish => cases he

theorem step?_eq_some_iff : s.step? e = some s' ↔ Step s e s' := by
  refine ⟨step_of_step?, fun h => ?_⟩
  cases h with
  | rouse he hphase => rw [step?_of_isSignal he, signal, hphase]
  | keep he hphase =>
    rw [step?_of_isSignal he, signal]
    split
    · exact absurd ‹_› hphase
    · rfl
  | startRoused hphase => simp only [step?, start?, hphase]
  | startKept hphase hpermit => simp only [step?, start?, hphase, hpermit]
  | park hphase hpermit => simp only [step?, park?, hphase, hpermit]
  | finish outcome hphase => simp only [step?, finish?, hphase, ended]

/-! ## Runs of the schedule -/

theorem replay?_cons (s : Schedule ω) (e : ScheduleEvent ω) (rest : List (ScheduleEvent ω)) :
    s.replay? (e :: rest) = (s.step? e).bind fun s => s.replay? rest := rfl

theorem replay?_append (s : Schedule ω) (events more : List (ScheduleEvent ω)) :
    s.replay? (events ++ more) = (s.replay? events).bind fun s => s.replay? more := by
  induction events generalizing s with
  | nil => rfl
  | cons e rest ih => simp only [List.cons_append, replay?_cons, ih, Option.bind_assoc]

theorem replay?_concat_eq_some_iff {last : ScheduleEvent ω} :
    s.replay? (events ++ [last]) = some s' ↔
      ∃ before, s.replay? events = some before ∧ Step before last s' := by
  have hone : ∀ before : Schedule ω, before.replay? [last] = before.step? last :=
    fun before => Option.bind_fun_some (before.step? last)
  simp only [replay?_append, Option.bind_eq_some_iff, hone, step?_eq_some_iff]

theorem isSome_replay?_cons_iff :
    (s.replay? (e :: events)).isSome ↔ ∃ next, Step s e next ∧ (next.replay? events).isSome := by
  rw [replay?_cons]
  constructor
  · intro h
    obtain ⟨last, hlast⟩ := Option.isSome_iff_exists.1 h
    obtain ⟨next, hnext, hrest⟩ := Option.bind_eq_some_iff.1 hlast
    exact ⟨next, step?_eq_some_iff.1 hnext, Option.isSome_of_eq_some hrest⟩
  · rintro ⟨next, hnext, hrest⟩
    rw [step?_eq_some_iff.2 hnext]
    exact hrest

/-- What every step keeps holds after a run if it held before. -/
theorem invariant_of_replay? {P : Schedule ω → Prop}
    (hstep : ∀ s e s', e ∈ events → Step s e s' → P s → P s') (h : s.replay? events = some s')
    (hs : P s) : P s' := by
  induction events generalizing s with
  | nil =>
    obtain rfl := Option.some.inj h
    exact hs
  | cons e rest ih =>
    obtain ⟨next, hnext, hrest⟩ := Option.bind_eq_some_iff.1 h
    apply ih _ hrest
    · exact hstep s e next List.mem_cons_self (step?_eq_some_iff.1 hnext) hs
    · exact fun s e s' he => hstep s e s' (List.mem_cons_of_mem _ he)

/-! ## No signal is lost -/

/-- A run is due: the worker was woken, or it will find a permit when it looks for a signal. -/
def Due (s : Schedule ω) : Prop := s.phase = .roused ∨ s.phase ≠ .parked ∧ s.permit = true

theorem Step.due_of_isSignal (h : Step s e s') (he : e.isSignal) : s'.Due := by
  cases h with
  | rouse => exact .inl rfl
  | keep _ hphase => exact .inr ⟨hphase, rfl⟩
  | startRoused => cases he
  | startKept => cases he
  | park => cases he
  | finish => cases he

/-- Only a run that starts settles what is due. -/
theorem Step.due (h : Step s e s') (he : e.isStart = false) (hdue : s.Due) : s'.Due := by
  cases h with
  | rouse => exact .inl rfl
  | keep _ hphase => exact .inr ⟨hphase, rfl⟩
  | startRoused => cases he
  | startKept => cases he
  | park hphase hpermit =>
    -- A worker that was woken, or that finds a permit, does not go to wait.
    rcases hdue with hroused | ⟨-, hkept⟩
    · rw [hphase] at hroused
      cases hroused
    · rw [hpermit] at hkept
      cases hkept
  | finish outcome hphase =>
    -- A permit that was kept during the run is still there after it.
    rcases hdue with hroused | ⟨-, hkept⟩
    · rw [hphase] at hroused
      cases hroused
    · exact .inr ⟨nofun, hkept⟩

theorem due_of_replay? (hevents : ∀ e ∈ events, e.isStart = false) (h : s.replay? events = some s')
    (hsignal : ∃ e ∈ events, e.isSignal) : s'.Due := by
  obtain ⟨e, he, hesignal⟩ := hsignal
  -- From the signal on, a run is due.
  obtain ⟨before, after, rfl⟩ := List.append_of_mem he
  rw [replay?_append] at h
  obtain ⟨middle, -, hmiddle⟩ := Option.bind_eq_some_iff.1 h
  obtain ⟨next, hnext, hafter⟩ := Option.bind_eq_some_iff.1 hmiddle
  have hdue : next.Due := (step?_eq_some_iff.1 hnext).due_of_isSignal hesignal
  refine invariant_of_replay? (P := Due) ?_ hafter hdue
  intro s e' s' he' hstep
  exact hstep.due (hevents e' (List.mem_append_right _ (List.mem_cons_of_mem _ he')))

/-- A run that is due is kept by a permit as long as another one goes on; else it is all that the
worker can do. -/
theorem Due.running_or_start (h : s.Due) :
    s.phase = .running ∧ s.permit = true ∨
      s.phase ≠ .running ∧ (s.step? .start).isSome ∧ s.step? .park = none := by
  obtain ⟨phase, permit, status⟩ := s
  cases phase with
  | ready =>
    rcases h with hroused | ⟨-, hkept⟩
    · cases hroused
    · obtain rfl : permit = true := hkept
      exact .inr ⟨nofun, rfl, rfl⟩
  | parked =>
    rcases h with hroused | ⟨hphase, -⟩
    · cases hroused
    · exact absurd rfl hphase
  | roused => exact .inr ⟨nofun, rfl, rfl⟩
  | running =>
    rcases h with hroused | ⟨-, hkept⟩
    · cases hroused
    · exact .inl ⟨rfl, hkept⟩

/-! ## No run without a signal -/

/-- The runs that signals have earned and that have not started. -/
def credit (s : Schedule ω) : Nat := s.permit.toNat + if s.phase = .roused then 1 else 0

/-- A signal earns one run at most, and a run that starts uses up one that was earned. -/
theorem Step.credit_le (h : Step s e s') :
    (if e.isStart then 1 else 0) + s'.credit ≤ (if e.isSignal then 1 else 0) + s.credit := by
  cases h with
  | rouse he hphase => simp [credit, he, hphase, ScheduleEvent.isStart_of_isSignal he, Nat.add_comm]
  | keep he hphase =>
    simp [credit, he, ScheduleEvent.isStart_of_isSignal he, ← Nat.add_assoc]
  | startRoused hphase => simp [credit, run, hphase, ScheduleEvent.isStart, Nat.add_comm]
  | startKept hphase hpermit => simp [credit, run, hphase, hpermit, ScheduleEvent.isStart]
  | park hphase hpermit => simp [credit, hphase, hpermit, ScheduleEvent.isStart]
  | finish outcome hphase => simp [credit, ended, hphase, ScheduleEvent.isStart]

theorem starts_le_of_replay? (h : s.replay? events = some s') :
    events.countP (·.isStart) + s'.credit ≤ events.countP (·.isSignal) + s.credit := by
  induction events generalizing s with
  | nil =>
    obtain rfl := Option.some.inj h
    simp
  | cons e rest ih =>
    obtain ⟨next, hnext, hrest⟩ := Option.bind_eq_some_iff.1 h
    have hstep := (step?_eq_some_iff.1 hnext).credit_le
    have hrun := ih hrest
    rw [List.countP_cons, List.countP_cons]
    omega

/-! ## The run after a run -/

/-- Signals that find the worker awake leave one permit behind. -/
theorem replay?_signals (hphase : s.phase ≠ .parked) (hevents : ∀ e ∈ events, e.isSignal) :
    s.replay? events = some { s with permit := s.permit || !events.isEmpty } := by
  induction events generalizing s with
  | nil => simp [replay?]
  | cons e rest ih =>
    have hsignal : s.signal = { s with permit := true } := by
      unfold signal
      split
      · exact absurd ‹_› hphase
      · rfl
    obtain ⟨he, hrest⟩ := List.forall_mem_cons.1 hevents
    -- The first signal leaves the permit, and the others find it there.
    have hmore := ih (s := { s with permit := true }) hphase hrest
    rw [replay?_cons, step?_of_isSignal he, hsignal, Option.bind_some, hmore]
    simp

section Quiet

/-! What the worker can do as long as no signal arrives. -/

theorem not_step_of_parked (hphase : s.phase = .parked) (he : e.isSignal = false) :
    ¬Step s e s' := by
  intro h
  cases h <;> simp_all

theorem step_iff_of_idle (hphase : s.phase = .ready) (hpermit : s.permit = false)
    (he : e.isSignal = false) : Step s e s' ↔ e = .park ∧ s' = { s with phase := .parked } := by
  constructor
  · intro h
    cases h <;> simp_all
  · rintro ⟨rfl, rfl⟩
    exact .park hphase hpermit

theorem step_iff_of_permit (hphase : s.phase = .ready) (hpermit : s.permit = true)
    (he : e.isSignal = false) : Step s e s' ↔ e = .start ∧ s' = s.run false := by
  constructor
  · intro h
    cases h <;> simp_all
  · rintro ⟨rfl, rfl⟩
    exact .startKept hphase hpermit

theorem step_iff_of_running (hphase : s.phase = .running) (he : e.isSignal = false) :
    Step s e s' ↔ ∃ outcome, e = .finish outcome ∧ s' = s.ended outcome := by
  constructor
  · intro h
    cases h <;> simp_all
  · rintro ⟨outcome, rfl, rfl⟩
    exact .finish outcome hphase

variable (hquiet : ∀ e ∈ events, e.isSignal = false)
include hquiet

theorem isSome_replay?_of_parked (hphase : s.phase = .parked) :
    (s.replay? events).isSome ↔ events = [] := by
  cases events with
  | nil => exact iff_of_true rfl rfl
  | cons e rest =>
    rw [isSome_replay?_cons_iff]
    refine iff_of_false ?_ nofun
    rintro ⟨next, hstep, -⟩
    exact not_step_of_parked hphase (hquiet e List.mem_cons_self) hstep

/-- A worker without a permit goes to wait. -/
theorem isSome_replay?_of_idle (hphase : s.phase = .ready) (hpermit : s.permit = false) :
    (s.replay? events).isSome ↔ events <+: [.park] := by
  cases events with
  | nil => exact iff_of_true rfl List.nil_prefix
  | cons e rest =>
    obtain ⟨he, hrest⟩ := List.forall_mem_cons.1 hquiet
    rw [isSome_replay?_cons_iff, List.cons_prefix_cons, List.prefix_nil]
    simp only [step_iff_of_idle hphase hpermit he]
    constructor
    · rintro ⟨next, ⟨rfl, rfl⟩, hmore⟩
      exact ⟨rfl, (isSome_replay?_of_parked hrest rfl).1 hmore⟩
    · rintro ⟨rfl, rfl⟩
      exact ⟨_, ⟨rfl, rfl⟩, rfl⟩

/-- A run without a permit ends, and then the worker goes to wait. -/
theorem isSome_replay?_of_running [Nonempty ω] (hphase : s.phase = .running)
    (hpermit : s.permit = false) :
    (s.replay? events).isSome ↔ ∃ outcome, events <+: [.finish outcome, .park] := by
  cases events with
  | nil => exact iff_of_true rfl ⟨Classical.ofNonempty, List.nil_prefix⟩
  | cons e rest =>
    obtain ⟨he, hrest⟩ := List.forall_mem_cons.1 hquiet
    simp only [isSome_replay?_cons_iff, List.cons_prefix_cons, step_iff_of_running hphase he]
    constructor
    · rintro ⟨next, ⟨outcome, rfl, rfl⟩, hmore⟩
      have hidle := isSome_replay?_of_idle (s := s.ended outcome) hrest rfl hpermit
      exact ⟨outcome, rfl, hidle.1 hmore⟩
    · rintro ⟨outcome, rfl, hmore⟩
      have hidle := isSome_replay?_of_idle (s := s.ended outcome) hrest rfl hpermit
      exact ⟨_, ⟨outcome, rfl, rfl⟩, hidle.2 hmore⟩

/-- A permit is used up by one run, after which the worker goes to wait. -/
theorem isSome_replay?_of_permit [Nonempty ω] (hphase : s.phase = .ready)
    (hpermit : s.permit = true) :
    (s.replay? events).isSome ↔ ∃ outcome, events <+: [.start, .finish outcome, .park] := by
  cases events with
  | nil => exact iff_of_true rfl ⟨Classical.ofNonempty, List.nil_prefix⟩
  | cons e rest =>
    obtain ⟨he, hrest⟩ := List.forall_mem_cons.1 hquiet
    simp only [isSome_replay?_cons_iff, List.cons_prefix_cons, step_iff_of_permit hphase hpermit he]
    constructor
    · rintro ⟨next, ⟨rfl, rfl⟩, hmore⟩
      obtain ⟨outcome, hprefix⟩ := (isSome_replay?_of_running hrest rfl rfl).1 hmore
      exact ⟨outcome, rfl, hprefix⟩
    · rintro ⟨outcome, rfl, hprefix⟩
      exact ⟨_, ⟨rfl, rfl⟩, (isSome_replay?_of_running hrest rfl rfl).2 ⟨outcome, hprefix⟩⟩

end Quiet

/-- What follows a run of which some signals arrived before its end and none afterwards: one run, if
there was a signal or a permit at its start, and then nothing; else nothing. -/
theorem isSome_replay?_after_run {during after : List (ScheduleEvent ω)}
    (hphase : s.phase = .running) (hduring : ∀ e ∈ during, e.isSignal)
    (hafter : ∀ e ∈ after, e.isSignal = false) (outcome : ω) :
    (during ≠ [] ∨ s.permit = true → ((s.replay? (during ++ .finish outcome :: after)).isSome ↔
        ∃ next, after <+: [.start, .finish next, .park])) ∧
      (during = [] ∧ s.permit = false →
        ((s.replay? (during ++ .finish outcome :: after)).isSome ↔ after <+: [.park])) := by
  have : Nonempty ω := ⟨outcome⟩
  -- All signals of the run have become one permit by its end, and nothing adds to it afterwards.
  let run : Schedule ω := { s with permit := s.permit || !during.isEmpty }
  have hend : s.replay? (during ++ .finish outcome :: after) =
      (run.ended outcome).replay? after := by
    have hstep : run.step? (.finish outcome) = some (run.ended outcome) :=
      step?_eq_some_iff.2 (.finish outcome hphase)
    rw [replay?_append, replay?_signals (by simp [hphase]) hduring, Option.bind_some, replay?_cons,
      hstep, Option.bind_some]
  rw [hend]
  constructor
  · intro hsome
    apply isSome_replay?_of_permit hafter rfl
    rcases hsome with hne | hpermit
    · simp [run, ended, hne]
    · simp [run, ended, hpermit]
  · rintro ⟨rfl, hpermit⟩
    apply isSome_replay?_of_idle hafter rfl
    simp [run, ended, hpermit]

/-! ## Main statement -/

/-- Signals are neither lost nor multiplied. If some arrive during a run and none after it, exactly
one run follows; if none arrive, none follows, unless a permit was there when the run started. Once
a signal arrived after the last start, a permit is kept as long as the run goes on, and when none is
in progress the next one can start, and the worker can do nothing else. No more runs start than
signals arrive. -/
theorem signals_kept_and_coalesced :
    (∀ (before s : Schedule ω) (during after : List (ScheduleEvent ω)) (outcome : ω),
      before.step? .start = some s → (∀ e ∈ during, e.isSignal) →
        (∀ e ∈ after, e.isSignal = false) →
          (during ≠ [] ∨ s.permit = true →
            ((s.replay? (during ++ .finish outcome :: after)).isSome ↔
              ∃ next, after <+: [.start, .finish next, .park])) ∧
          (during = [] ∧ s.permit = false →
            ((s.replay? (during ++ .finish outcome :: after)).isSome ↔ after <+: [.park]))) ∧
    (∀ (before after : List (ScheduleEvent ω)) (s : Schedule ω),
      initial.replay? (before ++ after) = some s → (∀ e ∈ after, e.isStart = false) →
        (∃ e ∈ after, e.isSignal) →
          s.phase = .running ∧ s.permit = true ∨
            s.phase ≠ .running ∧ (s.step? .start).isSome ∧ s.step? .park = none) ∧
    ∀ (events : List (ScheduleEvent ω)) (s : Schedule ω), initial.replay? events = some s →
      events.countP (·.isStart) ≤ events.countP (·.isSignal) := by
  refine ⟨?follow, ?kept, ?bound⟩
  case follow =>
    intro before s during after outcome hstart hduring hafter
    have hphase : s.phase = .running := by
      cases step?_eq_some_iff.1 hstart with
      | rouse he => cases he
      | keep he => cases he
      | startRoused => rfl
      | startKept => rfl
    exact isSome_replay?_after_run hphase hduring hafter outcome
  case kept =>
    intro before after s h hevents hsignal
    rw [replay?_append] at h
    obtain ⟨middle, -, hmiddle⟩ := Option.bind_eq_some_iff.1 h
    exact (due_of_replay? hevents hmiddle hsignal).running_or_start
  case bound =>
    intro events s h
    have hle := starts_le_of_replay? h
    have hnone : (initial : Schedule ω).credit = 0 := rfl
    omega

/-- A signal starts a run, five triggers arrive during it, and one run follows; a second one cannot
start after it. -/
theorem signals_kept_and_coalesced_of_five_triggers :
    let s : Schedule Nat := ⟨.running, false, ⟨1, true, none⟩⟩
    let during : List (ScheduleEvent Nat) := List.replicate 5 .trigger
    Schedule.initial.replay? [.park, .tick, .start] = some s ∧
      (s.replay? (during ++ [.finish 10, .start, .finish 20, .park])).isSome ∧
        ¬(s.replay? (during ++ [.finish 10, .start, .finish 20, .start])).isSome ∧
          ¬(s.replay? [.finish 10, .start]).isSome := by
  intro s during
  obtain ⟨hfollow, -, -⟩ := signals_kept_and_coalesced (ω := Nat)
  have hstart : (⟨.roused, false, ⟨0, false, none⟩⟩ : Schedule Nat).step? .start = some s := rfl
  have hone := fun after hafter => (hfollow _ s during after 10 hstart (by decide) hafter).1
    (.inl (by decide))
  have hnone := (hfollow _ s [] [.start] 10 hstart (by decide) (by decide)).2 ⟨rfl, rfl⟩
  refine ⟨rfl, (hone _ (by decide)).2 ⟨20, by decide⟩, ?_, ?_⟩
  · intro h
    obtain ⟨next, hprefix⟩ := (hone _ (by decide)).1 h
    simp at hprefix
  · intro h
    exact absurd (hnone.1 h) (by decide)

end Schedule

end ClusterFirewall
