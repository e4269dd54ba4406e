import ClusterFirewall.Proofs.Controller.History
import ClusterFirewall.Proofs.Controller.Signalling
import Mathlib.Data.List.Induction

/-!
# What a schedule publishes

While signals come and go, the worker publishes the number of the run that it started last, whether
it goes on, and the outcome of the last run that ended. At any time this is a function of what
happened so far (`Schedule.tells_of_replay?`): so many runs started, these outcomes, and no more
than one run in progress.

The runs are the reconciliations of a controller, one after the other, each with the snapshots that
the one before it left (`Controller.reported`). Main statements: `status_consistent`, and
`Timeline.Reaches.tells` for schedules in time.
-/

namespace ClusterFirewall

/-- What a run ended with, if one did. -/
def ScheduleEvent.result? {ω : Type} : ScheduleEvent ω → Option ω
  | .finish outcome => some outcome
  | .tick => none
  | .trigger => none
  | .start => none
  | .park => none

/-- What the runs that ended did so with, in their order. -/
def ScheduleEvent.results {ω : Type} (events : List (ScheduleEvent ω)) : List ω :=
  events.filterMap result?

/-- The runs that started. -/
def ScheduleEvent.starts {ω : Type} (events : List (ScheduleEvent ω)) : Nat :=
  events.countP isStart

theorem ScheduleEvent.result?_of_isSignal {ω : Type} {e : ScheduleEvent ω} (he : e.isSignal) :
    e.result? = none := by
  cases e with
  | finish => cases he
  | tick => rfl
  | trigger => rfl
  | start => rfl
  | park => rfl

theorem ScheduleEvent.result?_eq_some_iff {ω : Type} {e : ScheduleEvent ω} {outcome : ω} :
    e.result? = some outcome ↔ e = .finish outcome := by
  cases e <;> simp [result?]

namespace Schedule

open ScheduleEvent

variable {ω : Type}

/-- The published status fits what happened: it counts the runs that started, at most one of which
is in progress, and tells the outcome of the last one that ended. -/
structure Tells (events : List (ScheduleEvent ω)) (s : Schedule ω) : Prop where
  started : starts events = (results events).length + if s.phase = .running then 1 else 0
  iteration : s.status.iteration = starts events
  running : s.status.running = true ↔ s.phase = .running
  last : s.status.last = (results events).getLast?.map fun outcome =>
    ((results events).length, outcome)

theorem tells_initial : Tells [] (initial : Schedule ω) where
  started := rfl
  iteration := rfl
  running := by simp [initial]
  last := rfl

/-- Nothing is published when a signal arrives or the worker goes to wait. -/
theorem Tells.of_silent {events : List (ScheduleEvent ω)} {s s' : Schedule ω}
    {e : ScheduleEvent ω} (hs : s.Tells events) (hstart : e.isStart = false)
    (hresult : e.result? = none) (hphase : s'.phase = .running ↔ s.phase = .running)
    (hstatus : s'.status = s.status) : s'.Tells (events ++ [e]) := by
  have hstarts : starts (events ++ [e]) = starts events := by simp [starts, hstart]
  have hresults : results (events ++ [e]) = results events := by simp [results, hresult]
  constructor
  case started => simpa only [hstarts, hresults, hphase] using hs.started
  case iteration => simpa only [hstarts, hstatus] using hs.iteration
  case running => simpa only [hstatus, hphase] using hs.running
  case last => simpa only [hresults, hstatus] using hs.last

theorem Tells.run {events : List (ScheduleEvent ω)} {s : Schedule ω} (hs : s.Tells events)
    (hphase : s.phase ≠ .running) (permit : Bool) : (s.run permit).Tells (events ++ [.start]) := by
  have hstarts : starts (events ++ [.start]) = starts events + 1 := by
    simp [starts, isStart]
  have hresults : results (events ++ [.start]) = results events := by
    simp [results, result?]
  have hidle : starts events = (results events).length := by
    rw [hs.started, if_neg hphase, Nat.add_zero]
  constructor
  case started =>
    rw [hstarts, hresults, hidle]
    rfl
  case iteration =>
    rw [hstarts, ← hs.iteration]
    rfl
  case running => exact iff_of_true rfl rfl
  case last =>
    rw [hresults, ← hs.last]
    rfl

theorem Tells.ended {events : List (ScheduleEvent ω)} {s : Schedule ω} (hs : s.Tells events)
    (hphase : s.phase = .running) (outcome : ω) :
    (s.ended outcome).Tells (events ++ [.finish outcome]) := by
  have hstarts : starts (events ++ [.finish outcome]) = starts events := by
    simp [starts, isStart]
  have hresults : results (events ++ [.finish outcome]) = results events ++ [outcome] := by
    simp [results, result?]
  -- The run that ends is the last one that started.
  have hcount : starts events = (results events).length + 1 := by
    rw [hs.started, if_pos hphase]
  constructor
  case started =>
    rw [hstarts, hresults, hcount, List.length_append]
    rfl
  case iteration =>
    rw [hstarts, ← hs.iteration]
    rfl
  case running => simp [Schedule.ended]
  case last =>
    rw [hresults, List.getLast?_concat, List.length_append]
    exact congrArg (fun n => some (n, outcome)) (hs.iteration.trans hcount)

theorem Step.tells {events : List (ScheduleEvent ω)} {s s' : Schedule ω} {e : ScheduleEvent ω}
    (h : Step s e s') (hs : s.Tells events) : s'.Tells (events ++ [e]) := by
  cases h with
  | rouse he hphase =>
    exact hs.of_silent (isStart_of_isSignal he) (result?_of_isSignal he) (by simp [hphase]) rfl
  | keep he hphase =>
    exact hs.of_silent (isStart_of_isSignal he) (result?_of_isSignal he) Iff.rfl rfl
  | startRoused hphase => exact hs.run (by simp [hphase]) s.permit
  | startKept hphase hpermit => exact hs.run (by simp [hphase]) false
  | park hphase hpermit => exact hs.of_silent rfl rfl (by simp [hphase]) rfl
  | finish outcome hphase => exact hs.ended hphase outcome

/-- At any time the published status fits what happened. -/
theorem tells_of_replay? {events : List (ScheduleEvent ω)} {s : Schedule ω}
    (h : initial.replay? events = some s) : s.Tells events := by
  -- The induction is on the last event, whose step finds what the events before it left.
  induction events using List.reverseRecOn generalizing s with
  | nil =>
    obtain rfl := Option.some.inj h
    exact tells_initial
  | append_singleton events last ih =>
    obtain ⟨before, hbefore, hstep⟩ := replay?_concat_eq_some_iff.1 h
    exact hstep.tells (ih hbefore)

/-- While no run goes on, the last outcome is that of the last run that started, if any did. -/
theorem Tells.idle {events : List (ScheduleEvent ω)} {s : Schedule ω} (hs : s.Tells events)
    (hrunning : s.status.running = false) :
    (s.status.last = none ↔ starts events = 0) ∧
      ∀ n outcome, s.status.last = some (n, outcome) → n = s.status.iteration := by
  have hphase : s.phase ≠ .running := by simp [← hs.running, hrunning]
  have hstarted : starts events = (results events).length := by
    rw [hs.started, if_neg hphase, Nat.add_zero]
  refine ⟨?_, ?_⟩
  · rw [hs.last, hstarted, Option.map_eq_none_iff, List.getLast?_eq_none_iff,
      List.length_eq_zero_iff]
  · intro n outcome hpublished
    rw [hs.last] at hpublished
    obtain ⟨last, -, hpair⟩ := Option.map_eq_some_iff.1 hpublished
    rw [hs.iteration, hstarted]
    exact (congrArg Prod.fst hpair).symm

/-- While a run goes on, the last outcome is that of the run before it, if there was one. -/
theorem Tells.busy {events : List (ScheduleEvent ω)} {s : Schedule ω} (hs : s.Tells events)
    (hrunning : s.status.running = true) :
    s.status.last.elim 0 Prod.fst + 1 = s.status.iteration := by
  have hstarted : starts events = (results events).length + 1 := by
    rw [hs.started, if_pos (hs.running.1 hrunning)]
  rw [hs.iteration, hstarted, hs.last]
  cases hend : (results events).getLast? with
  | none => simp [List.getLast?_eq_none_iff.1 hend]
  | some outcome => rfl

/-- The last outcome is the one that the run of its number ended with. -/
theorem Tells.outcome {events : List (ScheduleEvent ω)} {s : Schedule ω} (hs : s.Tells events)
    {n : Nat} {outcome : ω} (hpublished : s.status.last = some (n, outcome)) :
    0 < n ∧ (results events)[n - 1]? = some outcome := by
  rw [hs.last] at hpublished
  obtain ⟨last, hend, hpair⟩ := Option.map_eq_some_iff.1 hpublished
  obtain ⟨rfl, rfl⟩ := Prod.mk.inj hpair
  have hne : results events ≠ [] := List.ne_nil_of_mem (List.mem_of_getLast? hend)
  rw [List.getLast?_eq_getElem?] at hend
  exact ⟨List.length_pos_iff.2 hne, hend⟩

/-- Every result stands in the list of events, after those of the runs before it. -/
theorem exists_finish_of_results {events : List (ScheduleEvent ω)} {n : Nat} {outcome : ω}
    (h : (results events)[n]? = some outcome) :
    ∃ before after, events = before ++ .finish outcome :: after ∧ (results before).length = n := by
  induction events generalizing n with
  | nil => simp [results] at h
  | cons e rest ih =>
    cases hresult : e.result? with
    | none =>
      have hcons : ∀ rest, results (e :: rest) = results rest := by simp [results, hresult]
      rw [hcons] at h
      obtain ⟨before, after, rfl, hn⟩ := ih h
      exact ⟨e :: before, after, rfl, (congrArg List.length (hcons before)).trans hn⟩
    | some first =>
      obtain rfl := result?_eq_some_iff.1 hresult
      cases n with
      | zero =>
        obtain rfl := Option.some.inj h
        exact ⟨[], rest, rfl, rfl⟩
      | succ n =>
        obtain ⟨before, after, rfl, hn⟩ := ih h
        exact ⟨.finish first :: before, after, rfl, congrArg (· + 1) hn⟩

/-- Every result was published when its run ended. -/
theorem exists_published {events : List (ScheduleEvent ω)} {s : Schedule ω}
    (h : initial.replay? events = some s) {n : Nat} {outcome : ω}
    (hn : (results events)[n]? = some outcome) :
    ∃ before, before <+: events ∧ ∃ s', initial.replay? before = some s' ∧
      s'.status.last = some (n + 1, outcome) := by
  obtain ⟨before, after, rfl, hlength⟩ := exists_finish_of_results hn
  rw [List.append_cons, replay?_append] at h
  obtain ⟨s', hs', -⟩ := Option.bind_eq_some_iff.1 h
  refine ⟨before ++ [.finish outcome], ⟨after, by simp⟩, s', hs', ?_⟩
  have hresults : results (before ++ [.finish outcome]) = results before ++ [outcome] := by
    simp [results, result?]
  rw [(tells_of_replay? hs').last, hresults]
  simp [hlength]

end Schedule

namespace Controller

open ScheduleEvent

variable {σ α : Type}

/-- The events of a schedule whose runs are reconciliations: each run ends with the outcome of the
reconciliation of what it found. -/
def reported (c : Controller σ α) :
    SnapshotStore → List (ScheduleEvent (Trigger σ α)) → List (ScheduleEvent Outcome)
  | _, [] => []
  | store, .finish t :: rest =>
    .finish (c.react store t).1 :: c.reported (c.react store t).2.store rest
  | store, .tick :: rest => .tick :: c.reported store rest
  | store, .trigger :: rest => .trigger :: c.reported store rest
  | store, .start :: rest => .start :: c.reported store rest
  | store, .park :: rest => .park :: c.reported store rest

/-- The outcomes of the reconciliations of a run, in their order. -/
def outcomes (c : Controller σ α) : SnapshotStore → List (Trigger σ α) → List Outcome :=
  c.collect fun store t => [(c.react store t).1]

theorem results_reported (c : Controller σ α) (store : SnapshotStore)
    (events : List (ScheduleEvent (Trigger σ α))) :
    results (c.reported store events) = c.outcomes store (results events) := by
  induction events generalizing store with
  | nil => rfl
  | cons e rest ih =>
    cases e with
    | finish t => exact congrArg _ (ih _)
    | tick => exact ih store
    | trigger => exact ih store
    | start => exact ih store
    | park => exact ih store

theorem starts_reported (c : Controller σ α) (store : SnapshotStore)
    (events : List (ScheduleEvent (Trigger σ α))) :
    starts (c.reported store events) = starts events := by
  induction events generalizing store with
  | nil => rfl
  | cons e rest ih =>
    cases e with
    | finish t => exact ih _
    | tick => exact ih store
    | trigger => exact ih store
    | start =>
      have hrest := ih store
      simp only [starts, reported, List.countP_cons] at hrest ⊢
      rw [hrest]
      rfl
    | park => exact ih store

/-- The schedule is the same up to any of its events. -/
theorem reported_take (c : Controller σ α) (store : SnapshotStore)
    (events : List (ScheduleEvent (Trigger σ α))) (n : Nat) :
    (c.reported store events).take n = c.reported store (events.take n) := by
  induction events generalizing store n with
  | nil => simp [reported]
  | cons e rest ih =>
    cases n with
    | zero => rfl
    | succ n => cases e <;> simp only [reported, List.take_succ_cons, ih]

/-- The status is consistent at any time, whatever signals arrive in the meantime. At most one
reconciliation is in progress. The published iteration counts those that started, and `running`
tells whether one goes on. When none does, the last outcome is that of the last one that started, if
any did; while one does, it is that of the one before. The outcome is what the reconciliation of its
number returned, and the outcome of every reconciliation was published, when it ended. -/
theorem status_consistent (c : Controller σ α) (start : SnapshotStore)
    (events : List (ScheduleEvent (Trigger σ α))) (s : Schedule Outcome)
    (h : Schedule.initial.replay? (c.reported start events) = some s) :
    let outcomes := c.outcomes start (results events)
    (starts events = outcomes.length + if s.phase = .running then 1 else 0) ∧
      s.status.iteration = starts events ∧
      (s.status.running = true ↔ s.phase = .running) ∧
      (s.status.running = false → (s.status.last = none ↔ starts events = 0) ∧
        ∀ n outcome, s.status.last = some (n, outcome) → n = s.status.iteration) ∧
      (s.status.running = true → s.status.last.elim 0 Prod.fst + 1 = s.status.iteration) ∧
      (∀ n outcome, s.status.last = some (n, outcome) →
        0 < n ∧ outcomes[n - 1]? = some outcome) ∧
      ∀ n outcome, outcomes[n]? = some outcome → ∃ before, before <+: events ∧
        ∃ s', Schedule.initial.replay? (c.reported start before) = some s' ∧
          s'.status.last = some (n + 1, outcome) := by
  intro outcomes
  have htells := Schedule.tells_of_replay? h
  have hresults : results (c.reported start events) = outcomes := c.results_reported start events
  have hstarts : starts (c.reported start events) = starts events := c.starts_reported start events
  refine ⟨?started, htells.iteration.trans hstarts, htells.running, ?idle, htells.busy, ?outcome,
    ?published⟩
  case started =>
    rw [← hstarts, ← hresults]
    exact htells.started
  case idle =>
    rw [← hstarts]
    exact htells.idle
  case outcome =>
    intro n outcome hpublished
    rw [← hresults]
    exact htells.outcome hpublished
  case published =>
    intro n outcome hn
    rw [← hresults] at hn
    obtain ⟨before, hprefix, s', hs', hpublished⟩ := Schedule.exists_published h hn
    rw [List.prefix_iff_eq_take.1 hprefix, reported_take] at hs'
    exact ⟨events.take before.length, List.take_prefix _ _, s', hs', hpublished⟩

/-- A second run is in progress, for which a trigger during the first one left a permit. The outcome
of the first one is still published. -/
theorem status_consistent_during_second_run :
    let t := Trigger.finding [blockAndName "web"] [] (knowing ["a"])
    let c := rehearsed
    let events := [.park, .tick, .start, .trigger, .finish t, .start, .trigger]
    let s : Schedule Outcome :=
      ⟨.running, true, ⟨2, true, some (1, (c.react ∅ t).1)⟩⟩
    Schedule.initial.replay? (c.reported ∅ events) = some s ∧ (c.react ∅ t).1.isSuccess ∧
      starts events = (c.outcomes ∅ [t]).length + 1 ∧
        (c.outcomes ∅ [t])[0]? = some (c.react ∅ t).1 ∧
          ∃ before, before <+: events ∧ ∃ s',
            Schedule.initial.replay? (c.reported ∅ before) = some s' ∧
              s'.status.last = some (1, (c.react ∅ t).1) := by
  intro t c events s
  have h : Schedule.initial.replay? (c.reported ∅ events) = some s := rfl
  obtain ⟨hstarted, -, -, -, -, houtcome, hpublished⟩ := status_consistent c ∅ events s h
  have hfirst := (houtcome 1 (c.react ∅ t).1 rfl).2
  exact ⟨h, by decide +kernel, hstarted, hfirst, hpublished 0 _ hfirst⟩

end Controller

/-! ## Schedules in time -/

namespace Timeline

variable {κ ω : Type} {w : Work κ ω} {t : Timeline κ ω}

/-- The timelines that one comes to by triggers, by letting time pass, and by changes of what the
runs work on. -/
inductive Reaches (w : Work κ ω) (start : Timeline κ ω) : Timeline κ ω → Prop where
  | refl : Reaches w start start
  | trigger {t : Timeline κ ω} : Reaches w start t → Reaches w start t.trigger
  | wait {t : Timeline κ ω} (span : Nat) : Reaches w start t → Reaches w start (t.wait w span)
  | change {t : Timeline κ ω} (content : κ) :
      Reaches w start t → Reaches w start { t with content := content }

/-- The schedule of a timeline comes from the initial one by events. -/
def Replayed (t : Timeline κ ω) : Prop :=
  ∃ events, Schedule.initial.replay? events = some t.schedule

theorem Replayed.step (h : t.Replayed) {e : ScheduleEvent ω} {t' : Timeline κ ω}
    (hstep : t.schedule.step? e = some t'.schedule) : t'.Replayed := by
  obtain ⟨events, hevents⟩ := h
  exact ⟨events ++ [e], Schedule.replay?_concat_eq_some_iff.2
    ⟨t.schedule, hevents, Schedule.step?_eq_some_iff.1 hstep⟩⟩

theorem Replayed.happen (h : t.Replayed) (e : ScheduleEvent ω) : (t.happen e).Replayed := by
  cases hstep : t.schedule.step? e with
  | none =>
    have hsame : t.happen e = t := by simp [Timeline.happen, hstep]
    rw [hsame]
    exact h
  | some s =>
    apply h.step (e := e)
    simp [Timeline.happen, hstep]

theorem Replayed.proceed (h : t.Replayed) : (t.proceed w).Replayed := by
  unfold Timeline.proceed
  split
  · exact Replayed.happen h _
  · exact h

theorem Replayed.move (h : t.Replayed) : (t.move w).Replayed := by
  unfold Timeline.move
  split
  · rename_i s hstart
    exact Replayed.proceed (h.step (e := .start) hstart)
  · exact h.happen .park

theorem Replayed.settle (h : t.Replayed) : (t.settle w).Replayed := h.move.move.move

theorem Replayed.fire (h : t.Replayed) (timer : Timer) : (t.fire w timer).Replayed := by
  unfold Timeline.fire
  apply Replayed.settle
  split
  · exact Replayed.happen h .tick
  · exact Replayed.proceed h

theorem Replayed.advance (h : t.Replayed) (horizon n : Nat) :
    (t.advance w horizon n).Replayed := by
  induction n generalizing t with
  | zero => exact h
  | succ n ih =>
    unfold Timeline.advance
    split
    · exact h
    · split
      · exact ih (h.fire _)
      · exact h

/-- Whatever happens to a timeline, its schedule is one that events lead to, and so its status fits
what happened. -/
theorem Reaches.tells {interval : Nat} {content : κ}
    (h : Reaches w (.initial interval content) t) :
    ∃ events, Schedule.initial.replay? events = some t.schedule ∧ t.schedule.Tells events := by
  have hreplayed : t.Replayed := by
    induction h with
    | refl => exact ⟨[], rfl⟩
    | trigger _ ih => exact ih.happen .trigger
    | wait span _ ih => exact Replayed.advance ih.settle _ _
    | change content _ ih => exact ih
  obtain ⟨events, hevents⟩ := hreplayed
  exact ⟨events, hevents, Schedule.tells_of_replay? hevents⟩

end Timeline

end ClusterFirewall
