import ClusterFirewall.Controller.Reconciliation
import ClusterFirewall.Controller.Timeline
import ClusterFirewall.Resolution.Cache

/-!
# Rehearsals

An applier without a firewall: it keeps the text that it accepted last, and can be told to refuse
texts or to stay silent. With it the reconciliations of a schedule can be followed in time, where
loading takes a while and is given up at the deadline.
-/

namespace ClusterFirewall

/-! ## The applier -/

/-- How the applier answers. -/
inductive RehearsalMode where
  /-- It accepts every text. -/
  | accepting
  /-- It refuses every text with a message. -/
  | refusing (message : String)
  /-- It does not answer. -/
  | silent
  deriving DecidableEq, Repr

/-- The state of the applier. -/
structure Rehearsal where
  /-- How it answers. -/
  mode : RehearsalMode
  /-- The text that it accepted last. -/
  accepted : Option String
  /-- The number of texts that it was given. -/
  calls : Nat
  /-- The number of texts that it is at work on. -/
  atWork : Nat
  /-- The greatest number of texts that it was at work on. -/
  mostAtWork : Nat
  deriving DecidableEq, Repr

namespace Rehearsal

/-- The applier before its first text. -/
def initial : Rehearsal := ⟨.accepting, none, 0, 0, 0⟩

instance : Inhabited Rehearsal := ⟨initial⟩

/-- The applier takes a text. -/
def take (r : Rehearsal) : Rehearsal :=
  { r with
    calls := r.calls + 1
    atWork := r.atWork + 1
    mostAtWork := max r.mostAtWork (r.atWork + 1) }

/-- The applier is done with a text, or was told to leave it. -/
def leave (r : Rehearsal) : Rehearsal := { r with atWork := r.atWork - 1 }

/-- The answer to a text. -/
def answer (r : Rehearsal) (text : String) : Option (Except Error ApplyOutcome) × Rehearsal :=
  match r.mode with
  | .silent => (none, r)
  | .refusing message => (some (.error (.nftables message none (some 1))), r)
  | .accepting =>
    if r.accepted = some text then (some (.ok (.unchanged (checksum text))), r)
    else (some (.ok (.applied (checksum text))), { r with accepted := some text })

/-- The applier that takes a text, answers and is done with it. -/
def applier : Applier Rehearsal := fun text (d, r) =>
  let (answer, r) := r.take.answer text
  (answer, (d, r.leave))

end Rehearsal

/-! ## Reconciliations in time -/

/-- Where a run stands. -/
inductive RunStage where
  /-- No ruleset is being loaded. -/
  | idle
  /-- The applier works on a ruleset. -/
  | loading (p : Pending)
  /-- The applier was asked for its answer and is silent. -/
  | silent (p : Pending)

/-- What the runs of a rehearsed schedule work on. -/
structure RehearsedController where
  /-- The controller. -/
  controller : Controller ResolutionCache Rehearsal
  /-- What the reconciliations change. -/
  state : ControllerState ResolutionCache Rehearsal
  /-- The cluster. -/
  cluster : ClusterState
  /-- How many milliseconds the applier takes for its answer. -/
  delay : Nat
  /-- Where the present run stands. -/
  stage : RunStage

namespace RehearsedController

/-- How many milliseconds the controller waits for the answer. -/
def deadline (c : RehearsedController) : Nat := c.controller.deadline.toMillis

/-- Ends a run by the answer to its ruleset. -/
def conclude (c : RehearsedController) (p : Pending) (answer : Except Error ApplyOutcome) :
    Progress Outcome × RehearsedController :=
  let s := { c.state with applier := c.state.applier.leave }
  let (outcome, s) := c.controller.conclude .epoch p answer s
  (.over outcome, { c with state := s, stage := .idle })

/-- Gives the applier up. -/
def giveUp (c : RehearsedController) (p : Pending) : Progress Outcome × RehearsedController :=
  c.conclude p (.error (.applyTimeout c.controller.deadline))

/-- Asks the applier for its answer, this long after the start of the run. If there is none the run
waits, with timers for these times. -/
def ask (c : RehearsedController) (p : Pending) (elapsed : Nat) (times : List Nat) :
    Progress Outcome × RehearsedController :=
  let (answer, applier) := c.state.applier.answer p.text
  let c := { c with state := { c.state with applier := applier } }
  match answer with
  | some answer => c.conclude p answer
  | none =>
    if c.deadline ≤ elapsed then c.giveUp p
    else (.waits times, { c with stage := .silent p })

/-- Goes on with a run while the applier works on its ruleset. If the run has to wait it does so
with timers for these times. -/
def load (c : RehearsedController) (p : Pending) (elapsed : Nat) (times : List Nat) :
    Progress Outcome × RehearsedController :=
  -- An answer that is there at the deadline still counts.
  if c.delay ≤ elapsed then c.ask p elapsed times
  else if c.deadline ≤ elapsed then c.giveUp p
  else (.waits times, { c with stage := .loading p })

/-- The times of a run that loads: when the applier has worked long enough and when it is given
up. Both timers are set as soon as the applier has the ruleset. -/
def loadTimes (c : RehearsedController) : List Nat :=
  if c.delay = 0 then [c.deadline] else [c.delay, c.deadline]

/-- The steps of a run. -/
def work : Work RehearsedController Outcome := fun elapsed c =>
  match c.stage with
  | .loading p => c.load p elapsed []
  | .silent p => if c.deadline ≤ elapsed then c.giveUp p else (.waits [], c)
  | .idle =>
    match c.controller.begin .epoch (.ok c.cluster) c.state with
    | (.settled outcome, s) => (.over outcome, { c with state := s })
    | (.pending p, s) =>
      let c := { c with state := { s with applier := s.applier.take } }
      c.load p elapsed c.loadTimes

end RehearsedController

end ClusterFirewall
