import ClusterFirewall.Cluster
import ClusterFirewall.Controller.Audit
import ClusterFirewall.Controller.Loader
import ClusterFirewall.Drift
import ClusterFirewall.Ruleset.Build
import ClusterFirewall.Snapshot

/-!
# Reconciliation

A reconciliation compares the cluster with the snapshots. If nothing drifted it ends there; else it
builds a ruleset, has it loaded and, only if that succeeded, records every policy that the ruleset
was built from, those left out among them, and saves the snapshots.

The work before the ruleset is handed over (`plan`, `Controller.begin`) is kept apart from the work
after the answer (`Controller.conclude`), since time passes in between. `Controller.reconcile` is
the whole.
-/

namespace ClusterFirewall

/-! ## Outcomes -/

/-- How a reconciliation ended. -/
inductive Outcome where
  /-- Nothing drifted. -/
  | upToDate
  /-- A ruleset was loaded. -/
  | applied (reason checksum : String)
  /-- The ruleset was the loaded one. -/
  | unchanged (reason checksum : String)
  /-- The snapshots are as they were. -/
  | failed (error : Error)
  deriving DecidableEq, Repr

/-- A ruleset to load, and why. -/
structure Pending where
  /-- The drift that made the ruleset stale. -/
  reason : String
  /-- The ruleset and its policies. -/
  build : Build

namespace Pending

/-- The text to load. -/
def text (p : Pending) : String := p.build.ruleset.text

/-- The events of the policies that were left out. -/
def rejections (now : Instant) (p : Pending) : List AuditEvent :=
  p.build.skipped.map fun q => .rejected now q.key.text

/-- The event of the answer to a ruleset. -/
def event (now : Instant) (p : Pending) : Except Error ApplyOutcome → AuditEvent
  | .error e =>
    .apply now p.reason p.build.ruleset.ruleCount (ClusterFirewall.checksum p.text) (some e.message)
  | .ok (.applied checksum) => .apply now p.reason p.build.ruleset.ruleCount checksum none
  | .ok (.unchanged checksum) => .unchanged now checksum

/-- The outcome of the answer to a ruleset. -/
def outcome (p : Pending) : Except Error ApplyOutcome → Outcome
  | .error e => .failed e
  | .ok (.applied checksum) => .applied p.reason checksum
  | .ok (.unchanged checksum) => .unchanged p.reason checksum

/-- A store with the policies of a ruleset recorded, first those in force and then those left
out. -/
def recordIn (p : Pending) (store : SnapshotStore) : SnapshotStore :=
  (store.recordAll p.build.applied).recordAll p.build.skipped

end Pending

/-! ## Before the ruleset is handed over -/

/-- How far a reconciliation gets without loading anything. -/
inductive Preparation where
  /-- It is over. -/
  | settled (outcome : Outcome)
  /-- There is a ruleset to load. -/
  | pending (p : Pending)

/-- Decides what a state of the cluster calls for. -/
def plan {σ : Type} (r : Resolver σ) (store : SnapshotStore) (cluster : ClusterState) (st : σ) :
    Preparation × σ :=
  match detect r cluster.policies store st with
  | (none, st) => (.settled .upToDate, st)
  | (some drift, st) =>
    match build r cluster.policies cluster.services cluster.firewall st with
    | (.error violation, st) => (.settled (.failed (.validation violation)), st)
    | (.ok b, st) => (.pending ⟨drift.text, b⟩, st)

/-! ## The controller -/

/-- Something that loads rulesets. It has a state of its own and may change the disk. No answer
means that it was still at work when its time was up. -/
abbrev Applier (α : Type) := String → Disk × α → Option (Except Error ApplyOutcome) × (Disk × α)

/-- The loader as an applier whose state is the list of launches so far. -/
def Loader.applier (l : Loader) (launcher : Launcher) : Applier (List Launch) :=
  fun text (d, launches) =>
    let r := l.apply launcher d text
    (some r.result, (r.disk, launches ++ r.launches))

/-- What stays the same from one reconciliation to the next. -/
structure Controller (σ α : Type) where
  /-- Who resolves DNS names. -/
  resolver : Resolver σ
  /-- Who loads rulesets. -/
  applier : Applier α
  /-- How long loading may take. -/
  deadline : Span
  /-- The file of the snapshots, if they are saved. -/
  snapshotPath : Option String
  /-- The file of the audit log, if there is one. -/
  auditPath : Option String

/-- What a reconciliation may change. -/
structure ControllerState (σ α : Type) where
  /-- The snapshots. -/
  store : SnapshotStore
  /-- The disk. -/
  disk : Disk
  /-- The state of the resolver. -/
  resolver : σ
  /-- The state of the applier. -/
  applier : α

namespace Controller

variable {σ α : Type}

/-- The time that loading may take where nothing else is said. -/
def standardDeadline : Span := .seconds 20

/-- Adds events to the audit log. -/
def log (c : Controller σ α) (events : List AuditEvent) (s : ControllerState σ α) :
    ControllerState σ α :=
  { s with disk := events.foldl (fun d e => AuditLog.record c.auditPath e d) s.disk }

/-- Prepares a reconciliation from the state of the cluster, or from the error of fetching it. -/
def begin (c : Controller σ α) (now : Instant) (fetched : Except Error ClusterState)
    (s : ControllerState σ α) : Preparation × ControllerState σ α :=
  match fetched with
  | .error e => (.settled (.failed e), s)
  | .ok cluster =>
    match plan c.resolver s.store cluster s.resolver with
    | (.settled outcome, st) => (.settled outcome, { s with resolver := st })
    | (.pending p, st) => (.pending p, c.log (p.rejections now) { s with resolver := st })

/-- Saves the snapshots, if they are saved at all. -/
def persist (c : Controller σ α) (now : Instant) (s : ControllerState σ α) : ControllerState σ α :=
  match c.snapshotPath with
  | none => s
  | some path =>
    match s.store.save s.disk path with
    | .ok d => c.log [.persist now s.store.size none] { s with disk := d }
    | .error e => c.log [.persist now s.store.size (some e.message)] s

/-- Ends a reconciliation by the answer to its ruleset. -/
def conclude (c : Controller σ α) (now : Instant) (p : Pending) (answer : Except Error ApplyOutcome)
    (s : ControllerState σ α) : Outcome × ControllerState σ α :=
  let s := c.log [p.event now answer] s
  match answer with
  -- The store stays as it was, so that the next run finds the same drift.
  | .error _ => (p.outcome answer, s)
  | .ok _ => (p.outcome answer, c.persist now { s with store := p.recordIn s.store })

/-- Runs a reconciliation. -/
def reconcile (c : Controller σ α) (now : Instant) (fetched : Except Error ClusterState)
    (s : ControllerState σ α) : Outcome × ControllerState σ α :=
  match c.begin now fetched s with
  | (.settled outcome, s) => (outcome, s)
  | (.pending p, s) =>
    let (answer, disk, st) := c.applier p.text (s.disk, s.applier)
    c.conclude now p (answer.getD (.error (.applyTimeout c.deadline)))
      { s with disk := disk, applier := st }

end Controller

end ClusterFirewall
