import ClusterFirewall.CommandLine.Arguments
import ClusterFirewall.Controller.Reconciliation
import ClusterFirewall.Controller.Settings
import ClusterFirewall.Controller.Sources

/-!
# Answering requests

A request is answered from the files on the disk: by text and an exit code, or by an error. A
request to reconcile is prepared here; the first reconciliation follows at once, and more follow as
long as the program runs.
-/

namespace ClusterFirewall.CommandLine

/-! ## Answers -/

/-- Why a request fails. -/
inductive Failure where
  /-- A step of the controller failed. -/
  | error (e : Error)
  /-- A folder could not be made. -/
  | fault (f : Fault)
  deriving DecidableEq, Repr

/-- The wording of a failure. -/
def Failure.message : Failure → String
  | .error e => e.message
  | .fault f => f.message

/-- A result with its error as a failure. -/
def orError {α : Type} : Except Error α → Except Failure α
  | .ok a => .ok a
  | .error e => .error (.error e)

/-- A result with its fault as a failure. -/
def orStop {α : Type} : Except Fault α → Except Failure α
  | .ok a => .ok a
  | .error f => .error (.fault f)

/-- What a request prints and exits with. -/
structure Answer where
  /-- The exit code. -/
  code : UInt32
  /-- The text on the standard output. -/
  output : String
  deriving DecidableEq, Repr

/-- The exit code of arguments that make no request. -/
def usageCode : UInt32 := 2

/-- The exit code of a failure. -/
def failureCode : UInt32 := 1

/-! ## Compiling and checking -/

/-- Prints the ruleset of a cluster, or the policies in force. -/
def compile (d : Disk) (state : String) (sets : Option String) (format : Format) :
    Except Failure Answer := do
  let cluster ← orError (ClusterState.load d state)
  let cache ← orError (ResolutionCache.load d sets)
  match (build ResolutionCache.resolver cluster.policies cluster.services cluster.firewall cache).1 with
  | .error violation => throw (.error (.validation violation))
  | .ok b =>
    match format with
    | .ruleset => pure ⟨0, b.ruleset.text⟩
    | .json => pure ⟨0, (toJson b.applied).wide ++ "\n"⟩

/-- Says whether the applied ruleset is stale. -/
def check (d : Disk) (state snapshots : String) (sets : Option String) : Except Failure Answer := do
  let cluster ← orError (ClusterState.load d state)
  let cache ← orError (ResolutionCache.load d sets)
  let store ← orError (SnapshotStore.load d snapshots)
  match (detect ResolutionCache.resolver cluster.policies store cache).1 with
  | some drift => pure ⟨1, "Stale: " ++ drift.text ++ "\n"⟩
  | none =>
    pure
      ⟨0, s!"Up to date ({cluster.policies.length} policies, {store.size} snapshots)\n"⟩

/-! ## Reconciling -/

/-- A controller that is ready to reconcile. -/
structure Daemon where
  /-- The controller. -/
  controller : Controller ResolutionCache (List Launch)
  /-- What its reconciliations change. -/
  state : ControllerState ResolutionCache (List Launch)
  /-- The time between reconciliations. -/
  interval : Span
  /-- The file of the cluster's state. -/
  statePath : String
  /-- The file of the resolutions. -/
  setsPath : Option String

namespace Daemon

/-- The files and folders that the settings may be read from. -/
def settingsPaths (e : Environment) (config : Option String) : List String :=
  [e.configFolder, e.stateFolder, config.getD e.configPath]

/-- The files and folders that a controller with these settings works on. -/
def workingPaths (e : Environment) (settings : Settings) (state : String) (sets : Option String) :
    List String :=
  [state, settings.rulesetPath, Loader.stagingOf settings.rulesetPath, settings.stateFolder e,
    settings.snapshotPath e, settings.auditPath e, settings.logPath e] ++ sets.toList

/-- Starts an empty log of messages; where none can be made the messages go elsewhere. -/
def startLog (d : Disk) (path : String) : Disk :=
  match d.write path .empty with
  | .ok d => d
  | .error _ => d

/-- Makes the folders, reads the settings, starts the log, reads the resolutions and the snapshots,
and sets up the controller. -/
def prepare (e : Environment) (launcher : Launcher) (d : Disk) (state : String)
    (sets config : Option String) : Except Failure Daemon := do
  let d ← orStop (e.ensureFolders d)
  let settings ← orError (Settings.load e d (config.getD e.configPath))
  let d ← orStop (d.createFolder (settings.stateFolder e) 0o755)
  let d := startLog d (settings.logPath e)
  let cache ← orError (ResolutionCache.load d sets)
  let loader ←
    orError (Loader.ofCommandLine settings.nftCommand settings.rulesetPath settings.dryRun)
  pure
    { controller :=
        { resolver := ResolutionCache.resolver
          applier := loader.applier launcher
          deadline := settings.applyTimeout
          snapshotPath := some (settings.snapshotPath e)
          auditPath := some (settings.auditPath e) }
      state :=
        { store := .loadOrEmpty d (settings.snapshotPath e)
          disk := d
          resolver := cache
          applier := [] }
      interval := settings.interval
      statePath := state
      setsPath := sets }

/-- Runs a reconciliation. -/
def reconcile (s : Daemon) (now : Instant) : Outcome × Daemon :=
  let (outcome, state) :=
    s.controller.reconcile now (ClusterState.load s.state.disk s.statePath) s.state
  (outcome, { s with state := state })

/-- Reads the resolutions again; if that fails the old ones stay. -/
def refresh (s : Daemon) : Daemon :=
  match s.setsPath with
  | none => s
  | some path =>
    match CacheEntry.loadList s.state.disk path with
    | .ok entries => { s with state := { s.state with resolver := .ofEntries entries } }
    | .error _ => s

end Daemon

end ClusterFirewall.CommandLine
