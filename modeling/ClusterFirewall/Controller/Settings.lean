import ClusterFirewall.Disk.Files
import ClusterFirewall.Error
import ClusterFirewall.Json.Form
import ClusterFirewall.Text.Split

/-!
# Settings of the controller

Settings come from a file, from the environment and from defaults. Configuration and state live in
folders of the user's own, which the environment may move.
-/

namespace ClusterFirewall

/-! ## The environment -/

/-- The part of the environment that the controller looks at. -/
structure Environment where
  /-- The user's home folder. -/
  home : Option String
  /-- Where configuration is kept. -/
  configHome : Option String
  /-- Where state is kept. -/
  stateHome : Option String
  /-- The load command. -/
  nftCommand : Option String
  deriving DecidableEq, Repr

namespace Environment

/-- The name of the controller's folders. -/
def folderName : String := "nftpolicy"

/-- The home folder, or that of the account if none is set. -/
def homeFolder (e : Environment) : String :=
  match e.home with
  | some home => if home.isEmpty then "/root" else home
  | none => "/root"

/-- A folder of the controller: below the set folder if its path is absolute, else below the home
folder. -/
def folder (e : Environment) (set : Option String) (usual : String) : String :=
  let base := (set.filter fun s => s.startsWith '/').getD (Path.join e.homeFolder usual)
  Path.join base folderName

/-- The folder of the configuration. -/
def configFolder (e : Environment) : String := e.folder e.configHome ".config"

/-- The folder of the state. -/
def stateFolder (e : Environment) : String := e.folder e.stateHome ".local/state"

/-- The usual file of the configuration. -/
def configPath (e : Environment) : String := Path.join e.configFolder "config.json"

/-- Makes the folders of configuration and state, readable by the owner only. -/
def ensureFolders (e : Environment) (d : Disk) : Except Fault Disk := do
  let d ← d.createFolder e.configFolder 0o700
  d.createFolder e.stateFolder 0o700

end Environment

/-! ## Settings -/

/-- The settings of the controller. -/
structure Settings where
  /-- Seconds between reconciliations. -/
  reconcileIntervalSecs : UInt64
  /-- Seconds that loading a ruleset may take. -/
  applyTimeoutSecs : UInt64
  /-- The file of the loaded ruleset. -/
  rulesetPath : String
  /-- The load command. -/
  nftCommand : String
  /-- Whether the load command is left out. -/
  dryRun : Bool
  /-- The folder of the state, if it is not the usual one. -/
  stateDir : Option String
  deriving DecidableEq, Repr

namespace Settings

/-- The settings where nothing else is said. -/
def standard : Settings :=
  { reconcileIntervalSecs := 30
    applyTimeoutSecs := 20
    rulesetPath := "/etc/nftables/nftpolicy.v4"
    nftCommand := "nft"
    dryRun := false
    stateDir := none }

instance : JsonForm Settings where
  toJson s := .record
    ([("reconcile_interval_secs", toJson s.reconcileIntervalSecs),
      ("apply_timeout_secs", toJson s.applyTimeoutSecs), ("ruleset_path", toJson s.rulesetPath),
      ("nft_command", toJson s.nftCommand), ("dry_run", toJson s.dryRun)] ++
      memberOf "state_dir" s.stateDir)
  ofJson? j := do
    let r ← j.fields?
      ["reconcile_interval_secs", "apply_timeout_secs", "ruleset_path", "nft_command", "dry_run",
        "state_dir"]
    pure
      { reconcileIntervalSecs := ← r.orElse "reconcile_interval_secs" standard.reconcileIntervalSecs
        applyTimeoutSecs := ← r.orElse "apply_timeout_secs" standard.applyTimeoutSecs
        rulesetPath := ← r.orElse "ruleset_path" standard.rulesetPath
        nftCommand := ← r.orElse "nft_command" standard.nftCommand
        dryRun := ← r.orElse "dry_run" standard.dryRun
        stateDir := ← r.orElse "state_dir" none }

/-- A number moved into a range. -/
def clamp (low high n : UInt64) : UInt64 := if n < low then low else if high < n then high else n

/-- The settings with their times moved into the supported ranges. -/
def clamped (s : Settings) : Settings :=
  { s with
    reconcileIntervalSecs := clamp 1 3600 s.reconcileIntervalSecs
    applyTimeoutSecs := clamp 1 600 s.applyTimeoutSecs }

/-- The settings with the environment's load command, unless that is blank. -/
def withEnvironment (s : Settings) (e : Environment) : Settings :=
  match e.nftCommand with
  | some command => if Text.isAllBlank command then s else { s with nftCommand := command }
  | none => s

/-- The time between reconciliations. -/
def interval (s : Settings) : Span := .seconds s.reconcileIntervalSecs.toNat

/-- The time that loading a ruleset may take. -/
def applyTimeout (s : Settings) : Span := .seconds s.applyTimeoutSecs.toNat

/-- The folder of the state. -/
def stateFolder (s : Settings) (e : Environment) : String := s.stateDir.getD e.stateFolder

/-- The file of the snapshots. -/
def snapshotPath (s : Settings) (e : Environment) : String :=
  Path.join (s.stateFolder e) "snapshots.json"

/-- The file of the audit log. -/
def auditPath (s : Settings) (e : Environment) : String :=
  Path.join (s.stateFolder e) "audit.log"

/-- The file of the program's messages. -/
def logPath (s : Settings) (e : Environment) : String :=
  Path.join (s.stateFolder e) "nftpolicy.log"

/-- Reads the settings from a file; a missing file gives the standard ones. -/
def load (e : Environment) (d : Disk) (path : String) : Except Error Settings := do
  let s : Settings ←
    match d.readText path with
    | .ok text =>
      match Json.read? Settings text with
      | some s => pure s
      | none => throw (.config (path ++ ": " ++ Error.json.message))
    | .error .notFound => pure standard
    | .error f => throw (.config (path ++ ": " ++ f.message))
  pure (s.withEnvironment e).clamped

end Settings

end ClusterFirewall
