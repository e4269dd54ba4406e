import ClusterFirewall.CommandLine.Run
import Std.Time.DateTime.Timestamp

/-!
# The program

Reads the arguments, the environment and the files that a request names, lets the library answer,
and writes back what changed. Programs cannot be started from here, so rulesets are loaded in dry
runs only.
-/

open ClusterFirewall ClusterFirewall.CommandLine

/-! ## Files -/

/-- What stands at a place. -/
def lookAt (place : Place) : IO (Option Node) := do
  let path := (← IO.currentDir) / ("/" ++ "/".intercalate place)
  if ← path.isDir then return some (.folder 0o755)
  if ← path.pathExists then return some (.file (← IO.FS.readBinFile path) 0o644)
  return none

/-- The disk with what stands at some paths and on the way to them. -/
def readDisk (paths : List String) : IO Disk := do
  let here := (Path.ofText (← IO.currentDir).toString).steps
  let mut disk : Disk := ⟨[], here⟩
  for path in paths do
    for place in disk.placesOn path do
      if let some node ← lookAt place then
        disk := disk.set place node
  return disk

/-- Writes back what changed between two disks. -/
def writeDisk (old new : Disk) : IO Unit := do
  for (place, node) in new.nodes.reverse do
    if old.get? place != some node then
      let path := "/" ++ "/".intercalate place
      match node with
      | .folder _ => IO.FS.createDirAll path
      | .file content _ =>
        IO.FS.writeBinFile (path ++ ".new") content
        IO.FS.rename (path ++ ".new") path
  for (place, _) in old.nodes do
    if (new.get? place).isNone then IO.FS.removeFile ("/" ++ "/".intercalate place)

/-! ## Requests -/

/-- The environment. -/
def readEnvironment : IO Environment := do
  return ⟨← IO.getEnv "HOME", ← IO.getEnv "XDG_CONFIG_HOME", ← IO.getEnv "XDG_STATE_HOME",
    ← IO.getEnv "NFTPOLICY_NFT_COMMAND"⟩

/-- The present time. -/
def readClock : IO Instant := do
  let now ← Std.Time.Timestamp.now
  return ⟨now.toSecondsSinceUnixEpoch.val, now.val.nano.val.toNat⟩

/-- No program can be started. -/
def noLauncher : Launcher := fun _ _ => .notStarted .notSupported

/-- Prints the answer to a request. -/
def printAnswer : Except Failure Answer → IO UInt32
  | .ok a => do
    IO.print a.output
    return a.code
  | .error f => do
    IO.eprintln ("Error: " ++ f.message)
    return failureCode

/-- Reconciles at every interval, with the files as they are then. -/
partial def serve (paths : List String) (daemon : Daemon) : IO UInt32 := do
  let old ← readDisk paths
  let daemon := { daemon with state := { daemon.state with disk := old } }
  let (_, daemon) := daemon.refresh.reconcile (← readClock)
  writeDisk old daemon.state.disk
  IO.sleep daemon.interval.toMillis.toUInt32
  serve paths daemon

/-- Answers a request. -/
def answer : Request → IO UInt32
  | .compile state sets format => do
    printAnswer (compile (← readDisk (state :: sets.toList)) state sets format)
  | .check state snapshots sets => do
    printAnswer (check (← readDisk (state :: snapshots :: sets.toList)) state snapshots sets)
  | .run state sets config => do
    let environment ← readEnvironment
    let paths := Daemon.settingsPaths environment config
    let settings :=
      Settings.load environment (← readDisk paths) (config.getD environment.configPath)
    let paths := paths ++
      match settings with
      | .ok settings => Daemon.workingPaths environment settings state sets
      | .error _ => []
    let old ← readDisk paths
    match Daemon.prepare environment noLauncher old state sets config with
    | .error f => printAnswer (.error f)
    | .ok daemon =>
      writeDisk old daemon.state.disk
      serve paths daemon

/-- Answers the request that the arguments make. -/
def main (arguments : List String) : IO UInt32 := do
  match request? arguments with
  | some request => answer request
  | none =>
    IO.eprintln "usage: nftpolicy [-v] compile|check|run OPTIONS"
    return usageCode
