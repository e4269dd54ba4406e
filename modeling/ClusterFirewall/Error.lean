import ClusterFirewall.Disk.Basic
import ClusterFirewall.Time

/-!
# Errors

What can go wrong in a reconciliation, by its cause, and the wording of each.
-/

namespace ClusterFirewall

/-- Why a snapshot file is not accepted. -/
inductive SnapshotError where
  /-- The entries do not have the checksum that the file names. -/
  | checksumMismatch (expected actual : String)
  /-- The file has another format version. -/
  | versionMismatch (found expected : UInt32)
  /-- An entry's name is no policy key. -/
  | invalidKey (key : String)
  deriving DecidableEq, Repr

/-- The wording of a snapshot error. -/
def SnapshotError.message : SnapshotError → String
  | .checksumMismatch expected actual =>
    s!"Snapshot store checksum mismatch: expected {expected}, got {actual}"
  | .versionMismatch found expected =>
    s!"Snapshot store format version mismatch: found v{found}, expected v{expected}"
  | .invalidKey key => s!"Snapshot store contains invalid policy key: {key}"

/-- A check that failed: the field that it concerns and what is wrong with it. -/
structure Violation where
  /-- The field. -/
  field : String
  /-- What is wrong. -/
  text : String
  deriving DecidableEq, Repr

/-- Why a reconciliation, or a step of it, failed. -/
inductive Error where
  /-- A file operation failed. -/
  | io (fault : Fault)
  /-- A text is not the JSON that it should be. -/
  | json
  /-- The ruleset was not loaded. -/
  | nftables (message : String) (stderr : Option String) (exitCode : Option Int)
  /-- A check failed. -/
  | validation (violation : Violation)
  /-- A snapshot file is not accepted. -/
  | snapshot (error : SnapshotError)
  /-- Loading the ruleset took too long. -/
  | applyTimeout (deadline : Span)
  /-- The configuration cannot be used. -/
  | config (text : String)
  /-- Anything else. -/
  | internal (text : String)
  deriving DecidableEq, Repr

/-- The wording of an error. -/
def Error.message : Error → String
  | .io fault => "I/O error: " ++ fault.message
  | .json => "JSON error"
  | .nftables message _ _ => "nftables error: " ++ message
  | .validation v => s!"Validation error in {v.field}: {v.text}"
  | .snapshot error => "Snapshot error: " ++ error.message
  | .applyTimeout deadline => "Apply timed out after " ++ deadline.text
  | .config text => "Configuration error: " ++ text
  | .internal text => "Internal error: " ++ text

/-- The result of a file operation with its fault as an error. -/
def orFault {α : Type} : Except Fault α → Except Error α
  | .ok a => .ok a
  | .error f => .error (.io f)

end ClusterFirewall
