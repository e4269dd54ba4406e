import ClusterFirewall.Disk.Files
import ClusterFirewall.Error
import ClusterFirewall.Json.Form
import ClusterFirewall.Json.Stored
import ClusterFirewall.Text.Split
import ClusterFirewall.Time

/-!
# The audit log

Every attempt to load a ruleset, every policy that was left out and every time the snapshots were
saved leaves an event: one line of JSON at the end of a file. Reading starts from the newest line
and passes over lines that are no events, which count as lines all the same.
-/

namespace ClusterFirewall

/-! ## Events -/

/-- The kind of an event. -/
inductive AuditEventType where
  | applyRuleset
  | skipUnchanged
  | rejectPolicy
  | persistSnapshots
  deriving DecidableEq, Repr

/-- The word of a kind of event. -/
def AuditEventType.text : AuditEventType → String
  | .applyRuleset => "apply_ruleset"
  | .skipUnchanged => "skip_unchanged"
  | .rejectPolicy => "reject_policy"
  | .persistSnapshots => "persist_snapshots"

instance : JsonForm AuditEventType where
  toJson t := .str t.text
  ofJson? j :=
    match j.word? with
    | some "apply_ruleset" => some .applyRuleset
    | some "skip_unchanged" => some .skipUnchanged
    | some "reject_policy" => some .rejectPolicy
    | some "persist_snapshots" => some .persistSnapshots
    | _ => none

/-- Something that happened. -/
structure AuditEvent where
  /-- When it happened. -/
  timestamp : Instant
  /-- What happened. -/
  type : AuditEventType
  /-- Whether it succeeded. -/
  success : Bool
  /-- What it was about. -/
  details : Json
  /-- Why it failed. -/
  error : Option String

instance : JsonForm Instant where
  toJson t := .str t.text
  ofJson? | .string s => s.bind Instant.parse?
          | _ => none

instance : JsonForm AuditEvent where
  toJson e := .record
    [("timestamp", toJson e.timestamp), ("event_type", toJson e.type),
      ("success", toJson e.success), ("details", e.details), ("error", toJson e.error)]
  ofJson? j := do
    let r ← j.fields? ["timestamp", "event_type", "success", "details", "error"]
    if r.byPlace && (r.given.lookup "error").isNone then none
    let details ← r.given.lookup "details"
    pure
      { timestamp := ← r.required "timestamp"
        type := ← r.required "event_type"
        success := ← r.required "success"
        details := ← details.stored? (Json.nestingLimit - 1)
        error := ← r.orElse "error" none }

namespace AuditEvent

/-- An attempt to load a ruleset. -/
def apply (now : Instant) (reason : String) (ruleCount : Nat) (checksum : String)
    (error : Option String) : AuditEvent :=
  { timestamp := now
    type := .applyRuleset
    success := error.isNone
    details := .record
      [("checksum", .str checksum), ("reason", .str reason), ("rule_count", .nat ruleCount)]
    error := error }

/-- A ruleset that was loaded already. -/
def unchanged (now : Instant) (checksum : String) : AuditEvent :=
  ⟨now, .skipUnchanged, true, .record [("checksum", .str checksum)], none⟩

/-- A policy that was left out. -/
def rejected (now : Instant) (policy : String) : AuditEvent :=
  ⟨now, .rejectPolicy, false, .record [("policy", .str policy)], some "validation failed"⟩

/-- The saving of the snapshots. -/
def persist (now : Instant) (count : Nat) (error : Option String) : AuditEvent :=
  { timestamp := now
    type := .persistSnapshots
    success := error.isNone
    details := .record [("snapshot_count", .nat count)]
    error := error }

/-- The line of an event. -/
def line (e : AuditEvent) : String := (toJson e).compact

end AuditEvent

/-! ## The log -/

namespace AuditLog

/-- Adds an event to a log. -/
def append (d : Disk) (path : String) (e : AuditEvent) : Except Fault Disk :=
  d.append path (e.line ++ "\n").toUTF8

/-- Adds an event to a log, if there is one; a log that cannot be written is left alone. -/
def record (path : Option String) (e : AuditEvent) (d : Disk) : Disk :=
  match path with
  | none => d
  | some path =>
    match append d path e with
    | .ok d => d
    | .error _ => d

/-- The events among the newest lines of a text, newest first. -/
def recentEvents (text : String) (count : Nat) : List AuditEvent :=
  ((Text.lines text).reverse.take count).filterMap (Json.read? AuditEvent)

/-- The events among the newest lines of a log, newest first. -/
def readRecent (d : Disk) (path : String) (count : Nat) : Except Fault (List AuditEvent) :=
  (d.readText path).map fun text => recentEvents text count

end AuditLog

end ClusterFirewall
