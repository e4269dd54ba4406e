import ClusterFirewall.CommandLine.Run
import ClusterFirewall.Controller.Diagnostics
import ClusterFirewall.Controller.Rehearsal
import ClusterFirewall.Diff.Report
import ClusterFirewall.Main
import ClusterFirewall.Proofs.Controller.InForce
import ClusterFirewall.Proofs.Controller.Rebuilding
import ClusterFirewall.Proofs.Controller.Rehydration
import ClusterFirewall.Proofs.Controller.Auditing
import ClusterFirewall.Proofs.Controller.Publishing
import ClusterFirewall.Proofs.Controller.Settling
import ClusterFirewall.Proofs.Ruleset.Meaning
import ClusterFirewall.Proofs.Resolution.Transcript
import ClusterFirewall.Proofs.Ruleset.Generation
import ClusterFirewall.Proofs.Ruleset.DeclaredSets
import ClusterFirewall.Proofs.Ruleset.Determinism
import ClusterFirewall.Proofs.Ruleset.Containment
import ClusterFirewall.Proofs.Text.Tokens
import ClusterFirewall.Proofs.Ruleset.References
import ClusterFirewall.Proofs.Ruleset.Declarations
import ClusterFirewall.Proofs.Json.Canonical
import ClusterFirewall.Proofs.Snapshot.Acceptance
import ClusterFirewall.Proofs.Resolution.Upkeep
import ClusterFirewall.Proofs.Controller.Loading
import ClusterFirewall.Proofs.Drift.Exactness
import ClusterFirewall.Proofs.Policy.WriteBack
import ClusterFirewall.Proofs.Ruleset.NamedSets
import ClusterFirewall.Proofs.Ruleset.Outcome
import ClusterFirewall.Proofs.Text.ByteOrder
import ClusterFirewall.Proofs.Controller.Recalling
import ClusterFirewall.Proofs.Policy.Lines
import ClusterFirewall.Proofs.Resolution.Registration
import ClusterFirewall.Proofs.Resolution.Replacement
import ClusterFirewall.Proofs.Ruleset.Unambiguity
import ClusterFirewall.Proofs.Json.OneLine
import ClusterFirewall.Proofs.Policy.FirstViolation
import ClusterFirewall.Proofs.Time.Calendar
import ClusterFirewall.Proofs.Time.Instant
import ClusterFirewall.Proofs.Controller.Appending
import ClusterFirewall.Proofs.Digest.Hex
import ClusterFirewall.Proofs.Json.Alike
import ClusterFirewall.Proofs.Json.Grammar
import ClusterFirewall.Proofs.Snapshot.Integrity
import ClusterFirewall.Proofs.Diff.Compaction
import ClusterFirewall.Proofs.Diff.Faithfulness
import ClusterFirewall.Proofs.Ruleset.Spreading
import ClusterFirewall.Proofs.Controller.Diagnosing
import ClusterFirewall.Proofs.Resolution.Naming
