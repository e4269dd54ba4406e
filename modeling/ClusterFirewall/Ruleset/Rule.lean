import ClusterFirewall.Cluster
import ClusterFirewall.SortedMap

/-!
# Rules

A rule that lets traffic pass is a list of clauses on addresses, a protocol with ports, and a
comment. Its text is one line. Lists of rules are kept as texts in increasing order, each once, so
that equal inputs give equal rulesets.
-/

namespace ClusterFirewall

/-- The name of the set of the cluster's own prefixes. -/
def clusterPrefixes : String := "cluster_prefixes"

/-- A set without a name: its elements between braces. -/
def setText (items : List String) : String := "\x7b " ++ ", ".intercalate items ++ " \x7d"

/-- A condition on an address of a packet. -/
inductive Clause where
  /-- The source lies in one of the blocks. -/
  | sourceIn (blocks : List String)
  /-- The source lies in none of the blocks. -/
  | sourceNotIn (blocks : List String)
  /-- The source belongs to the cluster. -/
  | sourceInCluster
  /-- The destination lies in one of the blocks. -/
  | destinationIn (blocks : List String)
  /-- The destination lies in none of the blocks. -/
  | destinationNotIn (blocks : List String)
  /-- The destination is in a named set. -/
  | destinationInSet (name : String)
  deriving DecidableEq, Repr

/-- The text of a clause. -/
def Clause.text : Clause → String
  | .sourceIn blocks => "ip saddr " ++ setText blocks
  | .sourceNotIn blocks => "ip saddr != " ++ setText blocks
  | .sourceInCluster => "ip saddr == @" ++ clusterPrefixes
  | .destinationIn blocks => "ip daddr " ++ setText blocks
  | .destinationNotIn blocks => "ip daddr != " ++ setText blocks
  | .destinationInSet name => "ip daddr @" ++ name

/-- The ports from a first to a last one. -/
structure PortSpan where
  /-- The first port. -/
  first : UInt16
  /-- The last port. -/
  last : UInt16
  deriving DecidableEq, Repr

/-- The text of a span: one port or two with a dash. -/
def PortSpan.text (s : PortSpan) : String :=
  if s.first = s.last then toString s.first.toNat
  else toString s.first.toNat ++ "-" ++ toString s.last.toNat

/-- The ports that a policy's port stands for. -/
def PolicyPort.span (p : PolicyPort) : PortSpan := ⟨p.port, p.endPort.getD p.port⟩

theorem PolicyPort.text_span (p : PolicyPort) : p.span.text = p.text := by
  obtain ⟨_, port, _ | last⟩ := p
  · simp [span, PortSpan.text, PolicyPort.text]
  · by_cases h : last = port
    · simp [span, PortSpan.text, PolicyPort.text, h]
    · simp [span, PortSpan.text, PolicyPort.text, h, Ne.symm h]

/-- A rule that lets traffic to some ports pass. -/
structure PortRule where
  /-- The conditions on the addresses. -/
  clauses : List Clause
  /-- The protocol. -/
  protocol : Protocol
  /-- The ports. -/
  ports : List PortSpan
  /-- The comment. -/
  comment : String
  deriving DecidableEq, Repr

/-- The line of a rule. -/
def PortRule.text (r : PortRule) : String :=
  " ".intercalate
    (r.clauses.map Clause.text ++
      [r.protocol.text ++ " dport " ++ setText (r.ports.map PortSpan.text), "counter", "accept",
        "comment \"" ++ r.comment ++ "\""])

/-- The ports of one protocol among ports with their protocols, in their order. -/
def portsOf (protocol : Protocol) (ports : List (Protocol × PortSpan)) : List PortSpan :=
  (ports.filter fun p => p.1 == protocol).map (·.2)

/-- The rule of one protocol, if there are ports of it. -/
def portRule? (clauses : List Clause) (ports : List (Protocol × PortSpan)) (protocol : Protocol)
    (comment : String) : Option PortRule :=
  let spans := portsOf protocol ports
  if spans.isEmpty then none else some ⟨clauses, protocol, spans, comment⟩

/-- The texts of rules in increasing order, each once. -/
def ruleLines (rules : List PortRule) : List String := sortUnique (rules.map PortRule.text)

end ClusterFirewall
