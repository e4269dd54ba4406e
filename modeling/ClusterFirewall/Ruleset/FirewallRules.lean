import ClusterFirewall.Error
import ClusterFirewall.Ruleset.Rule

/-!
# The rules of services and of the firewall

Load balancer services are let in at their ingress addresses. Networks with a rate limit drop what
comes too fast, and traffic that leaves through a network takes one of its source addresses; with
several addresses a hash of the packet's addresses chooses.
-/

namespace ClusterFirewall

/-! ## Services -/

namespace Service

/-- The conditions on traffic to a load balancer. -/
def clauses (s : Service) : List Clause :=
  (if s.sourceRanges.isEmpty then [] else [.sourceIn s.sourceRanges]) ++
    [.destinationIn s.ingressIps]

/-- The rules that let traffic to a service in. -/
def rules (s : Service) : List PortRule :=
  if s.type != .loadBalancer || s.ingressIps.isEmpty then []
  else
    let ports := s.ports.map fun p => (p.effectiveProtocol, PortSpan.mk p.port p.port)
    [Protocol.tcp, Protocol.udp].filterMap fun protocol =>
      portRule? s.clauses ports protocol
        ("accept traffic for k8s service " ++ s.space ++ "/" ++ s.name)

/-- The lines that let traffic to a service in. -/
def ruleTexts (s : Service) : List String := s.rules.map PortRule.text

end Service

/-! ## Rate limits -/

/-- The line that keeps traffic from a routing table below a rate. -/
def rateLimitLine (vrf : UInt64) (rate : UInt32) : String :=
  "meta iifname \"vrf" ++ toString vrf.toNat ++ "\" limit rate over " ++ toString rate.toNat ++
    " mbytes/second counter name drop_ratelimit drop"

/-- The lines of the rate limits; limits of networks without a routing table are left out. -/
def FirewallSpec.rateLimitLines (f : FirewallSpec) : List String :=
  f.rateLimits.filterMap fun limit =>
    (f.vrf? limit.networkId).map fun vrf => rateLimitLine vrf limit.rate

/-! ## Source addresses -/

/-- The entries of the map from hash values to addresses. -/
def addressMap (ips : List String) : List String :=
  ips.zipIdx.map fun e => toString e.2 ++ " : " ++ e.1

/-- What traffic takes as its source address: the only address, or one by the hash of the packet's
addresses. -/
def snatTarget? : List String → Option String
  | [] => none
  | [ip] => some ip
  | ips =>
    some ("jhash ip daddr . ip saddr mod " ++ toString ips.length ++ " map " ++
      setText (addressMap ips))

/-- The line that gives traffic a source address. -/
def snatLine (vrf : UInt64) (target networkId : String) : String :=
  "ip saddr @" ++ clusterPrefixes ++ " oifname \"vlan" ++ toString vrf.toNat ++
    "\" counter snat to " ++ target ++ " comment \"snat for " ++ networkId ++ "\""

/-- The violation of a network that traffic cannot leave through. -/
def detachedNetwork (networkId : String) : Violation :=
  ⟨"firewall.egressSnat", s!"network {networkId} is not attached or has no VRF"⟩

/-- The lines of some source addresses. -/
def snatLinesOf (f : FirewallSpec) : List EgressSnat → Except Violation (List String)
  | [] => .ok []
  | s :: rest =>
    match f.vrf? s.networkId with
    | none => .error (detachedNetwork s.networkId)
    | some vrf => do
      let lines ← snatLinesOf f rest
      match snatTarget? s.ips with
      | none => pure lines
      | some target => pure (snatLine vrf target s.networkId :: lines)

/-- The lines of the source addresses. -/
def FirewallSpec.snatLines (f : FirewallSpec) : Except Violation (List String) :=
  snatLinesOf f f.egressSnat

end ClusterFirewall
