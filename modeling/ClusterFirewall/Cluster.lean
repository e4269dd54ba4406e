import ClusterFirewall.Policy.Basic

/-!
# The state of a cluster

What a reconciliation works from: the policies, the services whose load balancer addresses are let
in, and the networks of the firewall with their rate limits and source addresses.
-/

namespace ClusterFirewall

/-! ## Services -/

/-- The kind of a service. -/
inductive ServiceType where
  | clusterIP
  | nodePort
  | loadBalancer
  | externalName
  deriving DecidableEq, Repr

namespace ServiceType

/-- The name of a kind of service. -/
def text : ServiceType → String
  | .clusterIP => "ClusterIP"
  | .nodePort => "NodePort"
  | .loadBalancer => "LoadBalancer"
  | .externalName => "ExternalName"

/-- The kind of service that a name means. -/
def ofText? : String → Option ServiceType
  | "ClusterIP" => some .clusterIP
  | "NodePort" => some .nodePort
  | "LoadBalancer" => some .loadBalancer
  | "ExternalName" => some .externalName
  | _ => none

end ServiceType

/-- A port of a service. -/
structure ServicePort where
  /-- The protocol, if it is named. -/
  protocol : Option Protocol
  /-- The port. -/
  port : UInt16
  deriving DecidableEq, Repr

/-- The protocol that a service port means: TCP if none is named. -/
def ServicePort.effectiveProtocol (p : ServicePort) : Protocol := p.protocol.getD .tcp

/-- A service of the cluster. -/
structure Service where
  /-- The namespace. -/
  space : String
  /-- The name. -/
  name : String
  /-- The kind. -/
  type : ServiceType
  /-- The addresses at which a load balancer takes traffic in. -/
  ingressIps : List String
  /-- The networks that traffic may come from; from anywhere if there is none. -/
  sourceRanges : List String
  /-- The ports. -/
  ports : List ServicePort
  deriving DecidableEq, Repr

/-! ## The firewall -/

/-- The kind of a network. -/
inductive NetworkType where
  | privatePrimary
  | privateShared
  | external
  | underlay
  deriving DecidableEq, Repr

namespace NetworkType

/-- The name of a kind of network. -/
def text : NetworkType → String
  | .privatePrimary => "privateprimary"
  | .privateShared => "private"
  | .external => "external"
  | .underlay => "underlay"

/-- The kind of network that a name means. -/
def ofText? : String → Option NetworkType
  | "privateprimary" => some .privatePrimary
  | "private" => some .privateShared
  | "external" => some .external
  | "underlay" => some .underlay
  | _ => none

end NetworkType

/-- A network that the firewall is attached to. -/
structure FirewallNetwork where
  /-- The network's id. -/
  networkId : String
  /-- The kind. -/
  type : NetworkType
  /-- The number of its routing table, if it has one. -/
  vrf : Option UInt64
  /-- Its prefixes. -/
  prefixes : List String
  deriving DecidableEq, Repr

/-- A bound on the traffic that enters through a network. -/
structure RateLimit where
  /-- The network's id. -/
  networkId : String
  /-- Megabytes in a second. -/
  rate : UInt32
  deriving DecidableEq, Repr

/-- The source addresses of traffic that leaves through a network. -/
structure EgressSnat where
  /-- The network's id. -/
  networkId : String
  /-- The addresses. -/
  ips : List String
  deriving DecidableEq, Repr

/-- The firewall as it is to be. -/
structure FirewallSpec where
  /-- The prefixes of the cluster. -/
  internalPrefixes : List String
  /-- The networks. -/
  networks : List FirewallNetwork
  /-- The rate limits. -/
  rateLimits : List RateLimit
  /-- The source addresses. -/
  egressSnat : List EgressSnat
  deriving DecidableEq, Repr, Inhabited

namespace FirewallSpec

/-- The routing table of the first primary private network. -/
def privateVrf? (f : FirewallSpec) : Option UInt64 :=
  (f.networks.find? fun n => n.type == .privatePrimary).bind (·.vrf)

/-- The first network with an id. -/
def network? (f : FirewallSpec) (id : String) : Option FirewallNetwork :=
  f.networks.find? fun n => n.networkId == id

/-- The routing table of the first network with an id. -/
def vrf? (f : FirewallSpec) (id : String) : Option UInt64 := (f.network? id).bind (·.vrf)

end FirewallSpec

/-! ## The cluster -/

/-- All that a ruleset is built from but the resolver. -/
structure ClusterState where
  /-- The policies. -/
  policies : List Policy
  /-- The services. -/
  services : List Service
  /-- The firewall. -/
  firewall : FirewallSpec
  deriving DecidableEq, Repr, Inhabited

end ClusterFirewall
