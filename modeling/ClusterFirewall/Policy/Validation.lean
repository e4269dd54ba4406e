import ClusterFirewall.Address
import ClusterFirewall.Error
import ClusterFirewall.Policy.Basic

/-!
# Validation of policies

A policy is checked for everything that would give rules that cannot be loaded, or rules that match
something else than was written. The violations are listed in the order in which a reader meets
them: the namespace, the name, the ingress rules with their blocks and ports, the egress rules with
their blocks, selectors and ports. The first one is the one that is reported.
-/

namespace ClusterFirewall

/-! ## Blocks, selectors and ports -/

/-- What is wrong with a block that is cut out of a network. -/
def exceptViolation? (field : String) (block : IpBlock) (network : Network) (except : String) :
    Option Violation :=
  match Network.parse? except with
  | none => some ⟨field, s!"invalid except CIDR {except}"⟩
  | some excluded =>
    if network.includes excluded then none
    else some ⟨field, s!"except {except} is not within {block.cidr}"⟩

/-- What is wrong with a block. -/
def IpBlock.violations (field : String) (block : IpBlock) : List Violation :=
  match Network.parse? block.cidr with
  | none => [⟨field, s!"invalid CIDR {block.cidr}"⟩]
  | some network => block.except.filterMap (exceptViolation? field block network)

/-- What is wrong with a selector. -/
def Selector.violations (field : String) (s : Selector) : List Violation :=
  match s.matchName.isEmpty, s.matchPattern.isEmpty with
  | true, true => [⟨field, "selector needs a matchName or a matchPattern"⟩]
  | false, false =>
    [⟨field, s!"selector sets both matchName {s.matchName} and matchPattern {s.matchPattern}"⟩]
  | _, _ => []

/-- What is wrong with a port. -/
def PolicyPort.violations (field : String) (p : PolicyPort) : List Violation :=
  if p.port = 0 then [⟨field, "port must be between 1 and 65535"⟩]
  else
    match p.endPort with
    | some last =>
      if last < p.port then
        [⟨field, s!"end port {last.toNat} is below start port {p.port.toNat}"⟩]
      else []
    | none => []

/-! ## Rules and policies -/

/-- What is wrong with the ingress rule of an index. -/
def IngressRule.violations (index : Nat) (e : IngressRule) : List Violation :=
  e.sources.flatMap (IpBlock.violations s!"spec.ingress[{index}].from") ++
    e.ports.flatMap (PolicyPort.violations s!"spec.ingress[{index}].ports")

/-- What is wrong with the egress rule of an index. -/
def EgressRule.violations (index : Nat) (e : EgressRule) : List Violation :=
  e.destinations.flatMap (IpBlock.violations s!"spec.egress[{index}].to") ++
    e.selectors.flatMap (Selector.violations s!"spec.egress[{index}].toFQDNs") ++
    e.ports.flatMap (PolicyPort.violations s!"spec.egress[{index}].ports")

namespace Policy

/-- What is wrong with a policy's namespace. -/
def spaceViolations (p : Policy) : List Violation :=
  if p.space = home then []
  else [⟨"metadata.namespace", s!"policy {p.key.text} must live in namespace {home}"⟩]

/-- What is wrong with a policy's name. -/
def nameViolations (p : Policy) : List Violation :=
  if p.name.isEmpty then [⟨"metadata.name", "name must not be empty"⟩] else []

/-- Everything that is wrong with a policy, in reading order. -/
def violations (p : Policy) : List Violation :=
  p.spaceViolations ++ p.nameViolations ++
    p.spec.ingress.zipIdx.flatMap (fun e => e.1.violations e.2) ++
    p.spec.egress.zipIdx.flatMap (fun e => e.1.violations e.2)

/-- The first thing that is wrong with a policy. -/
def violation? (p : Policy) : Option Violation := p.violations.head?

/-- Whether nothing is wrong with a policy. -/
def isValid (p : Policy) : Bool := p.violations.isEmpty

end Policy

end ClusterFirewall
