import ClusterFirewall.Resolution.Basic
import ClusterFirewall.Ruleset.Rule

/-!
# The rules of a policy

An ingress rule with blocks, and an egress rule with blocks, give one list of clauses; an egress
rule without blocks gives one for every set that its selectors carry. Each list of clauses becomes
a rule for TCP and a rule for UDP, as far as there are ports of the protocol.

The sets come into a policy by resolution: it writes the resolver's answer into every selector of an
egress rule without blocks, and changes nothing else.
-/

namespace ClusterFirewall

/-! ## Clauses -/

/-- The block that every address lies in. -/
def allAddresses : String := "0.0.0.0/0"

/-- The blocks of peers. -/
def allowedBlocks (peers : List IpBlock) : List String := peers.map (·.cidr)

/-- The blocks cut out of peers. -/
def exceptedBlocks (peers : List IpBlock) : List String := peers.flatMap (·.except)

/-- A clause on blocks, unless there is none. -/
def clauseUnlessEmpty (clause : List String → Clause) (blocks : List String) : List Clause :=
  if blocks.isEmpty then [] else [clause blocks]

namespace IngressRule

/-- The conditions on the source of traffic that may enter. -/
def clauses (e : IngressRule) : List Clause :=
  clauseUnlessEmpty .sourceNotIn (exceptedBlocks e.sources) ++
    clauseUnlessEmpty .sourceIn (allowedBlocks e.sources)

end IngressRule

/-- The conditions on traffic from the cluster to blocks. A clause that every destination meets is
left out. -/
def destinationClauses (destinations : List IpBlock) : List Clause :=
  let allowed := allowedBlocks destinations
  [.sourceInCluster] ++ clauseUnlessEmpty .destinationNotIn (exceptedBlocks destinations) ++
    clauseUnlessEmpty .destinationIn (if allowed = [allAddresses] then [] else allowed)

namespace EgressRule

/-- The conditions on traffic that may leave, one list for the blocks or for each set. -/
def clauseLists (e : EgressRule) : List (List Clause) :=
  if e.destinations.isEmpty then
    (e.selectors.flatMap (·.sets)).map fun name => [.sourceInCluster, .destinationInSet name]
  else [destinationClauses e.destinations]

end EgressRule

/-! ## Rules -/

/-- A policy's ports with their protocols. -/
def spansOf (ports : List PolicyPort) : List (Protocol × PortSpan) :=
  ports.map fun p => (p.effectiveProtocol, p.span)

/-- The rules of clauses and ports, for TCP and for UDP. -/
def portRules (clauses : List Clause) (ports : List PolicyPort) (comment : String) :
    List PortRule :=
  [Protocol.tcp, Protocol.udp].filterMap fun protocol =>
    portRule? clauses (spansOf ports) protocol (comment ++ " " ++ protocol.text)

namespace Policy

/-- The rules for traffic that may enter. -/
def ingressRules (p : Policy) : List PortRule :=
  p.spec.ingress.flatMap fun e =>
    portRules e.clauses e.ports ("accept traffic for k8s network policy " ++ p.name)

/-- The rules for traffic that may leave, by the sets that the selectors carry. -/
def egressRules (p : Policy) : List PortRule :=
  p.spec.egress.flatMap fun e =>
    e.clauseLists.flatMap fun clauses =>
      portRules clauses e.ports ("accept traffic for np " ++ p.name)

/-- The lines for traffic that may enter. -/
def ingressLines (p : Policy) : List String := ruleLines p.ingressRules

/-- The lines for traffic that may leave. -/
def egressLines (p : Policy) : List String := ruleLines p.egressRules

end Policy

/-! ## Resolution -/

section Resolution

variable {σ : Type}

/-- Writes the resolver's answer into a selector. -/
def Selector.resolve (r : Resolver σ) (s : Selector) (st : σ) : Selector × σ :=
  let (names, st) := r.answer s false st
  ({ s with sets := names }, st)

/-- Resolves the selectors of an egress rule, unless it has blocks. -/
def EgressRule.resolve (r : Resolver σ) (e : EgressRule) (st : σ) : EgressRule × σ :=
  if e.destinations.isEmpty then
    let (selectors, st) := traverse (Selector.resolve r) e.selectors st
    ({ e with selectors := selectors }, st)
  else (e, st)

/-- Resolves the selectors of a policy. -/
def Policy.resolve (r : Resolver σ) (p : Policy) (st : σ) : Policy × σ :=
  let (egress, st) := traverse (EgressRule.resolve r) p.spec.egress st
  ({ p with spec := { p.spec with egress := egress } }, st)

/-- A policy's lines and the policy that they were made from. -/
structure CompiledPolicy where
  /-- The lines for traffic that may enter. -/
  ingress : List String
  /-- The lines for traffic that may leave. -/
  egress : List String
  /-- The policy with the sets that its selectors were resolved to. -/
  policy : Policy

/-- Resolves a policy and makes its lines. -/
def Policy.compile (r : Resolver σ) (p : Policy) (st : σ) : CompiledPolicy × σ :=
  let (resolved, st) := p.resolve r st
  (⟨p.ingressLines, resolved.egressLines, resolved⟩, st)

end Resolution

end ClusterFirewall
