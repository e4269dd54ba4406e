import ClusterFirewall.Text.Split

/-!
# Network policies

A policy lets traffic of the cluster pass: its ingress rules from the outside in, its egress rules
from the inside out. Peers are CIDR blocks, or, for egress, DNS names whose addresses a resolver
keeps in named sets. A policy is known by its key, the pair of namespace and name.
-/

namespace ClusterFirewall

/-! ## Ports -/

/-- The wording for a text that is none of the names it could be. -/
def unknownName : String := "Matching variant not found"

/-- A transport protocol. -/
inductive Protocol where
  | tcp
  | udp
  | sctp
  deriving DecidableEq, Repr

namespace Protocol

/-- The protocol's name in a rule. -/
def text : Protocol → String
  | .tcp => "tcp"
  | .udp => "udp"
  | .sctp => "sctp"

/-- The protocol that a name in a rule means. -/
def ofText? : String → Option Protocol
  | "tcp" => some .tcp
  | "udp" => some .udp
  | "sctp" => some .sctp
  | _ => none

end Protocol

/-- A port or a range of ports of a protocol. -/
structure PolicyPort where
  /-- The protocol, if it is named. -/
  protocol : Option Protocol
  /-- The port, or the first of the range. -/
  port : UInt16
  /-- The last port of the range. -/
  endPort : Option UInt16
  deriving DecidableEq, Repr

namespace PolicyPort

/-- One port of a protocol. -/
def single (protocol : Protocol) (port : UInt16) : PolicyPort := ⟨some protocol, port, none⟩

/-- A range of ports of a protocol. -/
def range (protocol : Protocol) (port endPort : UInt16) : PolicyPort :=
  ⟨some protocol, port, some endPort⟩

/-- The protocol that is meant: TCP if none is named. -/
def effectiveProtocol (p : PolicyPort) : Protocol := p.protocol.getD .tcp

/-- The port or range as it stands in a rule. -/
def text (p : PolicyPort) : String :=
  match p.endPort with
  | some last =>
    if last = p.port then toString p.port.toNat
    else toString p.port.toNat ++ "-" ++ toString last.toNat
  | none => toString p.port.toNat

end PolicyPort

/-! ## Peers -/

/-- A CIDR block with blocks cut out of it. -/
structure IpBlock where
  /-- The block, in text. -/
  cidr : String
  /-- The blocks cut out, in text. -/
  except : List String
  deriving DecidableEq, Repr

/-- What a selector selects: a DNS name or a pattern of names. -/
structure SelectorKey where
  /-- The name; empty if a pattern is given. -/
  matchName : String
  /-- The pattern; empty if a name is given. -/
  matchPattern : String
  deriving DecidableEq, Repr

namespace SelectorKey

/-- Names first, then patterns. -/
instance : Ord SelectorKey := ⟨compareLex (compareOn (·.matchName)) (compareOn (·.matchPattern))⟩

instance : Std.TransOrd SelectorKey :=
  inferInstanceAs (Std.TransCmp
    (compareLex (compareOn SelectorKey.matchName) (compareOn SelectorKey.matchPattern)))

instance : Std.LawfulEqOrd SelectorKey where
  eq_of_compare {a b} h := by
    obtain ⟨h1, h2⟩ := Ordering.then_eq_eq.1 (show
      (compare a.matchName b.matchName).then (compare a.matchPattern b.matchPattern) = .eq from h)
    cases a; cases b
    simp_all [Std.LawfulEqCmp.compare_eq_iff_eq]

/-- The text that stands for a selector: its pattern if it has one, else its name. -/
def text (k : SelectorKey) : String := if k.matchPattern.isEmpty then k.matchName else k.matchPattern

end SelectorKey

/-- A selector with the names of the sets that hold its addresses. -/
structure Selector where
  /-- The name; empty if a pattern is given. -/
  matchName : String
  /-- The pattern; empty if a name is given. -/
  matchPattern : String
  /-- The names of the sets that it was last resolved to. -/
  sets : List String
  deriving DecidableEq, Repr

namespace Selector

/-- The selector of a name. -/
def ofName (name : String) : Selector := ⟨name, "", []⟩

/-- The selector of a pattern. -/
def ofPattern (pattern : String) : Selector := ⟨"", pattern, []⟩

/-- What the selector selects. -/
def key (s : Selector) : SelectorKey := ⟨s.matchName, s.matchPattern⟩

/-- Whether two selectors select the same, whatever their sets. -/
def sameSelection (s t : Selector) : Bool :=
  s.matchName == t.matchName && s.matchPattern == t.matchPattern

end Selector

/-! ## Rules and policies -/

/-- Traffic that may enter: from any of the blocks, or from anywhere if there is none. -/
structure IngressRule where
  /-- The blocks that the traffic comes from. -/
  sources : List IpBlock
  /-- The ports that it goes to. -/
  ports : List PolicyPort
  deriving DecidableEq, Repr

/-- Traffic that may leave: to the blocks if there are any, else to the selected names. -/
structure EgressRule where
  /-- The blocks that the traffic goes to. -/
  destinations : List IpBlock
  /-- The names that it goes to. -/
  selectors : List Selector
  /-- The ports that it goes to. -/
  ports : List PolicyPort
  deriving DecidableEq, Repr

/-- What a policy allows. -/
structure PolicySpec where
  /-- What may enter. -/
  ingress : List IngressRule
  /-- What may leave. -/
  egress : List EgressRule
  deriving DecidableEq, Repr, Inhabited

/-- The name of a policy within its namespace. -/
structure PolicyKey where
  /-- The namespace. -/
  space : String
  /-- The name. -/
  name : String
  deriving DecidableEq, Repr

namespace PolicyKey

/-- Namespaces first, then names. -/
instance : Ord PolicyKey := ⟨compareLex (compareOn (·.space)) (compareOn (·.name))⟩

instance : Std.TransOrd PolicyKey :=
  inferInstanceAs (Std.TransCmp (compareLex (compareOn PolicyKey.space) (compareOn PolicyKey.name)))

instance : Std.LawfulEqOrd PolicyKey where
  eq_of_compare {a b} h := by
    obtain ⟨h1, h2⟩ := Ordering.then_eq_eq.1 (show
      (compare a.space b.space).then (compare a.name b.name) = .eq from h)
    cases a; cases b
    simp_all [Std.LawfulEqCmp.compare_eq_iff_eq]

/-- The key in text: namespace and name with a slash between them. -/
def text (k : PolicyKey) : String := k.space ++ "/" ++ k.name

/-- The key that a text writes: it is cut at its first slash, and neither part may be empty. -/
def parse? (s : String) : Option PolicyKey :=
  match Text.splitOnce '/' s.toList with
  | some (space, name) =>
    if space.isEmpty || name.isEmpty then none
    else some ⟨String.ofList space, String.ofList name⟩
  | none => none

/-- The wording for a text that writes no key. -/
def invalidText (s : String) : String :=
  "invalid policy key '" ++ s ++ "', expected namespace/name"

end PolicyKey

/-- A named policy. -/
structure Policy where
  /-- The namespace. -/
  space : String
  /-- The name. -/
  name : String
  /-- What it allows. -/
  spec : PolicySpec
  deriving DecidableEq, Repr

namespace Policy

/-- The namespace that policies live in. -/
def home : String := "firewall"

/-- The policy of a name at home. -/
def named (name : String) (spec : PolicySpec) : Policy := ⟨home, name, spec⟩

/-- The key of a policy. -/
def key (p : Policy) : PolicyKey := ⟨p.space, p.name⟩

end Policy

end ClusterFirewall
