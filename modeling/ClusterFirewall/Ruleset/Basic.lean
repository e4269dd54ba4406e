import ClusterFirewall.Digest.Sha256
import ClusterFirewall.Resolution.Basic
import ClusterFirewall.Ruleset.Rule

/-!
# Rulesets

A ruleset is one table: the set of the cluster's prefixes, the named sets, the forward chain with
the chains for both directions, and the chain that changes source addresses. Its text is what is
loaded, and the digest of the text identifies it.
-/

namespace ClusterFirewall

/-- Everything that is loaded into the firewall. -/
structure Ruleset where
  /-- The lines for traffic that enters the cluster. -/
  ingress : List String
  /-- The lines for traffic that leaves the cluster. -/
  egress : List String
  /-- The lines of the rate limits. -/
  rateLimits : List String
  /-- The lines of the source addresses. -/
  snat : List String
  /-- The named sets. -/
  sets : List IpSet
  /-- The cluster's prefixes. -/
  internalPrefixes : List String
  /-- The routing table of the cluster's own network. -/
  privateVrf : UInt64
  deriving DecidableEq, Repr

namespace Ruleset

/-- A line of a block. -/
def indented (line : String) : String := "        " ++ line

/-- The line with a set's elements, unless it is empty. -/
def elementLines (members : List String) : List String :=
  if members.isEmpty then [] else [indented ("elements = " ++ setText members)]

/-- The lines of a named block and the empty line after it. -/
def block (header : String) (body : List String) : List String :=
  ["    " ++ header ++ " \x7b"] ++ body ++ ["    \x7d", ""]

/-- The lines of the set of the cluster's prefixes. -/
def prefixLines (r : Ruleset) : List String :=
  block ("set " ++ clusterPrefixes)
    ([indented "type ipv4_addr", indented "flags interval"] ++ elementLines r.internalPrefixes)

/-- The lines of a named set. -/
def setLines (s : IpSet) : List String :=
  block ("set " ++ s.name) (indented ("type " ++ s.family.text) :: elementLines s.members)

/-- The line that sends traffic of one direction to its chain. -/
def jumpLine (side : String) (vrf : UInt64) (chain comment : String) : String :=
  side ++ " \"vrf" ++ toString vrf.toNat ++ "\" jump " ++ chain ++ " comment \"" ++ comment ++ "\""

/-- The lines of the forward chain. -/
def forwardLines (r : Ruleset) : List String :=
  block "chain forward"
    ([indented "type filter hook forward priority 0; policy drop;"] ++ r.rateLimits.map indented ++
      [indented "ct state invalid drop comment \"drop invalid packets\"",
        indented "ct state established,related accept comment \"accept established connections\"",
        indented
          (jumpLine "iifname" r.privateVrf "forward_egress" "traffic leaving the cluster"),
        indented
          (jumpLine "oifname" r.privateVrf "forward_ingress" "traffic entering the cluster"),
        indented "counter comment \"count dropped packets\""])

/-- The lines of a chain of rules. -/
def chainLines (name : String) (rules : List String) : List String :=
  block ("chain " ++ name) (rules.map indented)

/-- The lines of the chain that changes source addresses, without an empty line after it. -/
def postroutingLines (r : Ruleset) : List String :=
  ["    chain postrouting \x7b",
    indented "type nat hook postrouting priority 100; policy accept;"] ++
    r.snat.map indented ++ ["    \x7d"]

/-- The lines of a ruleset. -/
def lines (r : Ruleset) : List String :=
  ["table inet firewall \x7b"] ++ r.prefixLines ++ r.sets.flatMap setLines ++ r.forwardLines ++
    chainLines "forward_ingress" r.ingress ++ chainLines "forward_egress" r.egress ++
    r.postroutingLines ++ ["\x7d"]

/-- The text of a ruleset. -/
def text (r : Ruleset) : String := String.join (r.lines.map (· ++ "\n"))

/-- The number of rules for traffic between the cluster and the outside. -/
def ruleCount (r : Ruleset) : Nat := r.ingress.length + r.egress.length

end Ruleset

/-- The digest that identifies the text of a ruleset. -/
def checksum (text : String) : String := Sha256.hex text

end ClusterFirewall
