import ClusterFirewall.Policy.Validation
import ClusterFirewall.Ruleset.Basic
import ClusterFirewall.Ruleset.FirewallRules
import ClusterFirewall.Ruleset.PolicyRules

/-!
# Building a ruleset

All policies are resolved through one pinned view of the resolver. The valid ones give rules; the
others are left out but keep the sets that they were resolved to. Whether a ruleset can be built
depends on the firewall alone.
-/

namespace ClusterFirewall

/-- A ruleset and the policies that it was built from. -/
structure Build where
  /-- The ruleset. -/
  ruleset : Ruleset
  /-- The valid policies, resolved. -/
  applied : List Policy
  /-- The policies left out, resolved. -/
  skipped : List Policy

/-- The names of the sets that the rules of policies refer to. -/
def referencedSets (policies : List Policy) : List String :=
  policies.flatMap fun p =>
    (p.spec.egress.filter fun e => e.destinations.isEmpty).flatMap fun e =>
      e.selectors.flatMap (·.sets)

/-- Puts a set before the first one whose name does not come before its own. -/
def insertByName (s : IpSet) : List IpSet → List IpSet
  | [] => [s]
  | t :: rest =>
    if (compare s.name t.name).isLE then s :: t :: rest else t :: insertByName s rest

/-- The sets in the order of their names. Sets of one name stay in their order. -/
def sortByName (sets : List IpSet) : List IpSet := sets.foldr insertByName []

/-- The sets of a ruleset in the order of their names: those of the resolver, of equal names the
first one, and an empty one for every other name that is referred to. -/
def declaredSets (rendering : List IpSet) (policies : List Policy) : List IpSet :=
  let missing := (sortUnique (referencedSets policies)).filter fun name =>
    !rendering.any (·.name == name)
  (sortByName (rendering ++ missing.map IpSet.empty)).eraseRepsBy fun s t => s.name == t.name

/-- The violation of a firewall without a network of the cluster's own. -/
def noPrivateNetwork : Violation :=
  ⟨"firewall.networks", "no primary private network with a VRF"⟩

/-- The ruleset of resolved policies, the valid ones marked. -/
def assemble (policies : List (Policy × Bool)) (rendering : List IpSet) (services : List Service)
    (firewall : FirewallSpec) (privateVrf : UInt64) (snat : List String) : Build :=
  let applied := (policies.filter (·.2)).map (·.1)
  let skipped := (policies.filter (!·.2)).map (·.1)
  { ruleset :=
      { ingress := sortUnique
          (applied.flatMap Policy.ingressLines ++ services.flatMap Service.ruleTexts)
        egress := sortUnique (applied.flatMap Policy.egressLines)
        rateLimits := firewall.rateLimitLines
        snat := snat
        sets := declaredSets rendering applied
        internalPrefixes := firewall.internalPrefixes
        privateVrf := privateVrf }
    applied := applied
    skipped := skipped }

/-- Resolves a policy and marks it as valid or not. -/
def resolveMarked {σ : Type} (r : Resolver σ) (p : Policy) (st : σ) : (Policy × Bool) × σ :=
  let (resolved, st) := p.resolve r st
  ((resolved, p.isValid), st)

/-- Builds the ruleset of policies, services and a firewall. -/
def build {σ : Type} (r : Resolver σ) (policies : List Policy) (services : List Service)
    (firewall : FirewallSpec) (st : σ) : Except Violation Build × σ :=
  match firewall.privateVrf? with
  | none => (.error noPrivateNetwork, st)
  | some privateVrf =>
    let (marked, view) := traverse (resolveMarked r.pinned) policies (st, Pins.none)
    let (rendering, view) := r.pinned.rendering view
    (firewall.snatLines.map (assemble marked rendering services firewall privateVrf), view.1)

end ClusterFirewall
