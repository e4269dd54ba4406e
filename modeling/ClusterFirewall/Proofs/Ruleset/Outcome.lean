import ClusterFirewall.Proofs.First
import ClusterFirewall.Proofs.Policy.WriteBack
import ClusterFirewall.Proofs.Ruleset.Contents

/-!
# When a ruleset can be built

A build stops at a network without a routing table: the cluster's own, or one that traffic is to
leave through. `FirewallSpec.FirstGap` says which violation that is, and nothing but the firewall
enters into it. An invalid policy is left out, but not lost.

Main statement: `build_outcome`.
-/

namespace ClusterFirewall

/-- The first network with a property has no routing table, or there is no network with it. -/
def FirewallSpec.Unrouted (f : FirewallSpec) (P : FirewallNetwork → Prop) : Prop :=
  ∀ n, IsFirst f.networks P n → n.vrf = none

/-- Traffic cannot leave through the network that the source addresses are for. Whether there are
any addresses does not matter. -/
def FirewallSpec.Detached (f : FirewallSpec) (s : EgressSnat) : Prop :=
  f.Unrouted (·.networkId = s.networkId)

/-- What keeps a firewall from having a ruleset. The cluster's own network is looked at before the
source addresses, and these in their order. -/
inductive FirewallSpec.FirstGap (f : FirewallSpec) : Violation → Prop where
  | privateNetwork (h : f.Unrouted (·.type = .privatePrimary)) :
      f.FirstGap ⟨"firewall.networks", "no primary private network with a VRF"⟩
  | sourceAddresses (hprivate : ¬ f.Unrouted (·.type = .privatePrimary)) {s : EgressSnat}
      (hs : IsFirst f.egressSnat f.Detached s) :
      f.FirstGap ⟨"firewall.egressSnat",
        "network " ++ s.networkId ++ " is not attached or has no VRF"⟩

/-- The build holds every policy, the valid ones apart from the others and each list in the order
of the policies. Only sets in rules without blocks may have changed. -/
structure Build.Partitions (b : Build) (policies : List Policy) : Prop where
  applied : b.applied.map Policy.withoutAnswers =
    (policies.filter fun p => p.violation?.isNone).map Policy.withoutAnswers
  skipped : b.skipped.map Policy.withoutAnswers =
    (policies.filter fun p => p.violation?.isSome).map Policy.withoutAnswers

/-! ## Networks without a routing table -/

namespace FirewallSpec

variable {f : FirewallSpec}

theorem unrouted_iff {P : FirewallNetwork → Prop} {p : FirewallNetwork → Bool}
    (h : ∀ n, p n ↔ P n) : f.Unrouted P ↔ (f.networks.find? p).bind (·.vrf) = none := by
  simp only [Unrouted, ← find?_eq_some_iff_isFirst h, Option.bind_eq_none_iff]

theorem privateVrf?_eq_none_iff :
    f.privateVrf? = none ↔ f.Unrouted (·.type = .privatePrimary) :=
  (unrouted_iff fun _ => beq_iff_eq).symm

theorem vrf?_eq_none_iff {s : EgressSnat} : f.vrf? s.networkId = none ↔ f.Detached s :=
  (unrouted_iff fun _ => beq_iff_eq).symm

/-- An entry whose network has a routing table is fine, with or without addresses, so that the rest
decides. -/
theorem snatLinesOf_cons_eq_error_iff {s : EgressSnat} {rest : List EgressSnat} {vrf : UInt64}
    (hvrf : f.vrf? s.networkId = some vrf) {v : Violation} :
    snatLinesOf f (s :: rest) = .error v ↔ snatLinesOf f rest = .error v := by
  simp only [snatLinesOf, hvrf]
  cases snatLinesOf f rest with
  | error w => exact Iff.rfl
  | ok lines => cases snatTarget? s.ips <;> simp [bind, Except.bind, pure, Except.pure]

/-- Source addresses are refused at the first entry whose network is detached. -/
theorem snatLinesOf_eq_error_iff {entries : List EgressSnat} {v : Violation} :
    snatLinesOf f entries = .error v ↔
      ∃ s, IsFirst entries f.Detached s ∧ v = detachedNetwork s.networkId := by
  induction entries with
  | nil => simp [snatLinesOf, IsFirst]
  | cons s rest ih =>
    simp only [isFirst_cons_iff]
    cases hvrf : f.vrf? s.networkId with
    | none =>
      have hs : f.Detached s := vrf?_eq_none_iff.1 hvrf
      simp [snatLinesOf, hvrf, hs, eq_comm]
    | some vrf =>
      have hs : ¬ f.Detached s := fun hs => by simp [vrf?_eq_none_iff.2 hs] at hvrf
      rw [snatLinesOf_cons_eq_error_iff hvrf, ih]
      simp [hs]

/-- There is something in the way if any of the networks has no routing table. -/
theorem exists_firstGap_iff : (∃ v, f.FirstGap v) ↔
    f.Unrouted (·.type = .privatePrimary) ∨ ∃ s ∈ f.egressSnat, f.Detached s := by
  constructor
  · rintro ⟨v, hprivate | ⟨hprivate, hs⟩⟩
    · exact .inl hprivate
    · exact .inr (exists_isFirst_iff.1 ⟨_, hs⟩)
  · intro h
    by_cases hprivate : f.Unrouted (·.type = .privatePrimary)
    · exact ⟨_, .privateNetwork hprivate⟩
    · obtain ⟨s, hs⟩ := exists_isFirst_iff.2 (h.resolve_left hprivate)
      exact ⟨_, .sourceAddresses hprivate hs⟩

end FirewallSpec

/-! ## Builds -/

section Builds

variable {σ τ : Type} {r : Resolver σ} {policies : List Policy} {services : List Service}
  {firewall : FirewallSpec} {st st' : σ} {b : Build}

/-- A build is stopped by the first gap of its firewall and by nothing else. -/
theorem build_eq_error_iff {v : Violation} :
    (build r policies services firewall st).1 = .error v ↔ firewall.FirstGap v := by
  unfold build
  cases hvrf : firewall.privateVrf? with
  | none =>
    have hprivate := FirewallSpec.privateVrf?_eq_none_iff.1 hvrf
    constructor
    · intro h
      obtain rfl := Except.error.inj h
      exact .privateNetwork hprivate
    · rintro (_ | ⟨hnot, -⟩)
      · rfl
      · exact absurd hprivate hnot
  | some vrf =>
    have hprivate : ¬ firewall.Unrouted (·.type = .privatePrimary) := fun h => by
      simp [FirewallSpec.privateVrf?_eq_none_iff.2 h] at hvrf
    -- What was made of the policies is there by now, and only the source addresses can fail.
    have hsnat : ∀ g : List String → Build,
        firewall.snatLines.map g = .error v ↔ firewall.snatLines = .error v := by
      intro g
      cases firewall.snatLines <;> simp [Except.map]
    show firewall.snatLines.map _ = .error v ↔ _
    rw [hsnat, FirewallSpec.snatLines, FirewallSpec.snatLinesOf_eq_error_iff]
    constructor
    · rintro ⟨s, hs, rfl⟩
      exact .sourceAddresses hprivate hs
    · rintro (h | ⟨-, hs⟩)
      · exact absurd h hprivate
      · exact ⟨_, hs, rfl⟩

/-- Builds for one firewall end alike, whatever else is different. -/
theorem build_outcome_congr (r : Resolver σ) (r' : Resolver τ) (ps qs : List Policy)
    (ss ts : List Service) (firewall : FirewallSpec) (st : σ) (st' : τ) :
    (build r ps ss firewall st).1.map (fun _ => ()) =
      (build r' qs ts firewall st').1.map fun _ => () := by
  have hsame : ∀ v, (build r ps ss firewall st).1 = .error v ↔
      (build r' qs ts firewall st').1 = .error v :=
    fun v => build_eq_error_iff.trans build_eq_error_iff.symm
  cases hleft : (build r ps ss firewall st).1 with
  | error v => rw [(hsame v).1 hleft]
  | ok b =>
    cases hright : (build r' qs ts firewall st').1 with
    | error v =>
      rw [(hsame v).2 hright] at hleft
      cases hleft
    | ok b' => rfl

theorem Policy.isValid_eq_isNone (p : Policy) : p.isValid = p.violation?.isNone := by
  rw [isValid, violation?]
  cases p.violations <;> rfl

theorem build_partitions (hb : build r policies services firewall st = (.ok b, st')) :
    b.Partitions policies := by
  obtain ⟨happlied, hskipped⟩ := map_policies_of_build
    (fun p view => p.withoutAnswers_resolve r.pinned view) hb
  simp only [Policy.isValid_eq_isNone, Option.not_isNone] at happlied hskipped
  exact ⟨happlied, hskipped⟩

namespace Build.Partitions

theorem keys (h : b.Partitions policies) :
    b.applied.map Policy.key =
        (policies.filter fun p => p.violation?.isNone).map Policy.key ∧
      b.skipped.map Policy.key =
        (policies.filter fun p => p.violation?.isSome).map Policy.key :=
  ⟨map_key_of_map_eq Policy.key_withoutAnswers h.applied,
    map_key_of_map_eq Policy.key_withoutAnswers h.skipped⟩

theorem length (h : b.Partitions policies) :
    b.applied.length + b.skipped.length = policies.length := by
  have happlied := congrArg List.length h.applied
  have hskipped := congrArg List.length h.skipped
  simp only [List.length_map] at happlied hskipped
  have hall := List.length_eq_length_filter_add (l := policies) fun p => p.violation?.isNone
  simp only [Option.not_isNone] at hall
  rw [happlied, hskipped, hall]

end Build.Partitions

/-- Whether a ruleset is built, and what is reported if it is not, depends on the firewall alone:
no policy, no service and no answer can stop a build. A build that succeeds holds every policy, in
force or left out by what its check says. -/
theorem build_outcome (r : Resolver σ) (policies : List Policy) (services : List Service)
    (firewall : FirewallSpec) (st : σ) :
    let outcome := (build r policies services firewall st).1
    (∀ v, outcome = .error v ↔ firewall.FirstGap v) ∧
      ((∃ v, outcome = .error v) ↔ firewall.Unrouted (·.type = .privatePrimary) ∨
        ∃ s ∈ firewall.egressSnat, firewall.Unrouted (·.networkId = s.networkId)) ∧
      (∀ (τ : Type) (r' : Resolver τ) (policies' : List Policy) (services' : List Service)
        (st' : τ), (build r' policies' services' firewall st').1.map (fun _ => ()) =
          outcome.map fun _ => ()) ∧
      ∀ b, outcome = .ok b →
        b.Partitions policies ∧
        b.applied.map Policy.key =
          (policies.filter fun p => p.violation?.isNone).map Policy.key ∧
        b.skipped.map Policy.key =
          (policies.filter fun p => p.violation?.isSome).map Policy.key ∧
        b.applied.length + b.skipped.length = policies.length := by
  intro outcome
  have herror : ∀ v, outcome = .error v ↔ firewall.FirstGap v := fun v => build_eq_error_iff
  refine ⟨herror, (exists_congr herror).trans FirewallSpec.exists_firstGap_iff,
    fun τ r' policies' services' st' => build_outcome_congr r' r _ _ _ _ firewall st' st, ?_⟩
  intro b hb
  have hpartitions : b.Partitions policies := build_partitions (Prod.ext hb rfl)
  exact ⟨hpartitions, hpartitions.keys.1, hpartitions.keys.2, hpartitions.length⟩

/-- An invalid policy is left out of a build. A network that is there twice, first without a
routing table, stops it, although there are no source addresses for it. -/
theorem build_outcome_of_detached :
    let r : Resolver Nat := ⟨fun _ _ n => (["gen" ++ toString n], n + 1), fun n => ([], n)⟩
    let stale : List EgressRule :=
      [⟨[], [⟨"example.com", "", ["stale"]⟩], [.single .tcp 443]⟩]
    let policies : List Policy :=
      [.named "dns" ⟨[], stale⟩, .named "" ⟨[], stale⟩, .named "web" ⟨[], []⟩]
    let networks : List FirewallNetwork := [⟨"tenant", .privatePrimary, some 42, []⟩,
      ⟨"internet", .external, none, []⟩, ⟨"internet", .external, some 104, []⟩]
    let detached : FirewallSpec := ⟨[], networks, [],
      [⟨"tenant", ["192.0.2.1"]⟩, ⟨"internet", []⟩, ⟨"nowhere", ["192.0.2.2"]⟩]⟩
    detached.FirstGap (detachedNetwork "internet") ∧
      ∃ b, (build r policies [] ⟨[], networks, [], []⟩ 0).1 = .ok b ∧
        b.applied.map Policy.key = [⟨"firewall", "dns"⟩, ⟨"firewall", "web"⟩] ∧
        b.skipped.map Policy.key = [⟨"firewall", ""⟩] ∧
        b.Partitions policies ∧ b.applied.length + b.skipped.length = policies.length := by
  intro r stale policies networks detached
  have hgap := ((build_outcome r policies [] detached 0).1 (detachedNetwork "internet")).1 rfl
  obtain ⟨b, hb⟩ : ∃ b, (build r policies [] ⟨[], networks, [], []⟩ 0).1 = .ok b := ⟨_, rfl⟩
  obtain ⟨hpartitions, happlied, hskipped, hlength⟩ :=
    (build_outcome r policies [] ⟨[], networks, [], []⟩ 0).2.2.2 b hb
  exact ⟨hgap, b, hb, happlied.trans (by decide +kernel), hskipped.trans (by decide +kernel),
    hpartitions, hlength⟩

end Builds

end ClusterFirewall
