import ClusterFirewall.Proofs.Drift.Soundness
import ClusterFirewall.Proofs.Ruleset.DeclaredSets
import ClusterFirewall.Proofs.Ruleset.Generation

/-!
# What a ruleset depends on

With a resolver that is settled, a ruleset depends on the valid policies and on the services as
sets. Their order and repetition do not matter, because all lines are sorted, and neither does any
invalid policy, although it is resolved through the same view as the others.

Main statement: `ruleset_congr`, two builds with the same valid policies and the same services have
the same outcome.
-/

namespace ClusterFirewall

theorem pairwise_lt_sortUnique (lines : List String) :
    (sortUnique lines).Pairwise (· < ·) :=
  (sortUnique_pairwise lines).imp fun h => compareOfLessAndEq_eq_lt.mp h

/-! ## Assembly -/

section Assembly

variable {ps qs : List Policy} {ss ts : List Service}

theorem mem_referencedSets {policies : List Policy} {name : String} :
    name ∈ referencedSets policies ↔
      ∃ p ∈ policies, ∃ s ∈ p.spec.resolvedSelectors, name ∈ s.sets := by
  simp only [referencedSets, List.mem_flatMap, List.mem_filter,
    PolicySpec.mem_resolvedSelectors]
  constructor
  · rintro ⟨p, hp, e, ⟨he, hempty⟩, s, hs, hname⟩
    exact ⟨p, hp, s, ⟨e, he, hempty, hs⟩, hname⟩
  · rintro ⟨p, hp, s, ⟨e, he, hempty, hs⟩, hname⟩
    exact ⟨p, hp, e, ⟨he, hempty⟩, s, hs, hname⟩

/-- Policies in force and services that are the same as sets make the same ruleset. -/
theorem ruleset_assemble_congr {marked marked' : List (Policy × Bool)}
    (hmarked : ∀ q, (q, true) ∈ marked ↔ (q, true) ∈ marked') (hservices : ∀ s, s ∈ ss ↔ s ∈ ts)
    (sets : List IpSet) (firewall : FirewallSpec) (vrf : UInt64) (snat : List String) :
    (assemble marked sets ss firewall vrf snat).ruleset =
      (assemble marked' sets ts firewall vrf snat).ruleset := by
  have happlied : ∀ q, q ∈ (marked.filter (·.2)).map (·.1) ↔
      q ∈ (marked'.filter (·.2)).map (·.1) := by
    intro q
    simpa using hmarked q
  unfold assemble
  generalize (marked.filter (·.2)).map (·.1) = applied at happlied
  generalize (marked'.filter (·.2)).map (·.1) = applied' at happlied
  have hingress : sortUnique (applied.flatMap Policy.ingressLines ++ ss.flatMap Service.ruleTexts) =
      sortUnique (applied'.flatMap Policy.ingressLines ++ ts.flatMap Service.ruleTexts) := by
    apply sortUnique_congr
    intro line
    simp only [List.mem_append, List.mem_flatMap, happlied, hservices]
  have hegress : sortUnique (applied.flatMap Policy.egressLines) =
      sortUnique (applied'.flatMap Policy.egressLines) := by
    apply sortUnique_congr
    intro line
    simp only [List.mem_flatMap, happlied]
  have hsets : declaredSets sets applied = declaredSets sets applied' := by
    apply declaredSets_congr
    intro name
    simp only [mem_referencedSets, happlied]
  simp only [hingress, hegress, hsets]

end Assembly

/-! ## Builds -/

section Builds

variable {σ : Type} {r : Resolver σ} {answers : SelectorKey → List String} {sets : List IpSet}
  {st : σ} {firewall : FirewallSpec}

/-- The lines of a ruleset are those that its valid policies compile to and those of its
services. -/
theorem mem_lines_iff (hr : r.Settled answers sets st) {policies : List Policy}
    {services : List Service} {b : Build}
    (hb : (build r policies services firewall st).1 = .ok b) (line : String) :
    (line ∈ b.ruleset.ingress ↔
        (∃ p ∈ policies, p.isValid ∧ line ∈ (p.compile r st).1.ingress) ∨
          ∃ s ∈ services, line ∈ s.ruleTexts) ∧
      (line ∈ b.ruleset.egress ↔
        ∃ p ∈ policies, p.isValid ∧ line ∈ (p.compile r st).1.egress) := by
  have hok : build r policies services firewall st =
      (.ok b, (build r policies services firewall st).2) := Prod.ext hb rfl
  have hof := build_of hok
  obtain ⟨happlied, -, -⟩ := build_of_steady hr.steady hok
  have hmem : ∀ q, q ∈ b.applied ↔ ∃ p ∈ policies, p.isValid ∧ q = p.resolveBy answers := by
    intro q
    rw [happlied]
    simp only [List.mem_map, List.mem_filter, and_assoc, eq_comm]
  -- What a policy compiles to is what it gives with the answers of the resolver.
  have hcompile : ∀ p : Policy, (p.compile r st).1.ingress = p.ingressLines ∧
      (p.compile r st).1.egress = (p.resolveBy answers).egressLines := by
    intro p
    rw [hr.steady.compile_eq p .refl]
    exact ⟨rfl, rfl⟩
  rw [hof.ingress, hof.egress]
  simp only [hmem, hcompile]
  constructor
  · refine or_congr_left ?_
    constructor
    · rintro ⟨q, ⟨p, hp, hv, rfl⟩, hline⟩
      rw [Policy.ingressLines_of_withoutSets (p.withoutSets_resolveBy answers)] at hline
      exact ⟨p, hp, hv, hline⟩
    · rintro ⟨p, hp, hv, hline⟩
      rw [← Policy.ingressLines_of_withoutSets (p.withoutSets_resolveBy answers)] at hline
      exact ⟨_, ⟨p, hp, hv, rfl⟩, hline⟩
  · constructor
    · rintro ⟨q, ⟨p, hp, hv, rfl⟩, hline⟩
      exact ⟨p, hp, hv, hline⟩
    · rintro ⟨p, hp, hv, hline⟩
      exact ⟨_, ⟨p, hp, hv, rfl⟩, hline⟩

/-- Inputs with the same valid policies and the same services have the same outcome: the same
violation or the same ruleset, down to its text. The lines are those of the valid policies and of
the services, in strictly increasing order. -/
theorem ruleset_congr (hr : r.Settled answers sets st) {ps qs : List Policy}
    {ss ts : List Service} (hpolicies : ∀ p, p.isValid → (p ∈ ps ↔ p ∈ qs))
    (hservices : ∀ s, s ∈ ss ↔ s ∈ ts) (firewall : FirewallSpec) :
    (build r ps ss firewall st).1.map (fun b => (b.ruleset, b.ruleset.text)) =
        (build r qs ts firewall st).1.map (fun b => (b.ruleset, b.ruleset.text)) ∧
      ∀ b, (build r ps ss firewall st).1 = .ok b →
        (∀ line, line ∈ b.ruleset.ingress ↔
          (∃ p ∈ ps, p.isValid ∧ line ∈ (p.compile r st).1.ingress) ∨
            ∃ s ∈ ss, line ∈ s.ruleTexts) ∧
        (∀ line, line ∈ b.ruleset.egress ↔
          ∃ p ∈ ps, p.isValid ∧ line ∈ (p.compile r st).1.egress) ∧
        b.ruleset.ingress.Pairwise (· < ·) ∧ b.ruleset.egress.Pairwise (· < ·) := by
  constructor
  · rw [hr.build_eq ps ss firewall, hr.build_eq qs ts firewall]
    unfold buildBy
    cases firewall.privateVrf? with
    | none => rfl
    | some vrf =>
      cases firewall.snatLines with
      | error v => rfl
      | ok snat =>
        -- A policy is marked as valid by what it was before it was resolved.
        have hmarked : ∀ q, (q, true) ∈ ps.map (fun p => (p.resolveBy answers, p.isValid)) ↔
            (q, true) ∈ qs.map (fun p => (p.resolveBy answers, p.isValid)) := by
          intro q
          simp only [List.mem_map, Prod.mk.injEq]
          constructor
          · rintro ⟨p, hp, hq, hv⟩
            exact ⟨p, (hpolicies p hv).1 hp, hq, hv⟩
          · rintro ⟨p, hp, hq, hv⟩
            exact ⟨p, (hpolicies p hv).2 hp, hq, hv⟩
        have hruleset := ruleset_assemble_congr hmarked hservices sets firewall vrf snat
        simp only [Except.map, hruleset]
  · intro b hb
    have hok : build r ps ss firewall st = (.ok b, (build r ps ss firewall st).2) :=
      Prod.ext hb rfl
    obtain ⟨hingress, hegress⟩ := lines_of_build hok
    refine ⟨fun line => (mem_lines_iff hr hb line).1, fun line => (mem_lines_iff hr hb line).2,
      ?_, ?_⟩
    · rw [hingress]
      exact pairwise_lt_sortUnique _
    · rw [hegress]
      exact pairwise_lt_sortUnique _

/-- Policies in another order, one of them twice, an invalid one left out, and a service twice. -/
theorem ruleset_congr_of_shuffled :
    let web : Policy := .named "web" ⟨[⟨[⟨"10.0.0.0/8", []⟩], [.single .tcp 443]⟩], []⟩
    let dns : Policy := .named "dns" ⟨[], [⟨[], [.ofName "example.com"], [.single .udp 53]⟩]⟩
    let broken : Policy := .named "broken"
      ⟨[⟨[⟨"nowhere", []⟩], []⟩], [⟨[], [.ofPattern "*.org"], [.single .tcp 80]⟩]⟩
    let shop : Service :=
      ⟨"default", "shop", .loadBalancer, ["192.0.2.1"], [], [⟨none, 80⟩]⟩
    let firewall : FirewallSpec :=
      ⟨["10.0.0.0/22"], [⟨"tenant", .privatePrimary, some 42, []⟩], [], []⟩
    let c := ResolutionCache.empty.update ⟨"example.com", ""⟩ [⟨"example", .ipv4, ["192.0.2.7"]⟩]
    ∃ b b', (build ResolutionCache.resolver [web, broken, dns] [shop] firewall c).1 = .ok b ∧
      (build ResolutionCache.resolver [dns, web, dns] [shop, shop] firewall c).1 = .ok b' ∧
      b.skipped.length = 1 ∧ b'.skipped.length = 0 ∧ b.ruleset.ingress.length = 2 ∧
      b.ruleset = b'.ruleset ∧ b.ruleset.text = b'.ruleset.text := by
  intro web dns broken shop firewall c
  have hpolicies : ∀ p : Policy, p.isValid → (p ∈ [web, broken, dns] ↔ p ∈ [dns, web, dns]) := by
    intro p hv
    simp only [List.mem_cons, List.not_mem_nil, or_false]
    constructor
    · rintro (rfl | rfl | rfl)
      · exact .inr (.inl rfl)
      · exact absurd hv (by decide +kernel)
      · exact .inl rfl
    · rintro (rfl | rfl | rfl)
      · exact .inr (.inr rfl)
      · exact .inl rfl
      · exact .inr (.inr rfl)
  have hservices : ∀ s, s ∈ [shop] ↔ s ∈ [shop, shop] := by simp
  have hcongr := (ruleset_congr c.resolver_settled hpolicies hservices firewall).1
  obtain ⟨b, hb⟩ : ∃ b, (build ResolutionCache.resolver [web, broken, dns] [shop] firewall c).1 =
      .ok b := ⟨_, rfl⟩
  obtain ⟨b', hb'⟩ : ∃ b, (build ResolutionCache.resolver [dns, web, dns] [shop, shop] firewall
      c).1 = .ok b := ⟨_, rfl⟩
  have hskipped : b.skipped.length = 1 ∧ b.ruleset.ingress.length = 2 := by
    obtain rfl := Except.ok.inj hb
    decide +kernel
  have hskipped' : b'.skipped.length = 0 := by
    obtain rfl := Except.ok.inj hb'
    decide +kernel
  rw [hb, hb'] at hcongr
  obtain ⟨hruleset, htext⟩ := Prod.mk.inj (Except.ok.inj hcongr)
  exact ⟨b, b', hb, hb', hskipped.1, hskipped', hskipped.2, hruleset, htext⟩

end Builds

end ClusterFirewall
