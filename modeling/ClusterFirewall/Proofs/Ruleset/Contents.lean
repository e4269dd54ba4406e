import ClusterFirewall.Proofs.Policy.Sets
import ClusterFirewall.Ruleset.Build

/-!
# What a built ruleset holds

A build resolves every policy through one pinned view, the valid and the invalid ones alike, and
takes its lines from the valid ones and from the services. `Build.Of` says so of a build and the
cluster that it was built from, for any resolver; `build_of_steady` says in addition which sets the
policies carry if the resolver is steady.
-/

namespace ClusterFirewall

/-- All policies of a build, those in force first. -/
def Build.policies (b : Build) : List Policy := b.applied ++ b.skipped

/-- The build holds the policies of a cluster, and its chains hold what they and the services
give. -/
structure Build.Of (b : Build) (cluster : ClusterState) : Prop where
  applied : b.applied.map Policy.withoutSets =
    (cluster.policies.filter fun p => p.isValid).map Policy.withoutSets
  skipped : b.skipped.map Policy.withoutSets =
    (cluster.policies.filter fun p => !p.isValid).map Policy.withoutSets
  ingress : ∀ line, line ∈ b.ruleset.ingress ↔
    (∃ q ∈ b.applied, line ∈ q.ingressLines) ∨ ∃ s ∈ cluster.services, line ∈ s.ruleTexts
  egress : ∀ line, line ∈ b.ruleset.egress ↔ ∃ q ∈ b.applied, line ∈ q.egressLines

/-! ## Assembly -/

/-- Sifting marked results by their marks is sifting the elements that they come from. -/
private theorem map_sift {α β γ : Type} {h : β → γ} {g : α → γ} {f : α → Bool}
    (keep : Bool → Bool) {xs : List α} {ys : List (β × Bool)}
    (hys : ys.map (fun y => (h y.1, y.2)) = xs.map fun x => (g x, f x)) :
    ((ys.filter fun y => keep y.2).map (·.1)).map h = (xs.filter fun x => keep (f x)).map g := by
  have hsift := congrArg (fun l => (l.filter fun m => keep m.2).map (·.1)) hys
  simpa only [List.filter_map, List.map_map, Function.comp_def] using hsift

theorem mem_ingress_assemble {marked : List (Policy × Bool)} {rendering : List IpSet}
    {services : List Service} {firewall : FirewallSpec} {vrf : UInt64} {snat : List String}
    (line : String) :
    let b := assemble marked rendering services firewall vrf snat
    line ∈ b.ruleset.ingress ↔
      (∃ q ∈ b.applied, line ∈ q.ingressLines) ∨ ∃ s ∈ services, line ∈ s.ruleTexts := by
  intro b
  rw [← List.mem_flatMap, ← List.mem_flatMap, ← List.mem_append]
  exact mem_sortUnique

theorem mem_egress_assemble {marked : List (Policy × Bool)} {rendering : List IpSet}
    {services : List Service} {firewall : FirewallSpec} {vrf : UInt64} {snat : List String}
    (line : String) :
    let b := assemble marked rendering services firewall vrf snat
    line ∈ b.ruleset.egress ↔ ∃ q ∈ b.applied, line ∈ q.egressLines := by
  intro b
  rw [← List.mem_flatMap]
  exact mem_sortUnique

/-! ## Source addresses -/

/-- An entry whose network has a routing table gives at most one line, in front of what the rest
gives. -/
theorem exists_of_snatLinesOf_cons {f : FirewallSpec} {s : EgressSnat} {rest : List EgressSnat}
    {lines : List String} (h : snatLinesOf f (s :: rest) = .ok lines) :
    ∃ vrf more, f.vrf? s.networkId = some vrf ∧ snatLinesOf f rest = .ok more ∧
      lines = (snatTarget? s.ips).toList.map (snatLine vrf · s.networkId) ++ more := by
  unfold snatLinesOf at h
  split at h
  · cases h
  · rename_i vrf hvrf
    cases hrest : snatLinesOf f rest with
    | error v => simp [hrest, bind, Except.bind] at h
    | ok more =>
      refine ⟨vrf, more, hvrf, rfl, ?_⟩
      cases htarget : snatTarget? s.ips with
      | none => simpa [hrest, htarget, bind, Except.bind, pure, Except.pure, eq_comm] using h
      | some target =>
        simpa [hrest, htarget, bind, Except.bind, pure, Except.pure, eq_comm] using h

/-! ## Builds -/

section Builds

variable {σ : Type} {r : Resolver σ} {policies : List Policy} {services : List Service}
  {firewall : FirewallSpec} {st st' : σ} {b : Build}

/-- A build that succeeds is the assembly of the policies as the pinned view resolves them, one
after the other, with whatever sets are to be declared. -/
theorem build_eq_ok (hb : build r policies services firewall st = (.ok b, st')) :
    ∃ rendering vrf snat,
      b = assemble (traverse (resolveMarked r.pinned) policies (st, Pins.none)).1 rendering
        services firewall vrf snat ∧
      st' = (r.pinned.rendering
        (traverse (resolveMarked r.pinned) policies (st, Pins.none)).2).2.1 := by
  unfold build at hb
  cases hvrf : firewall.privateVrf? with
  | none => simp [hvrf] at hb
  | some vrf =>
    simp only [hvrf, Prod.mk.injEq] at hb
    obtain ⟨hok, hst⟩ := hb
    cases hsnat : firewall.snatLines with
    | error v => simp [hsnat, Except.map] at hok
    | ok snat =>
      rw [hsnat] at hok
      exact ⟨_, vrf, snat, (Except.ok.inj hok).symm, hst.symm⟩

/-- Whether a ruleset can be built depends on the firewall alone, not on the resolver. -/
theorem build_succeeds {τ : Type} (hb : build r policies services firewall st = (.ok b, st'))
    (r' : Resolver τ) (st₁ : τ) :
    ∃ b', (build r' policies services firewall st₁).1 = .ok b' := by
  unfold build at hb ⊢
  cases hvrf : firewall.privateVrf? with
  | none => simp [hvrf] at hb
  | some vrf =>
    cases hsnat : firewall.snatLines with
    | error v => simp [hvrf, hsnat, Except.map] at hb
    | ok snat => exact ⟨_, rfl⟩

/-- The chains of a ruleset are the sorted lines of the policies in force and of the services. -/
theorem lines_of_build (hb : build r policies services firewall st = (.ok b, st')) :
    b.ruleset.ingress = sortUnique
        (b.applied.flatMap Policy.ingressLines ++ services.flatMap Service.ruleTexts) ∧
      b.ruleset.egress = sortUnique (b.applied.flatMap Policy.egressLines) := by
  obtain ⟨rendering, vrf, snat, rfl, -⟩ := build_eq_ok hb
  exact ⟨rfl, rfl⟩

theorem rateLimits_of_build (hb : build r policies services firewall st = (.ok b, st')) :
    b.ruleset.rateLimits = firewall.rateLimitLines := by
  obtain ⟨rendering, vrf, snat, rfl, -⟩ := build_eq_ok hb
  rfl

/-- Whatever resolution leaves alone in a policy is the same for the policies of a build as for
those that it was built from, in their order, the valid ones apart from the others. -/
theorem map_policies_of_build {γ : Type} {h : Policy → γ}
    (hres : ∀ p view, h (p.resolve r.pinned view).1 = h p)
    (hb : build r policies services firewall st = (.ok b, st')) :
    b.applied.map h = (policies.filter fun p => p.isValid).map h ∧
      b.skipped.map h = (policies.filter fun p => !p.isValid).map h := by
  obtain ⟨rendering, vrf, snat, rfl, -⟩ := build_eq_ok hb
  -- A policy is marked by what it was before it was resolved.
  have hmarked := map_traverse (f := resolveMarked r.pinned) (h := fun m => (h m.1, m.2))
    (g := fun p => (h p, p.isValid)) (fun p view => congrArg (·, p.isValid) (hres p view))
    policies (st, Pins.none)
  exact ⟨map_sift id hmarked, map_sift (!·) hmarked⟩

/-- Every ruleset that is built from a cluster holds what the cluster's policies and services give,
whatever the resolver answers in the meantime. -/
theorem build_of (hb : build r policies services firewall st = (.ok b, st')) :
    b.Of ⟨policies, services, firewall⟩ := by
  obtain ⟨happlied, hskipped⟩ := map_policies_of_build
    (fun p view => p.withoutSets_resolve r.pinned view) hb
  obtain ⟨rendering, vrf, snat, rfl, -⟩ := build_eq_ok hb
  exact ⟨happlied, hskipped, mem_ingress_assemble, mem_egress_assemble⟩

/-- With a steady resolver every policy carries the answers of its selectors' keys, and the
resolver only comes to states that it comes to by being asked. -/
theorem build_of_steady {answers : SelectorKey → List String} (h : r.Steady answers st)
    (hb : build r policies services firewall st = (.ok b, st')) :
    b.applied = (policies.filter fun p => p.isValid).map (·.resolveBy answers) ∧
      b.skipped = (policies.filter fun p => !p.isValid).map (·.resolveBy answers) ∧
        r.Reaches st st' := by
  obtain ⟨rendering, vrf, snat, rfl, rfl⟩ := build_eq_ok hb
  obtain ⟨hmarked, hview⟩ := map_traverse_of_invariant (f := resolveMarked r.pinned)
    (h := fun m => (id m.1, m.2)) (g := fun p => (p.resolveBy answers, p.isValid))
    (I := r.pinned.Reaches (st, Pins.none))
    (fun p view hview => ⟨congrArg (·, p.isValid) (h.pinned.resolve_eq p hview).1,
      (h.pinned.resolve_eq p hview).2⟩)
    policies (st, Pins.none) .refl
  refine ⟨?_, ?_, (h.pinned_reaches hview.rendering).1⟩
  · exact (List.map_id _).symm.trans (map_sift id hmarked)
  · exact (List.map_id _).symm.trans (map_sift (!·) hmarked)

end Builds

/-! ## The policies of a build -/

/-- Lists of policies that become the same by something that keeps keys have the same keys. -/
theorem map_key_of_map_eq {h : Policy → Policy} (hkey : ∀ p, (h p).key = p.key)
    {ps qs : List Policy} (heq : ps.map h = qs.map h) :
    ps.map Policy.key = qs.map Policy.key := by
  simpa only [List.map_map, Function.comp_def, hkey] using congrArg (List.map Policy.key) heq

namespace Build.Of

variable {b : Build} {cluster : ClusterState}

/-- Every valid policy of the cluster is in force, but for its sets. -/
theorem exists_mem_applied (h : b.Of cluster) {p : Policy} (hp : p ∈ cluster.policies)
    (hv : p.isValid) : ∃ q ∈ b.applied, q.withoutSets = p.withoutSets := by
  have hmem : p.withoutSets ∈ b.applied.map Policy.withoutSets := by
    rw [h.applied]
    exact List.mem_map_of_mem (List.mem_filter.2 ⟨hp, hv⟩)
  exact List.mem_map.1 hmem

/-- Every policy in force is a valid policy of the cluster, but for its sets. -/
theorem of_mem_applied (h : b.Of cluster) {q : Policy} (hq : q ∈ b.applied) :
    q.isValid ∧ ∃ p ∈ cluster.policies, p.withoutSets = q.withoutSets := by
  have hmem : q.withoutSets ∈ b.applied.map Policy.withoutSets := List.mem_map_of_mem hq
  rw [h.applied] at hmem
  obtain ⟨p, hp, hw⟩ := List.mem_map.1 hmem
  obtain ⟨hpolicy, hv⟩ := List.mem_filter.1 hp
  exact ⟨(Policy.eq_of_withoutSets hw).2 ▸ hv, p, hpolicy, hw⟩

/-- No valid policy is left out. -/
theorem mem_applied_of_isValid (h : b.Of cluster) {q : Policy} (hq : q ∈ b.policies)
    (hv : q.isValid) : q ∈ b.applied := by
  rcases List.mem_append.1 hq with hq | hq
  · exact hq
  · -- A policy that was left out is invalid without its sets, and so it is with them.
    have hmem : q.withoutSets ∈ b.skipped.map Policy.withoutSets := List.mem_map_of_mem hq
    rw [h.skipped] at hmem
    obtain ⟨p, hp, hw⟩ := List.mem_map.1 hmem
    have hinvalid := (List.mem_filter.1 hp).2
    rw [(Policy.eq_of_withoutSets hw).2, hv] at hinvalid
    exact absurd hinvalid (by decide)

/-- The keys of a build are those of the cluster, in another order. -/
theorem keys_perm (h : b.Of cluster) :
    (b.policies.map Policy.key).Perm (cluster.policies.map Policy.key) := by
  rw [Build.policies, List.map_append, map_key_of_map_eq Policy.key_withoutSets h.applied,
    map_key_of_map_eq Policy.key_withoutSets h.skipped, ← List.map_append]
  exact (List.filter_append_perm _ _).map _

end Build.Of

end ClusterFirewall
