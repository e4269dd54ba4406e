import ClusterFirewall.Proofs.Controller.History
import ClusterFirewall.Proofs.Drift.Soundness
import ClusterFirewall.Proofs.Resolution.Disturbance

/-!
# Building while the cache is written to

A reconciliation asks the cache many times, and the cache may be written to before every question.
What a build was told is recorded with its policies, so that the next reconciliation compares it
with what the cache says then. Main statement: `built_eq_rebuilt_of_upToDate`, if the next
reconciliation finds nothing to do, then the ruleset holds the lines that it would hold if it were
built from the cache as it is now.
-/

namespace ClusterFirewall

/-! ## Policies that carry the present answers -/

section Lines

variable {σ τ : Type} {r : Resolver σ} {r' : Resolver τ} {policies : List Policy}
  {services : List Service} {firewall : FirewallSpec} {st st' : σ} {st₁ st₁' : τ} {b b' : Build}
  {answers : SelectorKey → List String}

theorem Policy.withoutSets_withoutSets (p : Policy) :
    p.withoutSets.withoutSets = p.withoutSets := by
  have hrule : ∀ e : EgressRule, e.withoutSets.withoutSets = e.withoutSets := by
    intro e
    simp only [EgressRule.withoutSets, List.map_map, Function.comp_def]
  simp only [withoutSets, PolicySpec.withoutSets, List.map_map, Function.comp_def, hrule]

/-- A build whose policies carry the present answers, however they came by them, has the chains of
a new build. -/
theorem lines_eq_rebuilt (hb : build r policies services firewall st = (.ok b, st'))
    (hcurrent : ∀ q ∈ b.applied, q.spec.Current answers) (hsteady : r'.Steady answers st₁)
    (hb' : build r' policies services firewall st₁ = (.ok b', st₁')) :
    b.ruleset.ingress = b'.ruleset.ingress ∧ b.ruleset.egress = b'.ruleset.egress := by
  have hsame : b.applied.map Policy.withoutSets =
      (policies.filter fun p => p.isValid).map Policy.withoutSets := (build_of hb).applied
  obtain ⟨hnew, -, -⟩ := build_of_steady hsteady hb'
  -- Both builds have the same policies but for the sets, and neither kind of lines depends on the
  -- sets that a policy carries: not at all, or because these are the present answers.
  have hingress : b.applied.map Policy.ingressLines = b'.applied.map Policy.ingressLines := by
    have hin := congrArg (List.map Policy.ingressLines) hsame
    rw [List.map_map, List.map_map] at hin
    rw [hnew, List.map_map]
    exact hin
  have hegress : b.applied.map Policy.egressLines = b'.applied.map Policy.egressLines := by
    have hout := congrArg (List.map fun p => (p.resolveBy answers).egressLines) hsame
    simp only [List.map_map, Function.comp_def, fun p : Policy =>
      Policy.egressLines_resolveBy_of_withoutSets answers p.withoutSets_withoutSets] at hout
    rw [hnew, List.map_map]
    calc b.applied.map Policy.egressLines
        = b.applied.map fun q => (q.resolveBy answers).egressLines :=
          List.map_congr_left fun q hq => (Policy.egressLines_resolveBy (hcurrent q hq)).symm
      _ = (policies.filter fun p => p.isValid).map fun p => (p.resolveBy answers).egressLines :=
        hout
  obtain ⟨hin, hout⟩ := lines_of_build hb
  obtain ⟨hin', hout'⟩ := lines_of_build hb'
  simp only [hin, hin', hout, hout', List.flatMap_def, hingress, hegress, and_self]

end Lines

/-! ## The next reconciliation -/

namespace Controller

variable {σ α : Type}

/-- A reconciliation that finds nothing to do found no drift. -/
theorem no_drift_of_reconcile (c : Controller σ α) {now : Instant} {cluster : ClusterState}
    {s : ControllerState σ α} (hup : (c.reconcile now (.ok cluster) s).1 = .upToDate) :
    (detect c.resolver cluster.policies s.store s.resolver).1 = none :=
  c.no_drift_of_upToDate (t := ⟨now, .ok cluster, s.disk, s.resolver, s.applier⟩) rfl hup

/-- If a ruleset is accepted while the cache is written to, and the next reconciliation finds
nothing to do now that the cache is at rest, then the ruleset has the chains of one that is built
from the cache at rest. -/
theorem built_eq_rebuilt_of_upToDate (c : Controller DisturbedCache α)
    (hcache : c.resolver = DisturbedCache.resolver) (cluster : ClusterState)
    (hdistinct : cluster.keys.Nodup) (now : Instant) (s : ControllerState DisturbedCache α)
    (hsuccess : (c.reconcile now (.ok cluster) s).1.isSuccess) (now' : Instant)
    (s' : ControllerState DisturbedCache α)
    (hstore : s'.store = (c.reconcile now (.ok cluster) s).2.store)
    (hrest : s'.resolver.AtRest) (hup : (c.reconcile now' (.ok cluster) s').1 = .upToDate) :
    ∃ p b, (c.begin now (.ok cluster) s).1 = .pending p ∧
      (build ResolutionCache.resolver cluster.policies cluster.services cluster.firewall
        s'.resolver.cache).1 = .ok b ∧
      p.build.ruleset.ingress = b.ruleset.ingress ∧
        p.build.ruleset.egress = b.ruleset.egress := by
  obtain ⟨p, -, st, hbegin, -, hb, hrecorded⟩ := c.pending_of_isSuccess hsuccess
  have hbuilt : p.build.Of cluster := build_of hb
  have hkeys : (p.build.policies.map Policy.key).Nodup :=
    hbuilt.keys_perm.nodup_iff.2 hdistinct
  -- Every policy in force was recorded with the answers that its lines were made from, and the
  -- next reconciliation found these answers to be the present ones.
  have hsteady : c.resolver.Steady s'.resolver.cache.known s'.resolver := by
    rw [hcache]
    exact DisturbedCache.steady_of_atRest hrest
  obtain ⟨-, hpresent⟩ := (detect_eq_none_iff hsteady).1 (c.no_drift_of_reconcile hup)
  have hcurrent : ∀ q ∈ p.build.applied, q.spec.Current s'.resolver.cache.known := by
    intro q hq
    refine hpresent q.key q.spec ?_
    rw [hstore, hrecorded]
    exact SnapshotStore.get?_recordAll_of_mem s.store hkeys (List.mem_append_left _ hq)
  obtain ⟨b, hb'⟩ := build_succeeds hb ResolutionCache.resolver s'.resolver.cache
  exact ⟨p, b, hbegin, hb', lines_eq_rebuilt hb hcurrent
    (ResolutionCache.resolver_steady s'.resolver.cache) (Prod.ext hb' rfl)⟩

/-- Between the two questions of a build one answer is replaced and the other selector forgotten;
then the first answer comes back in another order. -/
theorem built_eq_rebuilt_after_writes :
    let example₁ : SelectorKey := ⟨"example.com", ""⟩
    let other : SelectorKey := ⟨"other.com", ""⟩
    let known : List CacheEntry :=
      [⟨example₁, [.empty "a", .empty "b"]⟩, ⟨other, [.empty "c"]⟩]
    let writes : List (List CacheWrite) :=
      [[], [.update example₁ [.empty "d"], .remove other],
        [.replaceAll [⟨example₁, [.empty "b", .empty "a"]⟩]]]
    let cluster := ClusterState.plain
      [blockAndName "web", .named "api" ⟨[], [⟨[], [.ofName "other.com"], [.single .tcp 80]⟩]⟩] []
    let c : Controller DisturbedCache Rehearsal :=
      ⟨DisturbedCache.resolver, Rehearsal.applier, standardDeadline, none, none⟩
    let s : ControllerState DisturbedCache Rehearsal :=
      ⟨∅, ⟨[], []⟩, ⟨.ofEntries known, writes⟩, .initial⟩
    let s' := (c.reconcile .epoch (.ok cluster) s).2
    (c.reconcile .epoch (.ok cluster) s).1.isSuccess ∧ s'.resolver.AtRest ∧
      (c.reconcile .epoch (.ok cluster) s').1 = .upToDate ∧
        ∃ p b, (c.begin .epoch (.ok cluster) s).1 = .pending p ∧
          (build ResolutionCache.resolver cluster.policies cluster.services cluster.firewall
            s'.resolver.cache).1 = .ok b ∧
          p.build.ruleset.ingress = b.ruleset.ingress ∧
            p.build.ruleset.egress = b.ruleset.egress := by
  intro example₁ other known writes cluster c s s'
  have hsuccess : (c.reconcile .epoch (.ok cluster) s).1.isSuccess := by decide +kernel
  have hrest : s'.resolver.coming.isEmpty := by decide +kernel
  have hatRest : s'.resolver.AtRest := List.isEmpty_iff.1 hrest
  have hup : (c.reconcile .epoch (.ok cluster) s').1 = .upToDate := by decide +kernel
  exact ⟨hsuccess, hatRest, hup, built_eq_rebuilt_of_upToDate c rfl cluster (by decide) .epoch s
    hsuccess .epoch s' rfl hatRest hup⟩

end Controller

end ClusterFirewall
