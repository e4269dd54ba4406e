import ClusterFirewall.Proofs.Controller.History
import ClusterFirewall.Proofs.Drift.Soundness

/-!
# Settling

A reconciliation that gets its ruleset accepted records every policy as it was resolved, the invalid
ones too. If the answers stay the same, then there is no drift from there on: the same cluster is
never built again (`settled_after_success`). The only thing that could keep the controller busy is
the snapshot of a policy that is not in the cluster, since nothing ever brings it up to date.
-/

namespace ClusterFirewall

/-! ## Recording what was resolved -/

section Recording

variable {σ : Type} {r : Resolver σ} {answers : SelectorKey → List String} {st st' st'' : σ}
  {store : SnapshotStore} {cluster : ClusterState} {b : Build}

/-- A build with a steady resolver consists of the cluster's policies with the present answers. -/
theorem mem_policies_iff_of_steady (h : r.Steady answers st)
    (hb : build r cluster.policies cluster.services cluster.firewall st = (.ok b, st'))
    {q : Policy} : q ∈ b.policies ↔ ∃ p ∈ cluster.policies, p.resolveBy answers = q := by
  obtain ⟨happlied, hskipped, -⟩ := build_of_steady h hb
  have hpolicies : b.policies =
      ((cluster.policies.filter fun p => p.isValid) ++
        cluster.policies.filter fun p => !p.isValid).map (·.resolveBy answers) := by
    rw [List.map_append, ← happlied, ← hskipped]
    rfl
  rw [hpolicies, List.mem_map]
  apply exists_congr
  intro p
  apply and_congr_left
  intro _
  exact (List.filter_append_perm _ _).mem_iff

/-- Once the policies of a build are recorded, there is no drift, unless the snapshot of a policy
that is not in the cluster is out of date. -/
theorem no_drift_after_recording (h : r.Steady answers st) (hdistinct : cluster.keys.Nodup)
    (hb : build r cluster.policies cluster.services cluster.firewall st = (.ok b, st'))
    (hothers : ∀ k s, store.get? k = some s → k ∉ cluster.keys → s.Current answers)
    (h' : r.Steady answers st'') :
    (detect r cluster.policies (store.recordAll b.policies) st'').1 = none := by
  have hbuilt : b.Of cluster := build_of hb
  have hkeys : (b.policies.map Policy.key).Nodup := hbuilt.keys_perm.nodup_iff.2 hdistinct
  rw [detect_eq_none_iff h']
  constructor
  · -- Every policy was recorded as it was resolved, which changed nothing but its sets.
    intro p hp
    have hrec : p.resolveBy answers ∈ b.policies := (mem_policies_iff_of_steady h hb).2 ⟨p, hp, rfl⟩
    have hsame : p.spec.withoutSets = (p.resolveBy answers).spec.withoutSets :=
      congrArg Policy.spec (p.withoutSets_resolveBy answers).symm
    exact ⟨(p.resolveBy answers).spec, SnapshotStore.get?_recordAll_of_mem store hkeys hrec, hsame⟩
  · -- A snapshot carries the present answers if it was recorded just now, or by assumption.
    intro k s hs
    by_cases hk : k ∈ b.policies.map Policy.key
    · obtain ⟨q, hq, rfl⟩ := List.mem_map.1 hk
      rw [SnapshotStore.get?_recordAll_of_mem store hkeys hq] at hs
      obtain rfl := Option.some.inj hs
      obtain ⟨p, -, rfl⟩ := (mem_policies_iff_of_steady h hb).1 hq
      exact PolicySpec.current_resolveBy answers p
    · rw [SnapshotStore.get?_recordAll_of_not_mem store hk] at hs
      exact hothers k s hs (mt hbuilt.keys_perm.mem_iff.2 hk)

end Recording

/-! ## Reconciling again and again -/

namespace Controller

variable {σ α : Type}

/-- The states that a controller comes to by reconciling one cluster again and again. In between,
everything but the snapshots and the answers of the resolver may change. -/
inductive Later (c : Controller σ α) (cluster : ClusterState)
    (answers : SelectorKey → List String) (s : ControllerState σ α) :
    ControllerState σ α → Prop where
  | refl : Later c cluster answers s s
  | reconcile {later : ControllerState σ α} (now : Instant) :
      Later c cluster answers s later →
        Later c cluster answers s (c.reconcile now (.ok cluster) later).2
  | change {later changed : ControllerState σ α} :
      Later c cluster answers s later → changed.store = later.store →
        c.resolver.Steady answers changed.resolver → Later c cluster answers s changed

/-- Where no drift is found, the applier has no say, and nothing but the resolver's state changes. -/
theorem reconcile_of_no_drift (c : Controller σ α) (now : Instant) {cluster : ClusterState}
    {s : ControllerState σ α}
    (hd : (detect c.resolver cluster.policies s.store s.resolver).1 = none) :
    (c.begin now (.ok cluster) s).1 = .settled .upToDate ∧
      ∃ st', c.resolver.Reaches s.resolver st' ∧ ∀ applier,
        { c with applier := applier }.reconcile now (.ok cluster) s =
          (.upToDate, { s with resolver := st' }) := by
  have hreach := detect_reaches c.resolver cluster.policies s.store s.resolver
  rcases hdetect : detect c.resolver cluster.policies s.store s.resolver with ⟨drift?, st'⟩
  rw [hdetect] at hd hreach
  obtain rfl : drift? = none := hd
  have hbegin : ∀ applier, { c with applier := applier }.begin now (.ok cluster) s =
      (.settled .upToDate, { s with resolver := st' }) := by
    intro applier
    simp only [begin, plan, hdetect]
  refine ⟨congrArg Prod.fst (hbegin c.applier), st', hreach, ?_⟩
  intro applier
  rw [Controller.reconcile, hbegin applier]

/-- As long as no drift is found with these answers, the snapshots stay and the resolver stays
steady. -/
theorem Later.store_eq {c : Controller σ α} {cluster : ClusterState}
    {answers : SelectorKey → List String} {s later : ControllerState σ α}
    (hlater : c.Later cluster answers s later) (hsteady : c.resolver.Steady answers s.resolver)
    (hquiet : ∀ st, c.resolver.Steady answers st →
      (detect c.resolver cluster.policies s.store st).1 = none) :
    later.store = s.store ∧ c.resolver.Steady answers later.resolver := by
  induction hlater with
  | refl => exact ⟨rfl, hsteady⟩
  | @reconcile later now _ ih =>
    obtain ⟨hstore, hst⟩ := ih
    have hd : (detect c.resolver cluster.policies later.store later.resolver).1 = none := by
      rw [hstore]
      exact hquiet _ hst
    obtain ⟨-, st', hreach, heq⟩ := c.reconcile_of_no_drift now hd
    have hresult := heq c.applier
    rw [show c.reconcile now (.ok cluster) later = (.upToDate, { later with resolver := st' })
      from hresult]
    exact ⟨hstore, hst.of_reaches hreach⟩
  | change _ hsame hst ih => exact ⟨hsame.trans ih.1, hst⟩

/-- After a success the controller has settled: as long as the cluster and the answers stay the same,
every later reconciliation finds nothing to do, whatever the applier, and the snapshots stay. -/
theorem settled_after_success (c : Controller σ α) (now : Instant) (s : ControllerState σ α)
    (cluster : ClusterState) (hdistinct : cluster.keys.Nodup)
    (answers : SelectorKey → List String) (hsteady : c.resolver.Steady answers s.resolver)
    (hothers : ∀ k spec, s.store.get? k = some spec → k ∉ cluster.keys → spec.Current answers)
    (hsuccess : (c.reconcile now (.ok cluster) s).1.isSuccess) :
    ∀ later, c.Later cluster answers (c.reconcile now (.ok cluster) s).2 later →
      later.store = (c.reconcile now (.ok cluster) s).2.store ∧ ∀ now',
        (c.begin now' (.ok cluster) later).1 = .settled .upToDate ∧
          ∃ st', ∀ applier, { c with applier := applier }.reconcile now' (.ok cluster) later =
            (.upToDate, { later with resolver := st' }) := by
  obtain ⟨drift, b, st, hd, hb, hstore⟩ := c.accepted_of_isSuccess hsuccess
  -- Neither the detection nor the build unsettles the resolver.
  have hst : c.resolver.Steady answers st := by
    have hreach := detect_reaches c.resolver cluster.policies s.store s.resolver
    rw [hd] at hreach
    exact hsteady.of_reaches hreach
  have hend : c.resolver.Steady answers (c.reconcile now (.ok cluster) s).2.resolver :=
    hst.of_reaches (build_of_steady hst hb).2.2
  -- This is the invariant of all that follows: with these snapshots there is no drift.
  have hquiet : ∀ st', c.resolver.Steady answers st' →
      (detect c.resolver cluster.policies (c.reconcile now (.ok cluster) s).2.store st').1 =
        none := by
    intro st' hst'
    rw [hstore]
    exact no_drift_after_recording hst hdistinct hb hothers hst'
  intro later hlater
  obtain ⟨hsame, hlatersteady⟩ := hlater.store_eq hend hquiet
  refine ⟨hsame, ?_⟩
  intro now'
  have hnone := hquiet later.resolver hlatersteady
  rw [← hsame] at hnone
  obtain ⟨hbegin, st', -, heq⟩ := c.reconcile_of_no_drift now' hnone
  exact ⟨hbegin, st', heq⟩

/-- Policies without a name, of another namespace, and with names beside blocks, over the snapshot
of a policy that is gone. -/
theorem settled_with_rejected_policies :
    let cache := knowing ["a", "b"]
    let policies := [blockAndName "api", blockAndName "",
      { blockAndName "web" with space := "other" }, namesAndBlocks [] []]
    let cluster := ClusterState.plain policies []
    let s := (Trigger.finding policies [] cache).state
      (SnapshotStore.recordAll ∅ [(blockAndName "gone").resolveBy cache.known])
    let c := rehearsed
    policies.map Policy.isValid = [true, false, false, true] ∧
      (c.reconcile .epoch (.ok cluster) s).1.isSuccess ∧
        ∀ later, c.Later cluster cache.known (c.reconcile .epoch (.ok cluster) s).2 later →
          later.store = (c.reconcile .epoch (.ok cluster) s).2.store ∧ ∀ now',
            (c.begin now' (.ok cluster) later).1 = .settled .upToDate ∧
              ∃ st', ∀ applier, { c with applier := applier }.reconcile now' (.ok cluster) later =
                (.upToDate, { later with resolver := st' }) := by
  intro cache policies cluster s c
  have hothers : ∀ k spec, s.store.get? k = some spec → k ∉ cluster.keys →
      spec.Current cache.known := by
    intro k spec hspec _
    rcases SnapshotStore.mem_or_of_get?_recordAll hspec with ⟨p, hp, -, rfl⟩ | hnone
    · obtain rfl := List.mem_singleton.1 hp
      exact PolicySpec.current_resolveBy cache.known (blockAndName "gone")
    · simp at hnone
  have hsuccess : (c.reconcile .epoch (.ok cluster) s).1.isSuccess := by decide +kernel
  exact ⟨by decide +kernel, hsuccess, settled_after_success c .epoch s cluster (by decide)
    cache.known (ResolutionCache.resolver_steady cache) hothers hsuccess⟩

end Controller

end ClusterFirewall
