import ClusterFirewall.Proofs.Controller.History
import ClusterFirewall.Proofs.Drift.Soundness

/-!
# What is in force when nothing is to be done

A reconciliation that finds nothing to do leaves the ruleset in force as it is. The question is how
this ruleset compares to the cluster that was just fetched. The snapshots are what was compared, and
they are kept when a policy leaves the cluster; services are not compared at all. Two things follow,
and both are shown at a run:

* a policy that left and came back unchanged is taken for applied, though its lines are in the last
  ruleset that it was part of and not in the one in force (`line_missing_after_return`);
* the lines of a policy or a service that left stay in force (`lines_loaded_after_departure`).

The main statements say that nothing else can go wrong. Every line of a valid policy is in the last
accepted ruleset whose cluster had the policy (`lines_accepted_of_upToDate`), and every line in force
is given by the cluster or by what has departed from it (`line_given_of_upToDate`).
-/

namespace ClusterFirewall

/-! ## What a cluster gives -/

namespace ClusterState

variable {σ : Type}

/-- A line for entering traffic that a valid policy or a service of the cluster gives. -/
def GivesIngress (cluster : ClusterState) (r : Resolver σ) (st : σ) (line : String) : Prop :=
  (∃ p ∈ cluster.policies, p.isValid ∧ line ∈ (p.compile r st).1.ingress) ∨
    ∃ s ∈ cluster.services, line ∈ s.ruleTexts

/-- A line for leaving traffic that a valid policy of the cluster gives. -/
def GivesEgress (cluster : ClusterState) (r : Resolver σ) (st : σ) (line : String) : Prop :=
  ∃ p ∈ cluster.policies, p.isValid ∧ line ∈ (p.compile r st).1.egress

/-- The policies and the services of a cluster that are not in a later one. -/
def departed (before now : ClusterState) : ClusterState :=
  { before with
    policies := before.policies.filter fun p => decide (p.key ∉ now.keys)
    services := before.services.filter fun s => decide (s ∉ now.services) }

/-- The valid policies of a cluster whose keys a later one has are the same there, but for their
sets. -/
def KeptIn (before now : ClusterState) : Prop :=
  ∀ p ∈ now.policies, ∀ q ∈ before.policies, q.isValid → p.key = q.key →
    p.withoutSets = q.withoutSets

theorem mem_keys_of_mem {cluster : ClusterState} {p : Policy} (hp : p ∈ cluster.policies) :
    p.key ∈ cluster.keys :=
  List.mem_map_of_mem hp

end ClusterState

section Given

variable {σ : Type} {r : Resolver σ} {answers : SelectorKey → List String} {st : σ} {b : Build}
  {cluster : ClusterState}

/-- A ruleset holds the ingress lines that its cluster gives. -/
theorem Build.Of.mem_ingress_iff (hb : b.Of cluster) (r : Resolver σ) (st : σ) (line : String) :
    line ∈ b.ruleset.ingress ↔ cluster.GivesIngress r st line := by
  rw [hb.ingress]
  refine or_congr ?_ Iff.rfl
  constructor
  · rintro ⟨q, hq, hline⟩
    obtain ⟨hv, p, hp, hw⟩ := hb.of_mem_applied hq
    refine ⟨p, hp, (Policy.eq_of_withoutSets hw).2.trans hv, ?_⟩
    show line ∈ p.ingressLines
    rw [Policy.ingressLines_of_withoutSets hw]
    exact hline
  · rintro ⟨p, hp, hv, hline⟩
    obtain ⟨q, hq, hw⟩ := hb.exists_mem_applied hp hv
    refine ⟨q, hq, ?_⟩
    rw [Policy.ingressLines_of_withoutSets hw]
    exact hline

/-- A ruleset whose policies carry the present answers holds the egress lines that its cluster
gives. -/
theorem Build.Of.mem_egress_iff (hb : b.Of cluster) (h : r.Steady answers st)
    (hcurrent : ∀ q ∈ b.applied, q.spec.Current answers) (line : String) :
    line ∈ b.ruleset.egress ↔ cluster.GivesEgress r st line := by
  rw [hb.egress]
  constructor
  · rintro ⟨q, hq, hline⟩
    obtain ⟨hv, p, hp, hw⟩ := hb.of_mem_applied hq
    refine ⟨p, hp, (Policy.eq_of_withoutSets hw).2.trans hv, ?_⟩
    rw [(Policy.compile_of_current h hw (hcurrent q hq) .refl).2]
    exact hline
  · rintro ⟨p, hp, hv, hline⟩
    obtain ⟨q, hq, hw⟩ := hb.exists_mem_applied hp hv
    rw [(Policy.compile_of_current h hw.symm (hcurrent q hq) .refl).2] at hline
    exact ⟨q, hq, hline⟩

end Given

/-! ## From one cluster to the next -/

section Departure

variable {σ : Type} {r : Resolver σ} {answers : SelectorKey → List String} {st : σ}
  {before now : ClusterState}

/-- A policy stays, unchanged but for its sets, or it has departed. -/
theorem ClusterState.KeptIn.mem_or_departed (hkept : before.KeptIn now) {q : Policy}
    (hq : q ∈ before.policies) (hv : q.isValid) :
    (∃ p ∈ now.policies, p.isValid ∧ p.withoutSets = q.withoutSets) ∨
      q ∈ (before.departed now).policies := by
  by_cases hk : q.key ∈ now.keys
  · obtain ⟨p, hp, hpk⟩ := List.mem_map.1 hk
    have hw : p.withoutSets = q.withoutSets := hkept p hp q hq hv hpk
    exact .inl ⟨p, hp, (Policy.eq_of_withoutSets hw).2.trans hv, hw⟩
  · exact .inr (List.mem_filter.2 ⟨hq, by simpa using hk⟩)

theorem ClusterState.KeptIn.givesIngress_or_departed (hkept : before.KeptIn now)
    (h : r.Steady answers st) {line : String} (hline : before.GivesIngress r st line) :
    now.GivesIngress r st line ∨ (before.departed now).GivesIngress r st line := by
  rcases hline with ⟨q, hq, hv, hmem⟩ | ⟨s, hs, hmem⟩
  · rcases hkept.mem_or_departed hq hv with ⟨p, hp, hpv, hw⟩ | hgone
    · rw [← (Policy.compile_of_withoutSets h hw .refl).1] at hmem
      exact .inl (.inl ⟨p, hp, hpv, hmem⟩)
    · exact .inr (.inl ⟨q, hgone, hv, hmem⟩)
  · by_cases hs' : s ∈ now.services
    · exact .inl (.inr ⟨s, hs', hmem⟩)
    · exact .inr (.inr ⟨s, List.mem_filter.2 ⟨hs, by simpa using hs'⟩, hmem⟩)

theorem ClusterState.KeptIn.givesEgress_or_departed (hkept : before.KeptIn now)
    (h : r.Steady answers st) {line : String} (hline : before.GivesEgress r st line) :
    now.GivesEgress r st line ∨ (before.departed now).GivesEgress r st line := by
  obtain ⟨q, hq, hv, hmem⟩ := hline
  rcases hkept.mem_or_departed hq hv with ⟨p, hp, hpv, hw⟩ | hgone
  · rw [← (Policy.compile_of_withoutSets h hw .refl).2] at hmem
    exact .inl ⟨p, hp, hpv, hmem⟩
  · exact .inr ⟨q, hgone, hv, hmem⟩

end Departure

/-! ## Snapshots of the ruleset in force -/

section NoDrift

variable {σ : Type} {r : Resolver σ} {answers : SelectorKey → List String} {st : σ}
  {h : History} {a : Acceptance} {cluster : ClusterState}

theorem History.Consistent.snapshot_of_inForce (hc : h.Consistent) (ha : h.inForce? = some a)
    {q : Policy} (hq : q ∈ a.build.applied) : h.store.get? q.key = some q.spec := by
  have hbuilt : a.build.Of a.cluster := hc.built a (List.mem_of_mem_head? ha)
  obtain ⟨-, p, hp, hw⟩ := hbuilt.of_mem_applied hq
  -- The cluster of the ruleset in force has the key, so that the snapshot belongs to this ruleset.
  have hk : q.key ∈ a.cluster.keys := by
    rw [← (Policy.eq_of_withoutSets hw).1]
    exact ClusterState.mem_keys_of_mem hp
  exact (hc.recorded q.key q.spec).2
    ⟨a, h.lastWith?_eq_of_inForce ha hk, q, List.mem_append_left _ hq, rfl, rfl⟩

/-- Without drift the policies in force carry the present answers. -/
theorem History.Consistent.current_of_no_drift (hc : h.Consistent) (hs : r.Steady answers st)
    (hd : (detect r cluster.policies h.store st).1 = none) (ha : h.inForce? = some a) :
    ∀ q ∈ a.build.applied, q.spec.Current answers := by
  intro q hq
  exact ((detect_eq_none_iff hs).1 hd).2 _ _ (hc.snapshot_of_inForce ha hq)

/-- Without drift no valid policy has changed since it got in force. -/
theorem History.Consistent.kept_of_no_drift (hc : h.Consistent) (hs : r.Steady answers st)
    (hd : (detect r cluster.policies h.store st).1 = none) (ha : h.inForce? = some a) :
    a.cluster.KeptIn cluster := by
  intro p hp q hq hv hpk
  have hbuilt : a.build.Of a.cluster := hc.built a (List.mem_of_mem_head? ha)
  obtain ⟨q', hq', hw⟩ := hbuilt.exists_mem_applied hq hv
  have hkey : p.key = q'.key := hpk.trans (Policy.eq_of_withoutSets hw).1.symm
  obtain ⟨s, hsnap, hspec⟩ := ((detect_eq_none_iff hs).1 hd).1 p hp
  -- Both policies are compared with the one snapshot of their key.
  rw [hkey, hc.snapshot_of_inForce ha hq'] at hsnap
  obtain rfl := Option.some.inj hsnap
  exact (Policy.withoutSets_of_key hkey hspec).trans hw

end NoDrift

/-! ## Every policy was accepted -/

section UpToDate

variable {σ α : Type} {answers : SelectorKey → List String}

/-- If there is nothing to do, then every line of every valid policy is in the last accepted ruleset
whose cluster had a policy of this key. That is the ruleset in force, unless the policy was missing
when the ruleset in force was built. -/
theorem lines_accepted_of_upToDate (c : Controller σ α) (triggers : List (Trigger σ α))
    (hdistinct : ∀ t ∈ triggers, t.DistinctKeys) (t : Trigger σ α) (cluster : ClusterState)
    (hfetched : t.fetched = .ok cluster) (hsteady : c.resolver.Steady answers t.resolver)
    (hup : (c.react (c.run ∅ triggers).store t).1 = .upToDate) :
    ∀ p ∈ cluster.policies, p.isValid → ∃ a, (c.run ∅ triggers).lastWith? p.key = some a ∧
      (∀ line ∈ (p.compile c.resolver t.resolver).1.ingress, line ∈ a.build.ruleset.ingress) ∧
      (∀ line ∈ (p.compile c.resolver t.resolver).1.egress, line ∈ a.build.ruleset.egress) ∧
      ∀ b, (c.run ∅ triggers).inForce? = some b → p.key ∈ b.cluster.keys → b = a := by
  intro p hp hv
  -- The policy equals its snapshot, and the snapshot belongs to the last ruleset with its key.
  have hc : (c.run ∅ triggers).Consistent := c.run_consistent hdistinct
  obtain ⟨hpolicies, hcurrent⟩ :=
    (detect_eq_none_iff hsteady).1 (c.no_drift_of_upToDate hfetched hup)
  obtain ⟨s, hs, hw⟩ := hpolicies p hp
  obtain ⟨a, ha, q, hq, hqk, rfl⟩ := (hc.recorded p.key s).1 hs
  have hbuilt : a.build.Of a.cluster := hc.built a (History.mem_of_lastWith? ha)
  have hsame : p.withoutSets = q.withoutSets := Policy.withoutSets_of_key hqk.symm hw
  -- The policy was valid when the ruleset was built, so that it was not left out.
  have hqapplied : q ∈ a.build.applied := by
    apply hbuilt.mem_applied_of_isValid hq
    rw [← (Policy.eq_of_withoutSets hsame).2]
    exact hv
  obtain ⟨hingress, hegress⟩ :=
    Policy.compile_of_current hsteady hsame (hcurrent p.key q.spec hs) .refl
  refine ⟨a, ha, ?_, ?_, ?_⟩
  · intro line hline
    rw [hingress] at hline
    exact (hbuilt.ingress line).2 (.inl ⟨q, hqapplied, hline⟩)
  · intro line hline
    rw [hegress] at hline
    exact (hbuilt.egress line).2 ⟨q, hqapplied, hline⟩
  · intro b hb hk
    have hlast := History.lastWith?_eq_of_inForce hb hk
    exact Option.some.inj (hlast.symm.trans ha)

/-- The policies are accepted, a ruleset with another set for the DNS name is not answered in time,
and accepted at the next trigger. After that the same answers come in another order. -/
theorem lines_accepted_after_timeout :
    let policies := [blockAndName "db", blockAndName "web"]
    let first := Trigger.finding policies [] (knowing ["a"])
    let second := Trigger.finding policies [] (knowing ["a", "b"])
    let triggers := [first, { second with applier := { second.applier with mode := .silent } }, second]
    let t := Trigger.finding policies [] (knowing ["b", "a"])
    let c := Controller.rehearsed
    (c.react (c.run ∅ triggers).store t).1 = .upToDate ∧ (∃ p ∈ policies, p.isValid) ∧
      ∀ p ∈ policies, p.isValid → ∃ a, (c.run ∅ triggers).lastWith? p.key = some a ∧
        (∀ line ∈ (p.compile c.resolver t.resolver).1.ingress, line ∈ a.build.ruleset.ingress) ∧
        (∀ line ∈ (p.compile c.resolver t.resolver).1.egress, line ∈ a.build.ruleset.egress) ∧
        ∀ b, (c.run ∅ triggers).inForce? = some b → p.key ∈ b.cluster.keys → b = a := by
  intro policies first second triggers t c
  have hdistinct : ∀ t ∈ triggers, t.DistinctKeys := by
    have hkeys : (policies.map Policy.key).Nodup := by decide
    simp only [triggers, List.forall_mem_cons]
    exact ⟨Trigger.distinctKeys_of_fetched rfl hkeys, Trigger.distinctKeys_of_fetched rfl hkeys,
      Trigger.distinctKeys_of_fetched rfl hkeys, by simp⟩
  have hup : (c.react (c.run ∅ triggers).store t).1 = .upToDate := by decide +kernel
  exact ⟨hup, by decide +kernel, lines_accepted_of_upToDate c triggers hdistinct t _ rfl
    (ResolutionCache.resolver_steady _) hup⟩

/-- The policy "web" is accepted, it leaves and "db" is accepted, it comes back as it was. Then there
is nothing to do, though no line of "web" is in force. -/
theorem line_missing_after_return :
    let web := blockAndName "web"
    let cache := knowing ["a"]
    let triggers := [Trigger.finding [web] [] cache, .finding [blockAndName "db"] [] cache]
    let t := Trigger.finding [web] [] cache
    let c := Controller.rehearsed
    (∀ t ∈ triggers, t.DistinctKeys) ∧ t.DistinctKeys ∧
      (c.react (c.run ∅ triggers).store t).1 = .upToDate ∧ web.isValid ∧
        ∃ a ∈ (c.run ∅ triggers).inForce?,
          (∃ line ∈ (web.compile c.resolver cache).1.ingress, line ∉ a.build.ruleset.ingress) ∧
            ∃ line ∈ (web.compile c.resolver cache).1.egress, line ∉ a.build.ruleset.egress := by
  intro web cache triggers t c
  have hdistinct : ∀ t ∈ triggers, t.DistinctKeys := by
    simp only [triggers, List.forall_mem_cons]
    exact ⟨Trigger.distinctKeys_of_fetched rfl (by decide),
      Trigger.distinctKeys_of_fetched rfl (by decide), by simp⟩
  exact ⟨hdistinct, Trigger.distinctKeys_of_fetched rfl (by decide), by decide +kernel⟩

/-! ## Every line is given -/

/-- If there is nothing to do, then every line in force is given by the cluster, or by those of the
policies and services behind the ruleset in force that the cluster does not have any more. -/
theorem line_given_of_upToDate (c : Controller σ α) (triggers : List (Trigger σ α))
    (hdistinct : ∀ t ∈ triggers, t.DistinctKeys) (t : Trigger σ α) (cluster : ClusterState)
    (hfetched : t.fetched = .ok cluster) (hsteady : c.resolver.Steady answers t.resolver)
    (hup : (c.react (c.run ∅ triggers).store t).1 = .upToDate) :
    ∀ a, (c.run ∅ triggers).inForce? = some a →
      (∀ line ∈ a.build.ruleset.ingress,
        cluster.GivesIngress c.resolver t.resolver line ∨
          (a.cluster.departed cluster).GivesIngress c.resolver t.resolver line) ∧
      ∀ line ∈ a.build.ruleset.egress,
        cluster.GivesEgress c.resolver t.resolver line ∨
          (a.cluster.departed cluster).GivesEgress c.resolver t.resolver line := by
  intro a ha
  have hc : (c.run ∅ triggers).Consistent := c.run_consistent hdistinct
  have hd := c.no_drift_of_upToDate hfetched hup
  have hbuilt : a.build.Of a.cluster := hc.built a (List.mem_of_mem_head? ha)
  have hkept := hc.kept_of_no_drift hsteady hd ha
  -- The ruleset holds what its own cluster gives now, and from there it goes over to the new one.
  constructor
  · intro line hline
    rw [hbuilt.mem_ingress_iff c.resolver t.resolver] at hline
    exact hkept.givesIngress_or_departed hsteady hline
  · intro line hline
    rw [hbuilt.mem_egress_iff hsteady (hc.current_of_no_drift hsteady hd ha)] at hline
    exact hkept.givesEgress_or_departed hsteady hline

/-- A service that takes traffic in at one address. -/
def loadBalancer (name : String) : Service :=
  ⟨"default", name, .loadBalancer, ["192.0.2.1"], [], [⟨none, 80⟩]⟩

/-- Of two policies and two services one of each stays. -/
theorem line_given_after_departure :
    let cache := knowing ["a"]
    let triggers := [Trigger.finding [blockAndName "db", blockAndName "web"]
      [loadBalancer "api", loadBalancer "shop"] cache]
    let cluster := ClusterState.plain [blockAndName "web"] [loadBalancer "shop"]
    let t := Trigger.finding cluster.policies cluster.services cache
    let c := Controller.rehearsed
    (c.react (c.run ∅ triggers).store t).1 = .upToDate ∧ (c.run ∅ triggers).inForce?.isSome ∧
      ∀ a, (c.run ∅ triggers).inForce? = some a →
        (∀ line ∈ a.build.ruleset.ingress,
          cluster.GivesIngress c.resolver t.resolver line ∨
            (a.cluster.departed cluster).GivesIngress c.resolver t.resolver line) ∧
        ∀ line ∈ a.build.ruleset.egress,
          cluster.GivesEgress c.resolver t.resolver line ∨
            (a.cluster.departed cluster).GivesEgress c.resolver t.resolver line := by
  intro cache triggers cluster t c
  have hdistinct : ∀ t ∈ triggers, t.DistinctKeys := by
    simp only [triggers, List.forall_mem_cons]
    exact ⟨Trigger.distinctKeys_of_fetched rfl (by decide), by simp⟩
  have hup : (c.react (c.run ∅ triggers).store t).1 = .upToDate := by decide +kernel
  exact ⟨hup, by decide +kernel, line_given_of_upToDate c triggers hdistinct t cluster rfl
    (ResolutionCache.resolver_steady _) hup⟩

/-- A policy and a service are accepted and leave. Then there is nothing to do, though there are
lines in force and the cluster gives none. -/
theorem lines_loaded_after_departure :
    let cache := knowing ["a"]
    let triggers := [Trigger.finding [blockAndName "web"] [loadBalancer "shop"] cache]
    let t := Trigger.finding [] [] cache
    let c := Controller.rehearsed
    (∀ t ∈ triggers, t.DistinctKeys) ∧ t.DistinctKeys ∧
      (c.react (c.run ∅ triggers).store t).1 = .upToDate ∧
        ∃ a ∈ (c.run ∅ triggers).inForce?,
          (∃ line ∈ (blockAndName "web").ingressLines, line ∈ a.build.ruleset.ingress) ∧
            (∃ line ∈ (loadBalancer "shop").ruleTexts, line ∈ a.build.ruleset.ingress) ∧
              ∃ line ∈ ((blockAndName "web").compile c.resolver cache).1.egress,
                line ∈ a.build.ruleset.egress := by
  intro cache triggers t c
  have hdistinct : ∀ t ∈ triggers, t.DistinctKeys := by
    simp only [triggers, List.forall_mem_cons]
    exact ⟨Trigger.distinctKeys_of_fetched rfl (by decide), by simp⟩
  exact ⟨hdistinct, Trigger.distinctKeys_of_fetched rfl (by decide), by decide +kernel⟩

end UpToDate

end ClusterFirewall
