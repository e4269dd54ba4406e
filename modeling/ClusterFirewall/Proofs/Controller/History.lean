import ClusterFirewall.Controller.Rehearsal
import ClusterFirewall.Proofs.Controller.Course
import ClusterFirewall.Proofs.Ruleset.Contents
import ClusterFirewall.Proofs.SortedMap

/-!
# Runs of a controller

A controller is triggered again and again. Between two triggers everything but the snapshots may
change: the cluster, the resolver, the disk and the applier. What a run leaves behind is its
snapshots and the rulesets that were accepted, the newest one of which is in force.

A policy that leaves the cluster leaves the next ruleset but not the snapshots. So a snapshot need
not stand for anything in force: it belongs to the last accepted ruleset whose cluster had a policy
of its key.

Main statements: `get?_recordAll`, recording policies one after the other leaves, for every key, the
last policy of that key, and `run_consistent`, what a snapshot belongs to after any run that starts
without snapshots.
-/

namespace ClusterFirewall

/-! ## Recording -/

namespace SnapshotStore

theorem recordAll_eq_insertMany (store : SnapshotStore) (ps : List Policy) :
    store.recordAll ps = store.insertMany (ps.map fun p => (p.key, p.spec)) := by
  rw [recordAll, SortedMap.insertMany, List.foldl_map]
  rfl

/-- The last policy of a key is found, or what was there before. -/
theorem get?_recordAll (store : SnapshotStore) (ps : List Policy) (k : PolicyKey) :
    (store.recordAll ps).get? k =
      ((ps.reverse.find? fun p => decide (p.key = k)).map (·.spec)).or (store.get? k) := by
  rw [recordAll_eq_insertMany, SortedMap.get?_insertMany, ← List.map_reverse, List.find?_map,
    Option.map_map]
  rfl

theorem get?_recordAll_of_not_mem (store : SnapshotStore) {ps : List Policy} {k : PolicyKey}
    (hk : k ∉ ps.map Policy.key) : (store.recordAll ps).get? k = store.get? k := by
  rw [recordAll_eq_insertMany]
  apply SortedMap.get?_insertMany_of_not_mem
  rw [List.map_map]
  exact hk

theorem get?_recordAll_of_mem (store : SnapshotStore) {ps : List Policy} {p : Policy}
    (hkeys : (ps.map Policy.key).Nodup) (hp : p ∈ ps) :
    (store.recordAll ps).get? p.key = some p.spec := by
  rw [recordAll_eq_insertMany]
  apply SortedMap.get?_insertMany_of_mem
  · rw [List.map_map]
    exact hkeys
  · exact List.mem_map.2 ⟨p, hp, rfl⟩

/-- What is found afterwards was recorded just now or was there before. -/
theorem mem_or_of_get?_recordAll {store : SnapshotStore} {ps : List Policy} {k : PolicyKey}
    {s : PolicySpec} (h : (store.recordAll ps).get? k = some s) :
    (∃ p ∈ ps, p.key = k ∧ p.spec = s) ∨ store.get? k = some s := by
  rw [get?_recordAll] at h
  cases hf : ps.reverse.find? fun p => decide (p.key = k) with
  | none =>
    rw [hf] at h
    exact .inr h
  | some p =>
    rw [hf] at h
    have hp : p ∈ ps := List.mem_reverse.1 (List.mem_of_find?_eq_some hf)
    exact .inl ⟨p, hp, by simpa using List.find?_some hf, Option.some.inj h⟩

end SnapshotStore

/-! ## Triggers -/

/-- What a reconciliation finds when it is triggered, apart from the snapshots. -/
structure Trigger (σ α : Type) where
  /-- The time. -/
  now : Instant
  /-- The cluster, or why it could not be fetched. -/
  fetched : Except Error ClusterState
  /-- The disk. -/
  disk : Disk
  /-- The state of the resolver. -/
  resolver : σ
  /-- The state of the applier. -/
  applier : α

/-- The state that a reconciliation starts in. -/
def Trigger.state {σ α : Type} (t : Trigger σ α) (store : SnapshotStore) : ControllerState σ α :=
  ⟨store, t.disk, t.resolver, t.applier⟩

/-- A ruleset that the applier answered with success, and the cluster that it was built from. -/
structure Acceptance where
  /-- The cluster. -/
  cluster : ClusterState
  /-- The ruleset and its policies. -/
  build : Build

/-- What a run leaves behind. -/
structure History where
  /-- The snapshots. -/
  store : SnapshotStore
  /-- The accepted rulesets, the newest one first. -/
  accepted : List Acceptance

/-- The keys of a cluster's policies. -/
def ClusterState.keys (cluster : ClusterState) : List PolicyKey := cluster.policies.map Policy.key

/-- The ruleset that was accepted last. -/
def History.inForce? (h : History) : Option Acceptance := h.accepted.head?

/-- The last accepted ruleset whose cluster had a policy of a key. -/
def History.lastWith? (h : History) (k : PolicyKey) : Option Acceptance :=
  h.accepted.find? fun a => decide (k ∈ a.cluster.keys)

/-- No two policies of the fetched cluster have the same key. -/
def Trigger.DistinctKeys {σ α : Type} (t : Trigger σ α) : Prop :=
  ∀ cluster, t.fetched = .ok cluster → cluster.keys.Nodup

theorem Trigger.distinctKeys_of_fetched {σ α : Type} {t : Trigger σ α} {cluster : ClusterState}
    (hfetched : t.fetched = .ok cluster) (hkeys : cluster.keys.Nodup) : t.DistinctKeys := by
  intro cluster' hfetched'
  rw [hfetched] at hfetched'
  obtain rfl := Except.ok.inj hfetched'
  exact hkeys

/-! ## Following a run -/

namespace Controller

variable {σ α : Type}

/-- The reconciliation that a trigger causes. -/
def react (c : Controller σ α) (store : SnapshotStore) (t : Trigger σ α) :
    Outcome × ControllerState σ α :=
  c.reconcile t.now t.fetched (t.state store)

/-- The ruleset that a trigger gets accepted, if it comes to that. -/
def acceptance? (c : Controller σ α) (store : SnapshotStore) (t : Trigger σ α) :
    Option Acceptance :=
  match t.fetched, (c.begin t.now t.fetched (t.state store)).1, (c.react store t).1.isSuccess with
  | .ok cluster, .pending p, true => some ⟨cluster, p.build⟩
  | _, _, _ => none

/-- One more trigger. -/
def follow (c : Controller σ α) (h : History) (t : Trigger σ α) : History :=
  ⟨(c.react h.store t).2.store, (c.acceptance? h.store t).toList ++ h.accepted⟩

/-- A run from some snapshots, before which nothing was accepted. -/
def run (c : Controller σ α) (start : SnapshotStore) (triggers : List (Trigger σ α)) : History :=
  triggers.foldl c.follow ⟨start, []⟩

/-- What the reconciliations of a run give, one after the other. -/
def collect {β : Type} (c : Controller σ α) (f : SnapshotStore → Trigger σ α → List β) :
    SnapshotStore → List (Trigger σ α) → List β
  | _, [] => []
  | store, t :: rest => f store t ++ c.collect f (c.react store t).2.store rest

/-- A trigger leaves everything as it was, or it gets a ruleset of its cluster accepted and records
the policies of that ruleset. -/
theorem follow_cases (c : Controller σ α) (h : History) (t : Trigger σ α) :
    ((c.react h.store t).1.isSuccess = false ∧ c.follow h t = h) ∨
      ∃ cluster b st st', (c.react h.store t).1.isSuccess ∧ t.fetched = .ok cluster ∧
        build c.resolver cluster.policies cluster.services cluster.firewall st = (.ok b, st') ∧
          c.follow h t = ⟨h.store.recordAll b.policies, ⟨cluster, b⟩ :: h.accepted⟩ := by
  have hcourse : c.Course t.fetched (t.state h.store)
      (c.begin t.now t.fetched (t.state h.store)).1 (c.react h.store t).1
        (c.react h.store t).2 :=
    c.reconcile_course t.now t.fetched (t.state h.store)
  unfold follow acceptance?
  generalize (c.begin t.now t.fetched (t.state h.store)).1 = prep at hcourse ⊢
  generalize c.react h.store t = result at hcourse ⊢
  obtain ⟨outcome, s'⟩ := result
  dsimp only at hcourse ⊢
  cases hcourse with
  | unfetched hf => exact .inl ⟨rfl, by rw [hf]; rfl⟩
  | upToDate hf hd => exact .inl ⟨rfl, by rw [hf]; rfl⟩
  | unbuilt hf hd hb => exact .inl ⟨rfl, by rw [hf]; rfl⟩
  | refused hf hd hb hstore =>
    refine .inl ⟨rfl, ?_⟩
    rw [hf, hstore]
    rfl
  | @accepted cluster _ b st st' _ _ hf hd hb hsuccess hstore hresolver =>
    refine .inr ⟨cluster, b, st, st', hsuccess, hf, hb, ?_⟩
    rw [hf, hstore, hsuccess]
    rfl

end Controller

/-! ## What holds along a run -/

/-- The snapshots and the accepted rulesets fit together. -/
structure History.Consistent (h : History) : Prop where
  built : ∀ a ∈ h.accepted, a.build.Of a.cluster
  recorded : ∀ k s, h.store.get? k = some s ↔
    ∃ a, h.lastWith? k = some a ∧ ∃ q ∈ a.build.policies, q.key = k ∧ q.spec = s

namespace History

theorem consistent_empty : Consistent ⟨∅, []⟩ where
  built := by simp
  recorded := by simp [lastWith?]

theorem lastWith?_cons (store store' : SnapshotStore) (a : Acceptance) (rest : List Acceptance)
    (k : PolicyKey) :
    lastWith? ⟨store, a :: rest⟩ k =
      if k ∈ a.cluster.keys then some a else lastWith? ⟨store', rest⟩ k := by
  by_cases hk : k ∈ a.cluster.keys <;> simp [lastWith?, hk]

theorem mem_of_lastWith? {h : History} {k : PolicyKey} {a : Acceptance}
    (ha : h.lastWith? k = some a) : a ∈ h.accepted :=
  List.mem_of_find?_eq_some ha

/-- If the ruleset in force is built from a cluster with a policy of the key, it is the last one
that is. -/
theorem lastWith?_eq_of_inForce {h : History} {a : Acceptance} (ha : h.inForce? = some a)
    {k : PolicyKey} (hk : k ∈ a.cluster.keys) : h.lastWith? k = some a := by
  obtain ⟨rest, hrest⟩ := List.head?_eq_some_iff.1 ha
  rw [lastWith?, hrest]
  exact List.find?_cons_of_pos (by simpa using hk)

/-- The snapshots of a ruleset that was accepted just now are its policies, and all others belong
where they belonged before. -/
theorem Consistent.accept {h : History} (hc : h.Consistent) {cluster : ClusterState} {b : Build}
    (hbuilt : b.Of cluster) (hdistinct : cluster.keys.Nodup) :
    Consistent ⟨h.store.recordAll b.policies, ⟨cluster, b⟩ :: h.accepted⟩ := by
  constructor
  case built =>
    intro a ha
    rcases List.mem_cons.1 ha with rfl | ha
    · exact hbuilt
    · exact hc.built a ha
  case recorded =>
    intro k s
    have hkeys : (b.policies.map Policy.key).Nodup := hbuilt.keys_perm.nodup_iff.2 hdistinct
    have hmem : k ∈ b.policies.map Policy.key ↔ k ∈ cluster.keys := hbuilt.keys_perm.mem_iff
    rw [lastWith?_cons _ h.store]
    by_cases hk : k ∈ cluster.keys
    · -- The key was recorded just now, and only one policy of the ruleset has it.
      rw [if_pos hk]
      obtain ⟨q, hq, rfl⟩ := List.mem_map.1 (hmem.2 hk)
      constructor
      · intro hs
        rw [SnapshotStore.get?_recordAll_of_mem h.store hkeys hq] at hs
        exact ⟨_, rfl, q, hq, rfl, Option.some.inj hs⟩
      · rintro ⟨a, ha, q', hq', hqk, rfl⟩
        obtain rfl := Option.some.inj ha
        rw [← hqk]
        exact SnapshotStore.get?_recordAll_of_mem h.store hkeys hq'
    · -- The key was left alone.
      rw [if_neg hk, SnapshotStore.get?_recordAll_of_not_mem h.store (mt hmem.1 hk)]
      exact hc.recorded k s

end History

namespace Controller

variable {σ α : Type}

/-- One more trigger keeps the history consistent. -/
theorem follow_consistent (c : Controller σ α) {h : History} (hc : h.Consistent)
    {t : Trigger σ α} (ht : t.DistinctKeys) : (c.follow h t).Consistent := by
  rcases c.follow_cases h t with ⟨-, hsame⟩ | ⟨cluster, b, st, st', -, hf, hb, hnew⟩
  · rw [hsame]
    exact hc
  · rw [hnew]
    exact hc.accept (build_of hb) (ht cluster hf)

/-- Every run that starts without snapshots has a consistent history. -/
theorem run_consistent (c : Controller σ α) {triggers : List (Trigger σ α)}
    (hkeys : ∀ t ∈ triggers, t.DistinctKeys) : (c.run ∅ triggers).Consistent := by
  -- The induction is on the triggers, from any consistent history on.
  have hfrom : ∀ h : History, h.Consistent → (triggers.foldl c.follow h).Consistent := by
    induction triggers with
    | nil => exact fun h hc => hc
    | cons t rest ih =>
      intro h hc
      apply ih
      · intro t' ht'
        exact hkeys t' (List.mem_cons_of_mem _ ht')
      · exact c.follow_consistent hc (hkeys t List.mem_cons_self)
  exact hfrom _ History.consistent_empty

/-- A trigger that finds nothing to do finds no drift. -/
theorem no_drift_of_upToDate (c : Controller σ α) {store : SnapshotStore} {t : Trigger σ α}
    {cluster : ClusterState} (hfetched : t.fetched = .ok cluster)
    (hup : (c.react store t).1 = .upToDate) :
    (detect c.resolver cluster.policies store t.resolver).1 = none := by
  have hcourse := c.reconcile_course t.now t.fetched (t.state store)
  rw [show (c.reconcile t.now t.fetched (t.state store)).1 = .upToDate from hup, hfetched]
    at hcourse
  generalize (c.begin t.now (.ok cluster) (t.state store)).1 = prep at hcourse
  generalize (c.reconcile t.now (.ok cluster) (t.state store)).2 = s' at hcourse
  cases hcourse with
  | upToDate hf hd =>
    obtain rfl := Except.ok.inj hf
    exact congrArg Prod.fst hd
  | accepted _ _ _ hsuccess => exact absurd hsuccess (by decide)

end Controller

/-! ## Rehearsed runs -/

/-- A controller that rehearses. -/
def Controller.rehearsed : Controller ResolutionCache Rehearsal :=
  ⟨ResolutionCache.resolver, Rehearsal.applier, standardDeadline, none, none⟩

/-- These policies and services behind a plain firewall. -/
def ClusterState.plain (policies : List Policy) (services : List Service) : ClusterState :=
  ⟨policies, services, ⟨[], [⟨"private", .privatePrimary, some 10, []⟩], [], []⟩⟩

/-- A trigger that finds a plain cluster and this cache. -/
def Trigger.finding (policies : List Policy) (services : List Service) (cache : ResolutionCache) :
    Trigger ResolutionCache Rehearsal where
  now := .epoch
  fetched := .ok (.plain policies services)
  disk := ⟨[], []⟩
  resolver := cache
  applier := .initial

/-- A policy that lets traffic from a block in and traffic to a DNS name out. -/
def blockAndName (name : String) : Policy :=
  .named name
    ⟨[⟨[⟨"10.0.0.0/8", []⟩], [.single .tcp 443]⟩],
      [⟨[], [⟨"example.com", "", []⟩], [.single .udp 53]⟩]⟩

/-- A cache that knows these sets for the DNS name, and nothing else. -/
def knowing (sets : List String) : ResolutionCache :=
  .ofEntries [⟨⟨"example.com", ""⟩, sets.map IpSet.empty⟩]

end ClusterFirewall
